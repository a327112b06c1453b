/-
The course of a survey, one move at a time.

`load` runs a plan inside a plan and shows only the state at the end. A `Moment` also shows what goes on in between: the
finders at work, innermost first, each with what is left of its plan. `advance` takes one step of the innermost plan; a
finder that needs another one waits, its plan unchanged, until that one has an answer. `follow` takes a list of moves, some
of which are acts from outside, possible only while nobody is at work.

Two things are kept on record for the sake of statements: whose plans were started (`begun`), and how often the image was
searched because the facts were asked for (`surveyed`), which shows in the number of text searches.
- `loadWithin_realizes`: whatever `loadWithin` answers, the waiting plan gets there by such steps, to the same state.
- `follow_unique`: the acts from outside decide the course.
- `exists_follow_requests`: any list of requests is a list of moves with the same acts from outside, and leads to the same
  state.
-/
import Landmark.Survey.Operation

namespace Landmark

/-! ## Model -/

/-- a finder at work, and what is left of its plan -/
structure Job (κ : Type) where
  key : κ
  plan : Plan κ Finding

structure Moment (κ : Type) where
  /-- finders at work, innermost first -/
  stack : List (Job κ)
  state : State κ
  /-- finders whose plans were started, in order -/
  begun : List κ
  /-- number of times that asking for the facts took text searches -/
  surveyed : Nat

/-- nobody at work and nothing known -/
def Moment.start {κ : Type} : Moment κ := ⟨[], .start, [], 0⟩

/-- what can be done from outside -/
inductive Act (κ : Type) where
  | load (key : κ)
  | facts
  | tree
  | store (r : StoreRequest)

inductive Move (κ : Type) where
  /-- one step of the innermost plan -/
  | work
  | act (a : Act κ)

/-- the act from outside in a move -/
def Move.act? {κ : Type} : Move κ → Option (Act κ)
  | work => none
  | act a => some a

/-- what can be asked of a survey -/
inductive Request (κ : Type) where
  | load (key : κ)
  | depend (key : κ)
  | describe (key : κ)
  | describeAll (keys : List κ)
  | describeFacts
  | status (key : κ)
  | facts
  | tree
  | store (r : StoreRequest)

/-- the acts a request consists of -/
def Request.acts {κ : Type} : Request κ → List (Act κ)
  | load key => [.load key]
  | depend key => [.load key]
  | describe key => [.load key]
  | describeAll keys => .facts :: keys.map .load
  | describeFacts => [.facts]
  | status _ => []
  | facts => [.facts]
  | tree => [.tree]
  | store r => [.store r]

namespace Survey

variable {κ : Type} [DecidableEq κ] (S : Survey κ)

/-- starts the plan of a finder -/
def enter (m : Moment κ) (key : κ) : Moment κ :=
  { m with
    stack := ⟨key, S.plan key⟩ :: m.stack
    state := m.state.setSlot key .resolving
    begun := m.begun ++ [key] }

/-- gives the facts to whoever takes the place of the stack -/
def takeFacts (m : Moment κ) (stack : ClientFacts → List (Job κ)) : Moment κ :=
  { m with
    stack := stack (S.facts m.state).1
    state := (S.facts m.state).2
    surveyed := if m.state.log.texts < (S.facts m.state).2.log.texts then m.surveyed + 1 else m.surveyed }

/-- one step of the innermost plan -/
def advance (m : Moment κ) : Option (Moment κ) :=
  match m.stack with
  | [] => none
  | ⟨key, plan⟩ :: rest =>
    match plan with
    | .done v => some { m with stack := rest, state := (S.settle key (.ok v, m.state)).2 }
    | .fail f => some { m with stack := rest, state := (S.settle key (.fail f none, m.state)).2 }
    | .findText needle q next =>
      let (r, state) := m.state.scan (Scan.text S.image needle q)
      some { m with stack := ⟨key, next r⟩ :: rest, state }
    | .findSignature sig a b next =>
      let (r, state) := m.state.scan (Scan.signatureIn S.image sig a b)
      some { m with stack := ⟨key, next r⟩ :: rest, state }
    | .facts next => some (S.takeFacts m fun f => ⟨key, next f⟩ :: rest)
    | .tree next =>
      let (r, state) := S.tree m.state
      some { m with stack := ⟨key, next (r.map Handle.value)⟩ :: rest, state }
    | .status k next => some { m with stack := ⟨key, next (m.state.slots k).status⟩ :: rest }
    | .attempt k next =>
      match S.replay k (m.state.slots k) with
      | some r => some { m with stack := ⟨key, next r⟩ :: rest }
      | none => some (S.enter m k)
    | .depend k next =>
      match S.replay k (m.state.slots k) with
      | some (.ok v) => some { m with stack := ⟨key, next v⟩ :: rest }
      | some (.error e) =>
        some { m with stack := rest, state := (S.settle key (.fail e.asDependency (sourceOf k m.state), m.state)).2 }
      | none => some (S.enter m k)

/-- an act from outside -/
def perform (m : Moment κ) : Act κ → Moment κ
  | .load key => if (m.state.slots key).isUnresolved then S.enter m key else m
  | .facts => S.takeFacts m fun _ => m.stack
  | .tree => { m with state := (S.tree m.state).2 }
  | .store r => { m with state := { m.state with store := (r.run m.state.store).2 } }

/-- one move; nothing is done from outside while a finder is at work -/
def move (m : Moment κ) : Move κ → Option (Moment κ)
  | .work => S.advance m
  | .act a => if m.stack.isEmpty then some (S.perform m a) else none

/-- several moves in order -/
def follow (m : Moment κ) : List (Move κ) → Option (Moment κ)
  | [] => some m
  | mv :: moves =>
    match S.move m mv with
    | some m' => follow m' moves
    | none => none

/-- the state after a request -/
def after (st : State κ) : Request κ → State κ
  | .load key => (S.load key st).2
  | .depend key => (S.depend key st).2
  | .describe key => (S.describe key st).2
  | .describeAll keys => (S.describeAll keys st).2
  | .describeFacts => (S.describeFacts st).2
  | .status _ => st
  | .facts => (S.facts st).2
  | .tree => (S.tree st).2
  | .store r => { st with store := (r.run st.store).2 }

/-- the state after one act from outside and the plans it starts -/
def afterAct (st : State κ) : Act κ → State κ
  | .load key => (S.load key st).2
  | .facts => (S.facts st).2
  | .tree => (S.tree st).2
  | .store r => { st with store := (r.run st.store).2 }

/-- the state after several requests -/
def afterAll (st : State κ) (requests : List (Request κ)) : State κ :=
  requests.foldl S.after st

/-! ## Steps of plans -/

theorem follow_append (m : Moment κ) (a b : List (Move κ)) : S.follow m (a ++ b) = (S.follow m a).bind (S.follow · b) := by
  induction a generalizing m with
  | nil => rfl
  | cons mv a ih =>
    rw [List.cons_append, follow, follow]
    cases S.move m mv with
    | none => rfl
    | some m' => exact ih m'

theorem follow_cons_eq_some_iff {m m' : Moment κ} {mv : Move κ} {moves : List (Move κ)} :
    S.follow m (mv :: moves) = some m' ↔ ∃ m₁, S.move m mv = some m₁ ∧ S.follow m₁ moves = some m' := by
  rw [follow]
  cases S.move m mv <;> simp

/-- plans alone lead from one moment to another -/
def Works (m m' : Moment κ) : Prop :=
  ∃ n, S.follow m (List.replicate n .work) = some m'

variable {S}

theorem Works.refl (m : Moment κ) : S.Works m m := ⟨0, rfl⟩

theorem Works.trans {a b c : Moment κ} (h : S.Works a b) (h' : S.Works b c) : S.Works a c := by
  obtain ⟨n, hn⟩ := h
  obtain ⟨n', hn'⟩ := h'
  refine ⟨n + n', ?_⟩
  rw [← List.replicate_append_replicate, follow_append, hn]
  exact hn'

theorem Works.of_advance {m m' : Moment κ} (h : S.advance m = some m') : S.Works m m' := by
  refine ⟨1, ?_⟩
  rw [List.replicate_one, follow, move, h]
  rfl

variable (S)

/-- what was kept is what is answered from then on -/
theorem replay_settle (key : κ) (r : Ending κ Finding × State κ) :
    S.replay key ((S.settle key r).2.slots key) = some (S.settle key r).1 := by
  obtain ⟨e, st⟩ := r
  cases e <;> simp [settle, State.setSlot, replay]

/-- the plan cannot go on without an answer from `k` -/
def Waits (k : κ) : Plan κ Finding → Prop
  | .attempt k' _ => k' = k
  | .depend k' _ => k' = k
  | _ => False

theorem advance_of_waits {m : Moment κ} {key k : κ} {plan : Plan κ Finding} {rest : List (Job κ)} (hw : Waits k plan)
    (hm : m.stack = ⟨key, plan⟩ :: rest) (hk : S.replay k (m.state.slots k) = none) :
    S.advance m = some (S.enter m k) := by
  unfold advance
  rw [hm]
  cases plan with
  | attempt k' next => obtain rfl := hw; simp only [hk]
  | depend k' next => obtain rfl := hw; simp only [hk]
  | _ => exact hw.elim

/-- whatever the loader answers, a plan that waits for it gets there step by step -/
def Realizes (load : Loader κ) : Prop :=
  ∀ k st r st', load k st = some (r, st') → ∀ key plan rest begun surveyed, Waits k plan → ∃ begun' surveyed',
    S.Works ⟨⟨key, plan⟩ :: rest, st, begun, surveyed⟩ ⟨⟨key, plan⟩ :: rest, st', begun', surveyed'⟩ ∧
      S.replay k (st'.slots k) = some r

/-- a plan is run step by step, and in the end its finder keeps what came of it -/
theorem works_exec {load : Loader κ} (hl : S.Realizes load) (plan : Plan κ Finding) {st st' : State κ}
    {e : Ending κ Finding} (h : S.exec load plan st = some (e, st')) (key : κ) (rest : List (Job κ)) (begun : List κ)
    (surveyed : Nat) : ∃ begun' surveyed', S.Works ⟨⟨key, plan⟩ :: rest, st, begun, surveyed⟩
      ⟨rest, (S.settle key (e, st')).2, begun', surveyed'⟩ := by
  induction plan generalizing st begun surveyed with
  | done a => cases h; exact ⟨_, _, .of_advance rfl⟩
  | fail f => cases h; exact ⟨_, _, .of_advance rfl⟩
  | findText needle q next ih =>
    obtain ⟨begun', surveyed', hw⟩ := ih _ h begun surveyed
    exact ⟨begun', surveyed', .trans (.of_advance rfl) hw⟩
  | findSignature sig a b next ih =>
    obtain ⟨begun', surveyed', hw⟩ := ih _ h begun surveyed
    exact ⟨begun', surveyed', .trans (.of_advance rfl) hw⟩
  | facts next ih =>
    obtain ⟨begun', surveyed', hw⟩ := ih _ h begun _
    exact ⟨begun', surveyed', .trans (.of_advance rfl) hw⟩
  | tree next ih =>
    obtain ⟨begun', surveyed', hw⟩ := ih _ h begun surveyed
    exact ⟨begun', surveyed', .trans (.of_advance rfl) hw⟩
  | status k next ih =>
    obtain ⟨begun', surveyed', hw⟩ := ih _ h begun surveyed
    exact ⟨begun', surveyed', .trans (.of_advance rfl) hw⟩
  | attempt k next ih =>
    rw [exec] at h
    cases hload : load k st with
    | none => rw [hload] at h; contradiction
    | some a =>
      obtain ⟨r, st₁⟩ := a
      rw [hload] at h
      obtain ⟨b₁, s₁, hw₁, hr⟩ := hl k st r st₁ hload key (.attempt k next) rest begun surveyed rfl
      obtain ⟨b₂, s₂, hw₂⟩ := ih r h b₁ s₁
      refine ⟨b₂, s₂, hw₁.trans (.trans (.of_advance ?_) hw₂)⟩
      simp only [advance, hr]
  | depend k next ih =>
    rw [exec] at h
    cases hload : load k st with
    | none => rw [hload] at h; contradiction
    | some a =>
      obtain ⟨r, st₁⟩ := a
      rw [hload] at h
      obtain ⟨b₁, s₁, hw₁, hr⟩ := hl k st r st₁ hload key (.depend k next) rest begun surveyed rfl
      cases r with
      | ok v =>
        obtain ⟨b₂, s₂, hw₂⟩ := ih v h b₁ s₁
        refine ⟨b₂, s₂, hw₁.trans (.trans (.of_advance ?_) hw₂)⟩
        simp only [advance, hr]
      | error f =>
        cases h
        refine ⟨b₁, s₁, hw₁.trans (.of_advance ?_)⟩
        simp only [advance, hr]

/-- **Every answer of `loadWithin` is reached step by step.** Induction on the plans allowed inside one another. -/
theorem loadWithin_realizes (n : Nat) : S.Realizes (S.loadWithin n) := by
  induction n with
  | zero =>
    intro k st r st' h key plan rest begun surveyed _
    obtain ⟨r', hr, heq⟩ := Option.map_eq_some_iff.1 h
    cases heq
    exact ⟨begun, surveyed, .refl _, hr⟩
  | succ n ih =>
    intro k st r st' h key plan rest begun surveyed hw
    cases hk : S.replay k (st.slots k) with
    | some r' =>
      rw [S.loadWithin_of_replay hk] at h
      cases h
      exact ⟨begun, surveyed, .refl _, hk⟩
    | none =>
      simp only [loadWithin, hk] at h
      obtain ⟨⟨e, st₁⟩, hexec, hset⟩ := Option.map_eq_some_iff.1 h
      obtain ⟨b, s, hworks⟩ := S.works_exec ih (S.plan k) hexec k (⟨key, plan⟩ :: rest) (begun ++ [k]) surveyed
      have hreplay := S.replay_settle k (e, st₁)
      rw [hset] at hworks hreplay
      exact ⟨b, s, .trans (.of_advance (S.advance_of_waits hw rfl hk)) hworks, hreplay⟩

/-! ## Requests -/

theorem loadWithin_pending (key : κ) (st : State κ) : S.loadWithin (S.pending st) key st = some (S.load key st) :=
  (Option.some_get _).symm

/-- A slot that has an answer gives it at once. -/
theorem load_of_replay {key : κ} {st : State κ} {r : Except Failure Finding}
    (h : S.replay key (st.slots key) = some r) : S.load key st = (r, st) :=
  Option.some_inj.1 ((S.loadWithin_pending key st).symm.trans (S.loadWithin_of_replay h _))

theorem load_succ {key : κ} {st : State κ} (h : (st.slots key).isUnresolved = true) :
    ∃ n r, S.exec (S.loadWithin n) (S.plan key) (st.setSlot key .resolving) = some r ∧ S.load key st = S.settle key r := by
  obtain ⟨n, hn⟩ := Nat.exists_eq_succ_of_ne_zero (Nat.pos_iff_ne_zero.1 (S.pending_pos h))
  have hload := S.loadWithin_pending key st
  simp only [hn, loadWithin, S.replay_eq_none_iff.2 h] at hload
  obtain ⟨r, hexec, hset⟩ := Option.map_eq_some_iff.1 hload
  exact ⟨n, r, hexec, hset.symm⟩

/-- **What a load answers is on record afterwards.** -/
theorem replay_load (key : κ) (st : State κ) :
    S.replay key ((S.load key st).2.slots key) = some (S.load key st).1 := by
  cases hr : S.replay key (st.slots key) with
  | some r =>
    rw [S.load_of_replay hr]
    exact hr
  | none =>
    obtain ⟨_, r, _, hload⟩ := S.load_succ (S.replay_eq_none_iff.1 hr)
    rw [hload]
    exact S.replay_settle key r

theorem describe_snd (key : κ) (st : State κ) : (S.describe key st).2 = (S.load key st).2 := by
  rw [describe]
  rcases S.load key st with ⟨_ | _, _⟩ <;> rfl

theorem describeEach_snd (keys : List κ) (st : State κ) :
    (S.describeEach st keys).2 = (keys.map Act.load).foldl S.afterAct st := by
  induction keys generalizing st with
  | nil => rfl
  | cons key keys ih =>
    rw [List.map_cons, List.foldl_cons, afterAct, ← describe_snd, ← ih]
    rfl

/-- a request changes the state as its acts do -/
theorem after_eq_foldl (st : State κ) (r : Request κ) : S.after st r = r.acts.foldl S.afterAct st := by
  cases r with
  | describe key => exact S.describe_snd key st
  | describeAll keys => exact S.describeEach_snd keys (S.facts st).2
  | _ => rfl

theorem afterAll_eq_foldl (st : State κ) (requests : List (Request κ)) :
    S.afterAll st requests = (requests.flatMap Request.acts).foldl S.afterAct st := by
  induction requests generalizing st with
  | nil => rfl
  | cons r requests ih =>
    rw [List.flatMap_cons, List.foldl_append, ← after_eq_foldl, ← ih]
    rfl

theorem move_act {m : Moment κ} (hm : m.stack = []) (a : Act κ) : S.move m (.act a) = some (S.perform m a) := by
  rw [move, hm]
  rfl

/-- one act from outside, and then plans until nobody is at work -/
theorem exists_follow_act (m : Moment κ) (hm : m.stack = []) (a : Act κ) : ∃ n m',
    S.follow m (.act a :: List.replicate n .work) = some m' ∧ m'.stack = [] ∧ m'.state = S.afterAct m.state a := by
  obtain ⟨stack, st, begun, surveyed⟩ := m
  obtain rfl : stack = [] := hm
  cases a with
  | load key =>
    by_cases hk : (st.slots key).isUnresolved = true
    · obtain ⟨n, ⟨e, st₁⟩, hexec, hload⟩ := S.load_succ hk
      obtain ⟨begun', surveyed', k, hw⟩ :=
        S.works_exec (S.loadWithin_realizes n) (S.plan key) hexec key [] (begun ++ [key]) surveyed
      refine ⟨k, ⟨[], (S.settle key (e, st₁)).2, begun', surveyed'⟩, ?_, rfl, ?_⟩
      · rw [follow, S.move_act rfl, perform, if_pos hk]
        exact hw
      · rw [← hload]
        rfl
    · obtain ⟨r, hr⟩ := Option.ne_none_iff_exists'.1 (mt S.replay_eq_none_iff.1 hk)
      refine ⟨0, ⟨[], st, begun, surveyed⟩, ?_, rfl, (congrArg Prod.snd (S.load_of_replay hr)).symm⟩
      rw [follow, S.move_act rfl, perform, if_neg hk]
      rfl
  | facts => exact ⟨0, _, rfl, rfl, rfl⟩
  | tree => exact ⟨0, _, rfl, rfl, rfl⟩
  | store r => exact ⟨0, _, rfl, rfl, rfl⟩

theorem exists_follow_acts (m : Moment κ) (hm : m.stack = []) (acts : List (Act κ)) : ∃ moves m',
    S.follow m moves = some m' ∧ moves.filterMap Move.act? = acts ∧ m'.stack = [] ∧
      m'.state = acts.foldl S.afterAct m.state := by
  induction acts generalizing m with
  | nil => exact ⟨[], m, rfl, rfl, hm, rfl⟩
  | cons a acts ih =>
    obtain ⟨n, m₁, hn, hm₁, hs₁⟩ := S.exists_follow_act m hm a
    obtain ⟨moves, m', hf, hacts, hm', hs'⟩ := ih m₁ hm₁
    refine ⟨.act a :: List.replicate n .work ++ moves, m', ?_, ?_, hm', ?_⟩
    · rw [follow_append, hn]
      exact hf
    · have hwork : (List.replicate n Move.work).filterMap (@Move.act? κ) = [] := by
        simp [List.filterMap_eq_nil_iff, Move.act?]
      rw [List.cons_append, List.filterMap_cons, List.filterMap_append, hwork, hacts]
      rfl
    · rw [hs', hs₁]
      rfl

theorem isEmpty_of_move {m m' : Moment κ} {mv : Move κ} (h : S.move m mv = some m') :
    m.stack.isEmpty = mv.act?.isSome := by
  obtain ⟨stack, st, begun, surveyed⟩ := m
  cases mv with
  | act a => exact (Option.ite_none_right_eq_some.1 h).1
  | work =>
    cases stack with
    | nil => contradiction
    | cons job rest => rfl

theorem eq_nil_of_follow {m m' : Moment κ} {moves : List (Move κ)} (h : S.follow m moves = some m') (hm : m.stack = [])
    (hacts : moves.filterMap Move.act? = []) : moves = [] := by
  cases moves with
  | nil => rfl
  | cons mv moves =>
    obtain ⟨m₁, hmv, _⟩ := S.follow_cons_eq_some_iff.1 h
    have hact := S.isEmpty_of_move hmv
    rw [hm, List.filterMap_eq_nil_iff.1 hacts mv List.mem_cons_self] at hact
    contradiction

/-- **The acts from outside decide the course.** While a finder is at work there is one way on, and while nobody is at work
the next act is. -/
theorem follow_unique {m m₁ m₂ : Moment κ} {moves moves' : List (Move κ)} (h : S.follow m moves = some m₁)
    (h' : S.follow m moves' = some m₂) (hm₁ : m₁.stack = []) (hm₂ : m₂.stack = [])
    (hacts : moves.filterMap Move.act? = moves'.filterMap Move.act?) : moves = moves' := by
  induction moves generalizing m moves' with
  | nil =>
    obtain rfl := Option.some_inj.1 h
    exact (S.eq_nil_of_follow h' hm₁ hacts.symm).symm
  | cons mv moves ih =>
    cases moves' with
    | nil =>
      obtain rfl := Option.some_inj.1 h'
      exact S.eq_nil_of_follow h hm₂ hacts
    | cons mv' moves' =>
      obtain ⟨a, hmv, hrest⟩ := S.follow_cons_eq_some_iff.1 h
      obtain ⟨a', hmv', hrest'⟩ := S.follow_cons_eq_some_iff.1 h'
      have hkind := (S.isEmpty_of_move hmv).symm.trans (S.isEmpty_of_move hmv')
      have hboth : mv = mv' ∧ moves.filterMap Move.act? = moves'.filterMap Move.act? := by
        cases mv with
        | work =>
          cases mv' with
          | work => exact ⟨rfl, hacts⟩
          | act b => contradiction
        | act b =>
          cases mv' with
          | work => contradiction
          | act b' =>
            obtain ⟨rfl, htail⟩ := List.cons.inj hacts
            exact ⟨rfl, htail⟩
      obtain ⟨rfl, htail⟩ := hboth
      obtain rfl := Option.some_inj.1 (hmv.symm.trans hmv')
      rw [ih hrest hrest' htail]

/-- **Every list of requests has its course**, and only one. -/
theorem exists_follow_requests (requests : List (Request κ)) : ∃ moves m,
    S.follow .start moves = some m ∧ moves.filterMap Move.act? = requests.flatMap Request.acts ∧ m.stack = [] ∧
      m.state = S.afterAll .start requests ∧
      ∀ moves' m', S.follow .start moves' = some m' → moves'.filterMap Move.act? = requests.flatMap Request.acts →
        m'.stack = [] → moves' = moves ∧ m' = m := by
  rw [S.afterAll_eq_foldl]
  obtain ⟨moves, m, hf, hacts, hm, hs⟩ := S.exists_follow_acts .start rfl (requests.flatMap Request.acts)
  refine ⟨moves, m, hf, hacts, hm, hs, ?_⟩
  intro moves' m' hf' hacts' hm'
  obtain rfl := S.follow_unique hf' hf hm' hm (hacts'.trans hacts.symm)
  exact ⟨rfl, Option.some_inj.1 (hf'.symm.trans hf)⟩

end Survey

end Landmark
