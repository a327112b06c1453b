/-
What a survey remembers, along the whole of its course.

A finder is unresolved, then at work, then settled, and its plan is started on the way from the first to the second. The
finders at work are those on the stack, so nobody is at work between requests, and nobody is started twice.
- `move_cases`: what one move can do.
- `Consistent`: the invariant; `move_consistent`, `follow_consistent`.
- `slot_step_of_move`, `slot_eq_of_follow`: slots go one way only, and a settled one stays as it is.
- `answers_of_outcome`: what a settled finder answers, and that this takes nothing.
- `facts_of_some`, `texts_lt_facts`: the facts are computed if they are not there, which takes searches, and only then.
- `memoizes`: all of it together.
-/
import Landmark.Proofs.ClientFacts
import Landmark.Proofs.Survey.Course

namespace Landmark

/-! ## Slots -/

namespace Slot

variable {κ : Type}

/-- what came of a finder -/
def outcome? : Slot κ → Option (Except Failure Finding)
  | unresolved => none
  | resolving => none
  | resolved v => some (.ok v)
  | failed e _ => some (.error e)

/-- the only ways a slot changes -/
inductive Step : Slot κ → Slot κ → Prop where
  | begins : Step .unresolved .resolving
  | succeeds (v : Finding) : Step .resolving (.resolved v)
  | fails (e : Failure) (source : Option κ) : Step .resolving (.failed e source)

theorem Step.outcome?_left {s s' : Slot κ} (h : s.Step s') : s.outcome? = none := by
  cases h <;> rfl

theorem step_of_outcome {s : Slot κ} (h : s.outcome?.isSome) : Step .resolving s := by
  cases s with
  | unresolved => contradiction
  | resolving => contradiction
  | resolved v => exact .succeeds v
  | failed e source => exact .fails e source

theorem isUnresolved_eq_false_of_outcome {s : Slot κ} (h : s.outcome?.isSome) : s.isUnresolved = false := by
  cases s <;> first | rfl | contradiction

theorem ne_resolving_of_outcome {s : Slot κ} (h : s.outcome?.isSome) : s ≠ .resolving := by
  rintro rfl
  contradiction

end Slot

theorem State.setSlot_self {κ : Type} [DecidableEq κ] (st : State κ) (key : κ) (s : Slot κ) :
    (st.setSlot key s).slots key = s :=
  if_pos rfl

theorem State.setSlot_of_ne {κ : Type} [DecidableEq κ] (st : State κ) {key k : κ} (h : k ≠ key) (s : Slot κ) :
    (st.setSlot key s).slots k = st.slots k :=
  if_neg h

/-- finders at work, innermost first -/
def Moment.working {κ : Type} (m : Moment κ) : List κ := m.stack.map Job.key

namespace Survey

variable {κ : Type} (S : Survey κ)

/-! ## Facts -/

/-- facts that are there are the answer, and the state stays as it is -/
theorem facts_of_some {st : State κ} {f : ClientFacts} (h : st.facts = some f) : S.facts st = (f, st) := by
  rw [Survey.facts, h]

theorem describeFacts_of_some {st : State κ} {f : ClientFacts} (h : st.facts = some f) :
    S.describeFacts st = (.resolved "FACTS" f.fields, st) := by
  rw [describeFacts, S.facts_of_some h]

/-- facts that were given are there from then on -/
theorem facts_snd_facts (st : State κ) : (S.facts st).2.facts = some (S.facts st).1 := by
  cases h : st.facts with
  | none => rw [Survey.facts, h]
  | some f =>
    rw [S.facts_of_some h]
    exact h

/-- facts that are not there take a text search at least -/
theorem texts_lt_facts {st : State κ} (h : st.facts = none) : st.log.texts < (S.facts st).2.log.texts := by
  rw [Survey.facts, h]
  exact ClientFacts.texts_lt_survey S.image S.thresholds st.log

variable [DecidableEq κ]

/-! ## One move -/

/-- nobody is started or settled -/
def Quiet (m m' : Moment κ) : Prop :=
  m'.working = m.working ∧ m'.state.slots = m.state.slots ∧ m'.begun = m.begun ∧
    (m'.state.facts = m.state.facts ∧ m'.surveyed = m.surveyed ∨
      m.state.facts = none ∧ m'.state.facts.isSome ∧ m'.surveyed = m.surveyed + 1)

/-- the innermost finder is settled -/
def Settles (m m' : Moment κ) : Prop :=
  ∃ key s, m.working = key :: m'.working ∧ s.outcome?.isSome ∧ m'.state.slots = (m.state.setSlot key s).slots ∧
    m'.begun = m.begun ∧ m'.state.facts = m.state.facts ∧ m'.surveyed = m.surveyed

theorem settles_of_ending (m : Moment κ) {key : κ} {plan : Plan κ Finding} {rest : List (Job κ)}
    (hm : m.stack = ⟨key, plan⟩ :: rest) (e : Ending κ Finding) :
    Settles m { m with stack := rest, state := (S.settle key (e, m.state)).2 } := by
  have hw : m.working = key :: rest.map Job.key := by
    rw [Moment.working, hm]
    rfl
  cases e with
  | ok v => exact ⟨key, .resolved v, hw, rfl, rfl, rfl, rfl, rfl⟩
  | fail f source => exact ⟨key, .failed ⟨S.name key, f⟩ source, hw, rfl, rfl, rfl, rfl, rfl⟩

omit [DecidableEq κ] in
theorem quiet_takeFacts (m : Moment κ) (stack : ClientFacts → List (Job κ))
    (h : ∀ f, (stack f).map Job.key = m.working) : Quiet m (S.takeFacts m stack) := by
  refine ⟨h _, S.slots_facts m.state, rfl, ?_⟩
  rw [takeFacts]
  cases hf : m.state.facts with
  | none =>
    refine .inr ⟨rfl, ?_, if_pos (S.texts_lt_facts hf)⟩
    rw [facts_snd_facts]
    rfl
  | some f =>
    rw [S.facts_of_some hf]
    exact .inl ⟨hf, if_neg (Nat.lt_irrefl _)⟩

omit [DecidableEq κ] in
theorem quiet_of_stack {m : Moment κ} {stack : List (Job κ)} {state : State κ} (hw : stack.map Job.key = m.working)
    (hs : state.slots = m.state.slots) (hf : state.facts = m.state.facts) :
    Quiet m { m with stack, state } :=
  ⟨hw, hs, rfl, .inl ⟨hf, rfl⟩⟩

theorem starts_of_waits {m m' : Moment κ} {key k : κ} {plan : Plan κ Finding} {rest : List (Job κ)} (hw : Waits k plan)
    (hm : m.stack = ⟨key, plan⟩ :: rest) (hk : S.replay k (m.state.slots k) = none) (h : S.advance m = some m') :
    ∃ key, (m.state.slots key).isUnresolved = true ∧ m' = S.enter m key := by
  rw [S.advance_of_waits hw hm hk] at h
  exact ⟨k, S.replay_eq_none_iff.1 hk, (Option.some_inj.1 h).symm⟩

/-- **What one move can do.** It starts an unresolved finder, or settles the innermost one, or does neither. -/
theorem move_cases {m m' : Moment κ} {mv : Move κ} (h : S.move m mv = some m') :
    Quiet m m' ∨ (∃ key, (m.state.slots key).isUnresolved = true ∧ m' = S.enter m key) ∨ Settles m m' := by
  obtain ⟨stack, st, begun, surveyed⟩ := m
  cases mv with
  | act a =>
    obtain ⟨-, h⟩ := Option.ite_none_right_eq_some.1 h
    obtain rfl := Option.some_inj.1 h
    cases a with
    | load key =>
      rw [perform]
      split
      · rename_i hk
        exact .inr (.inl ⟨key, hk, rfl⟩)
      · exact .inl (quiet_of_stack rfl rfl rfl)
    | facts => exact .inl (S.quiet_takeFacts _ _ fun _ => rfl)
    | tree => exact .inl (quiet_of_stack rfl rfl rfl)
    | store r => exact .inl (quiet_of_stack rfl rfl rfl)
  | work =>
    rw [move] at h
    cases stack with
    | nil => contradiction
    | cons job rest =>
      obtain ⟨key, plan⟩ := job
      cases plan with
      | done v => cases h; exact .inr (.inr (S.settles_of_ending _ rfl (.ok v)))
      | fail f => cases h; exact .inr (.inr (S.settles_of_ending _ rfl (.fail f none)))
      | findText needle q next => cases h; exact .inl (quiet_of_stack rfl rfl rfl)
      | findSignature sig a b next => cases h; exact .inl (quiet_of_stack rfl rfl rfl)
      | facts next => cases h; exact .inl (S.quiet_takeFacts _ _ fun _ => rfl)
      | tree next => cases h; exact .inl (quiet_of_stack rfl rfl rfl)
      | status k next => cases h; exact .inl (quiet_of_stack rfl rfl rfl)
      | attempt k next =>
        cases hk : S.replay k (st.slots k) with
        | none => exact .inr (.inl (S.starts_of_waits (show Waits k (.attempt k next) from rfl) rfl hk h))
        | some r =>
          simp only [advance, hk] at h
          cases h
          exact .inl (quiet_of_stack rfl rfl rfl)
      | depend k next =>
        cases hk : S.replay k (st.slots k) with
        | none => exact .inr (.inl (S.starts_of_waits (show Waits k (.depend k next) from rfl) rfl hk h))
        | some r =>
          simp only [advance, hk] at h
          cases r with
          | ok v => cases h; exact .inl (quiet_of_stack rfl rfl rfl)
          | error e => cases h; exact .inr (.inr (S.settles_of_ending _ rfl (.fail e.asDependency (sourceOf k st))))

/-! ## The invariant -/

/-- the slots, the stack and the record agree -/
structure Consistent (m : Moment κ) : Prop where
  /-- the finders being resolved are those at work -/
  resolving_iff : ∀ k, m.state.slots k = .resolving ↔ k ∈ m.working
  distinct : m.working.Nodup
  /-- the finders that are not unresolved are those that were started -/
  begun_iff : ∀ k, k ∈ m.begun ↔ (m.state.slots k).isUnresolved = false
  once : m.begun.Nodup
  surveyed_eq : m.surveyed = if m.state.facts.isSome then 1 else 0

omit [DecidableEq κ] in
theorem consistent_start : Consistent (.start : Moment κ) where
  resolving_iff k := by simp [Moment.start, State.start, Moment.working]
  distinct := List.nodup_nil
  begun_iff k := by simp [Moment.start, State.start, Slot.isUnresolved]
  once := List.nodup_nil
  surveyed_eq := rfl

omit [DecidableEq κ] in
theorem Quiet.consistent {m m' : Moment κ} (h : Quiet m m') (hm : Consistent m) : Consistent m' := by
  obtain ⟨hwork, hslots, hbegun, hfacts⟩ := h
  refine ⟨?_, ?_, ?_, ?_, ?_⟩
  · rw [hwork, hslots]; exact hm.resolving_iff
  · rw [hwork]; exact hm.distinct
  · rw [hbegun, hslots]; exact hm.begun_iff
  · rw [hbegun]; exact hm.once
  · rcases hfacts with ⟨hf, hn⟩ | ⟨hf, hf', hn⟩
    · rw [hf, hn]; exact hm.surveyed_eq
    · rw [hn, hm.surveyed_eq, hf, if_pos hf']
      rfl

theorem consistent_enter {m : Moment κ} {key : κ} (hk : (m.state.slots key).isUnresolved = true) (hm : Consistent m) :
    Consistent (S.enter m key) := by
  have hwork : key ∉ m.working := by
    intro hmem
    rw [(hm.resolving_iff key).2 hmem] at hk
    contradiction
  have hbegun : key ∉ m.begun := by
    intro hmem
    rw [(hm.begun_iff key).1 hmem] at hk
    contradiction
  refine ⟨?_, List.nodup_cons.2 ⟨hwork, hm.distinct⟩, ?_, List.nodup_append.2 ⟨hm.once, List.pairwise_singleton _ _, ?_⟩,
    hm.surveyed_eq⟩
  · intro k
    by_cases hkey : k = key
    · subst hkey
      simp [enter, Moment.working, State.setSlot_self]
    · rw [enter, State.setSlot_of_ne _ hkey, hm.resolving_iff]
      simp [Moment.working, hkey]
  · intro k
    by_cases hkey : k = key
    · subst hkey
      simp [enter, State.setSlot_self, Slot.isUnresolved]
    · rw [enter, State.setSlot_of_ne _ hkey, ← hm.begun_iff]
      simp [hkey]
  · intro a ha b hb hab
    exact hbegun (List.mem_singleton.1 hb ▸ hab ▸ ha)

theorem Settles.consistent {m m' : Moment κ} (h : Settles m m') (hm : Consistent m) : Consistent m' := by
  obtain ⟨key, s, hwork, hs, hslots, hbegun, hfacts, hsurveyed⟩ := h
  have hdistinct := hm.distinct
  rw [hwork, List.nodup_cons] at hdistinct
  have hkey : m.state.slots key = .resolving := by
    rw [hm.resolving_iff, hwork]
    exact List.mem_cons_self
  refine ⟨?_, hdistinct.2, ?_, ?_, ?_⟩
  · intro k
    rw [hslots]
    by_cases hk : k = key
    · subst hk
      rw [State.setSlot_self]
      exact iff_of_false (Slot.ne_resolving_of_outcome hs) hdistinct.1
    · rw [State.setSlot_of_ne _ hk, hm.resolving_iff, hwork]
      simp [hk]
  · intro k
    rw [hbegun, hm.begun_iff, hslots]
    by_cases hk : k = key
    · subst hk
      rw [State.setSlot_self, hkey, Slot.isUnresolved_eq_false_of_outcome hs]
      simp [Slot.isUnresolved]
    · rw [State.setSlot_of_ne _ hk]
  · rw [hbegun]
    exact hm.once
  · rw [hsurveyed, hfacts]
    exact hm.surveyed_eq

theorem move_consistent {m m' : Moment κ} {mv : Move κ} (h : S.move m mv = some m') (hm : Consistent m) :
    Consistent m' := by
  rcases S.move_cases h with hq | ⟨key, hk, rfl⟩ | hs
  · exact hq.consistent hm
  · exact S.consistent_enter hk hm
  · exact hs.consistent hm

/-- **Induction along a course.** What every move keeps, if the moment is consistent, every course keeps. -/
theorem follow_induction {P : Moment κ → Prop}
    (step : ∀ m mv m', Consistent m → S.move m mv = some m' → P m → P m') {m m' : Moment κ} {moves : List (Move κ)}
    (h : S.follow m moves = some m') (hm : Consistent m) (hp : P m) : P m' := by
  induction moves generalizing m with
  | nil =>
    obtain rfl := Option.some_inj.1 h
    exact hp
  | cons mv moves ih =>
    obtain ⟨m₁, hmv, hrest⟩ := S.follow_cons_eq_some_iff.1 h
    exact ih hrest (S.move_consistent hmv hm) (step m mv m₁ hm hmv hp)

theorem consistent_of_follow {m m' : Moment κ} {moves : List (Move κ)} (hm : Consistent m)
    (h : S.follow m moves = some m') : Consistent m' :=
  S.follow_induction (fun _ _ _ hm hmv _ => S.move_consistent hmv hm) h hm hm

theorem follow_consistent {m : Moment κ} {moves : List (Move κ)} (h : S.follow .start moves = some m) :
    Consistent m :=
  S.consistent_of_follow consistent_start h

/-! ## Slots go one way -/

/-- a move leaves a slot as it is or takes it one step further -/
theorem slot_step_of_move {m m' : Moment κ} {mv : Move κ} (hm : Consistent m) (h : S.move m mv = some m') (k : κ) :
    m'.state.slots k = m.state.slots k ∨ (m.state.slots k).Step (m'.state.slots k) := by
  rcases S.move_cases h with ⟨-, hslots, -⟩ | ⟨key, hkey, rfl⟩ | ⟨key, s, hwork, hs, hslots, -⟩
  · exact .inl (congrFun hslots k)
  · by_cases hk : k = key
    · subst hk
      rw [enter, State.setSlot_self]
      generalize m.state.slots k = old at hkey
      cases old with
      | unresolved => exact .inr .begins
      | _ => contradiction
    · exact .inl (State.setSlot_of_ne _ hk _)
  · rw [hslots]
    by_cases hk : k = key
    · subst hk
      have hold : m.state.slots k = .resolving := (hm.resolving_iff k).2 (hwork ▸ List.mem_cons_self)
      rw [State.setSlot_self, hold]
      exact .inr (Slot.step_of_outcome hs)
    · exact .inl (State.setSlot_of_ne _ hk _)

/-- a settled slot stays as it is -/
theorem slot_eq_of_follow {m m' : Moment κ} {moves : List (Move κ)} (hm : Consistent m)
    (h : S.follow m moves = some m') {k : κ} (hk : (m.state.slots k).outcome?.isSome) :
    m'.state.slots k = m.state.slots k := by
  refine S.follow_induction (P := fun m' => m'.state.slots k = m.state.slots k) ?_ h hm rfl
  intro m₁ mv m₂ hm₁ hmv heq
  rcases S.slot_step_of_move hm₁ hmv k with hsame | hstep
  · exact hsame.trans heq
  · rw [← heq, hstep.outcome?_left] at hk
    contradiction

/-- the facts stay as they were computed -/
theorem facts_eq_of_follow {m m' : Moment κ} {moves : List (Move κ)} (hm : Consistent m)
    (h : S.follow m moves = some m') {f : ClientFacts} (hf : m.state.facts = some f) : m'.state.facts = some f := by
  refine S.follow_induction (P := fun m' => m'.state.facts = some f) ?_ h hm hf
  intro m₁ mv m₂ hm₁ hmv heq
  rcases S.move_cases hmv with ⟨-, -, -, ⟨hsame, -⟩ | ⟨hnone, -⟩⟩ | ⟨key, -, rfl⟩ | ⟨-, -, -, -, -, -, hsame, -⟩
  · exact hsame.trans heq
  · rw [hnone] at heq
    contradiction
  · exact heq
  · exact hsame.trans heq

/-! ## Answers of settled finders -/

/-- report on what came of a finder -/
def report (key : κ) : Except Failure Finding → Report
  | .ok v => .resolved (S.name key) v.fields
  | .error e => .failed (S.name key) e

omit [DecidableEq κ] in
theorem replay_of_outcome {key : κ} {s : Slot κ} {r : Except Failure Finding} (h : s.outcome? = some r) :
    S.replay key s = some r := by
  cases s with
  | unresolved => contradiction
  | resolving => contradiction
  | resolved v => exact h
  | failed e source => exact h

theorem describe_eq (key : κ) (st : State κ) :
    S.describe key st = (S.report key (S.load key st).1, (S.load key st).2) := by
  rw [describe]
  rcases S.load key st with ⟨_ | _, _⟩ <;> rfl

/-- A settled finder answers with what came of it, to plans and from outside, and the state stays as it is. -/
theorem answers_of_outcome {key : κ} {st : State κ} {r : Except Failure Finding}
    (h : (st.slots key).outcome? = some r) :
    (∀ n, S.loadWithin n key st = some (r, st)) ∧ S.load key st = (r, st) ∧
      S.depend key st = (r.mapError Failure.asDependency, st) ∧ S.describe key st = (S.report key r, st) := by
  have hreplay : S.replay key (st.slots key) = some r := S.replay_of_outcome h
  have hload := S.load_of_replay hreplay
  refine ⟨S.loadWithin_of_replay hreplay, hload, ?_, ?_⟩
  · rw [depend, hload]
  · rw [describe_eq, hload]

/-- **A survey remembers.** Whatever is asked of it, its course is one list of moves from the start. Along every such list
each finder is started at most once and asking for the facts takes searches at most once; slots go from unresolved by way of
resolving to a value or a failure, and stay there; between requests nobody is being resolved. Loading, needing or describing
a finder that has a value or a failure gives just that, and changes nothing: not a slot, nor the record of searches. So does
asking for facts that are there, and once they were asked for they are. -/
theorem memoizes :
    (∀ requests, ∃ moves m, S.follow .start moves = some m ∧
      moves.filterMap Move.act? = requests.flatMap Request.acts ∧ m.stack = [] ∧ m.state = S.afterAll .start requests ∧
      ∀ moves' m', S.follow .start moves' = some m' → moves'.filterMap Move.act? = requests.flatMap Request.acts →
        m'.stack = [] → moves' = moves ∧ m' = m) ∧
    (∀ moves m, S.follow .start moves = some m →
      m.begun.Nodup ∧ (∀ k, k ∈ m.begun ↔ (m.state.slots k).isUnresolved = false) ∧ m.surveyed ≤ 1 ∧
      (m.stack = [] → ∀ k, m.state.slots k ≠ .resolving) ∧
      (∀ mv m', S.move m mv = some m' → ∀ k,
        m'.state.slots k = m.state.slots k ∨ (m.state.slots k).Step (m'.state.slots k)) ∧
      ∀ more m', S.follow m more = some m' →
        (∀ k, (m.state.slots k).outcome?.isSome → m'.state.slots k = m.state.slots k) ∧
        ∀ f, m.state.facts = some f → m'.state.facts = some f) ∧
    (∀ key st r, (st.slots key).outcome? = some r →
      (∀ n, S.loadWithin n key st = some (r, st)) ∧ S.load key st = (r, st) ∧
        S.depend key st = (r.mapError Failure.asDependency, st) ∧ S.describe key st = (S.report key r, st)) ∧
    (∀ st : State κ, (S.facts st).2.facts = some (S.facts st).1) ∧
    ∀ (st : State κ) f, st.facts = some f →
      S.facts st = (f, st) ∧ S.describeFacts st = (.resolved "FACTS" f.fields, st) := by
  refine ⟨S.exists_follow_requests, ?_, fun _ _ _ h => S.answers_of_outcome h, S.facts_snd_facts,
    fun _ _ hf => ⟨S.facts_of_some hf, S.describeFacts_of_some hf⟩⟩
  intro moves m h
  have hm := S.follow_consistent h
  refine ⟨hm.once, hm.begun_iff, ?_, ?_, fun mv m' hmv => S.slot_step_of_move hm hmv, ?_⟩
  · rw [hm.surveyed_eq]
    split <;> simp
  · intro hstack k hk
    have hmem := (hm.resolving_iff k).1 hk
    rw [Moment.working, hstack] at hmem
    contradiction
  · intro more m' hmore
    exact ⟨fun k hk => S.slot_eq_of_follow hm hmore hk, fun f hf => S.facts_eq_of_follow hm hmore hf⟩

/-- two finders that need each other -/
def mutualSurvey : Survey Bool where
  image := { bytes := #[], sections := [], imports := [], metadata := .unknown, sound := rfl }
  thresholds := .standard
  name k := if k then "A" else "B"
  plan k := .depend (!k) .done
  keys := [false, true]
  mem_keys := by decide

/-- what comes of A: it needs B, which needs A, which is at work -/
def mutualFailure : Failure := ⟨"A", .dependency "B" (.dependency "A" (.cyclic "A"))⟩

/-- A is loaded twice and the facts are asked for twice, and the second time nothing is done, in neither case. -/
theorem mutualSurvey_remembers :
    mutualSurvey.load true .start = (.error mutualFailure, (mutualSurvey.load true .start).2) ∧
    mutualSurvey.load true (mutualSurvey.load true .start).2 =
      (.error mutualFailure, (mutualSurvey.load true .start).2) ∧
    mutualSurvey.facts (mutualSurvey.facts .start).2 = mutualSurvey.facts .start ∧
    (mutualSurvey.facts .start).2.log.texts = 7 ∧
    ∃ m, mutualSurvey.follow .start [.act .facts, .act .facts] = some m ∧ m.surveyed = 1 := by
  obtain ⟨-, hcourse, hslots, hgiven, hfacts⟩ := mutualSurvey.memoizes
  have hslot : ((mutualSurvey.load true .start).2.slots true).outcome? = some (.error mutualFailure) := by rfl
  refine ⟨rfl, (hslots true _ _ hslot).2.1, (hfacts _ _ (hgiven .start)).1, by decide +kernel, ?_⟩
  obtain ⟨m, hm, hpos⟩ : ∃ m, mutualSurvey.follow .start [.act .facts, .act .facts] = some m ∧ 1 ≤ m.surveyed :=
    ⟨_, rfl, by decide +kernel⟩
  exact ⟨m, hm, Nat.le_antisymm (hcourse _ m hm).2.2.1 hpos⟩

end Survey

end Landmark
