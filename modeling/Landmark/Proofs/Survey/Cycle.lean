/-
A cycle is told exactly when there is one.

A survey finds a cycle when it answers that the finder asked for is at work already and keeps no such answer for it
(`FindsCycle`); an answer it keeps is the finder's own, whatever that says.
- `findsCycle_iff`: this happens exactly for the finders at work, and takes nothing.
- `Propagates`: the plan ends with a fault once another finder has failed it; `works_fail`: such plans fail one after the
  other, from the innermost one outwards.
- `ClaimsNoCycle`: the plan never says of its own accord that there is a cycle; `kind_load_iff`: among such plans the
  answers that tell of a cycle are those given to finders that ask for one at work.
- `cycle_detection_exact`: all of it together.
-/
import Landmark.Proofs.Survey.Waiting

namespace Landmark

namespace Moment

variable {κ : Type}

/-- the innermost plan waits for the finder -/
def WaitsFor (m : Moment κ) (k : κ) : Prop :=
  ∃ key plan rest, m.stack = ⟨key, plan⟩ :: rest ∧ Survey.Waits k plan

/-- the finder may be loaded next, by the innermost plan, or from outside while nobody is at work -/
def MayLoad (m : Moment κ) (k : κ) : Prop :=
  m.stack = [] ∨ m.WaitsFor k

end Moment

namespace Survey

variable {κ : Type}

/-! ## Plans -/

/-- the plan ends with a fault, whatever it is answered -/
def Fails : Plan κ Finding → Prop
  | .done _ => False
  | .fail _ => True
  | .findText _ _ next => ∀ r, Fails (next r)
  | .findSignature _ _ _ next => ∀ r, Fails (next r)
  | .facts next => ∀ f, Fails (next f)
  | .tree next => ∀ r, Fails (next r)
  | .status _ next => ∀ s, Fails (next s)
  | .attempt _ next => ∀ r, Fails (next r)
  | .depend _ next => ∀ v, Fails (next v)

/-- the plan ends with a fault once a finder it asked for has failed -/
def Propagates : Plan κ Finding → Prop
  | .done _ => True
  | .fail _ => True
  | .findText _ _ next => ∀ r, Propagates (next r)
  | .findSignature _ _ _ next => ∀ r, Propagates (next r)
  | .facts next => ∀ f, Propagates (next f)
  | .tree next => ∀ r, Propagates (next r)
  | .status _ next => ∀ s, Propagates (next s)
  | .attempt _ next => (∀ e, Fails (next (.error e))) ∧ ∀ v, Propagates (next (.ok v))
  | .depend _ next => ∀ v, Propagates (next v)

/-- the plan does not say of its own accord that there is a cycle -/
def ClaimsNoCycle : Plan κ Finding → Prop
  | .done _ => True
  | .fail f => f.kind ≠ .cyclicDependency
  | .findText _ _ next => ∀ r, ClaimsNoCycle (next r)
  | .findSignature _ _ _ next => ∀ r, ClaimsNoCycle (next r)
  | .facts next => ∀ f, ClaimsNoCycle (next f)
  | .tree next => ∀ r, ClaimsNoCycle (next r)
  | .status _ next => ∀ s, ClaimsNoCycle (next s)
  | .attempt _ next => ∀ r, ClaimsNoCycle (next r)
  | .depend _ next => ∀ v, ClaimsNoCycle (next v)

theorem Fails.propagates {plan : Plan κ Finding} (h : Fails plan) : Propagates plan := by
  induction plan with
  | done v => trivial
  | fail f => trivial
  | findText needle q next ih => exact fun r => ih r (h r)
  | findSignature sig a b next ih => exact fun r => ih r (h r)
  | facts next ih => exact fun f => ih f (h f)
  | tree next ih => exact fun r => ih r (h r)
  | status k next ih => exact fun s => ih s (h s)
  | attempt k next ih => exact ⟨fun e => h (.error e), fun v => ih (.ok v) (h (.ok v))⟩
  | depend k next ih => exact fun v => ih v (h v)

variable {S : Survey κ}

theorem Propagates.proceeds {st : State κ} {plan plan' : Plan κ Finding} (h : Propagates plan)
    (hproceeds : S.Proceeds st plan plan') : Propagates plan' := by
  cases hproceeds with
  | findText needle q next => exact h _
  | findSignature sig a b next => exact h _
  | facts next => exact h _
  | tree next => exact h _
  | status k next => exact h _
  | @attempt k next r hr =>
    cases r with
    | ok v => exact h.2 v
    | error e => exact (h.1 e).propagates
  | depend k next hv => exact h _

/-- a plan that fails in any case ends with a fault -/
theorem Fails.exec {load : Loader κ} {plan : Plan κ Finding} (h : Fails plan) {st st' : State κ} {e : Ending κ Finding}
    (hexec : S.exec load plan st = some (e, st')) : ∃ f source, e = .fail f source := by
  induction plan generalizing st with
  | done v => exact h.elim
  | fail f => cases hexec; exact ⟨f, none, rfl⟩
  | findText needle q next ih => exact ih _ (h _) hexec
  | findSignature sig a b next ih => exact ih _ (h _) hexec
  | facts next ih => exact ih _ (h _) hexec
  | tree next ih => exact ih _ (h _) hexec
  | status k next ih => exact ih _ (h _) hexec
  | attempt k next ih =>
    rw [Survey.exec] at hexec
    cases hload : load k st with
    | none => rw [hload] at hexec; contradiction
    | some a =>
      rw [hload] at hexec
      exact ih _ (h _) hexec
  | depend k next ih =>
    rw [Survey.exec] at hexec
    cases hload : load k st with
    | none => rw [hload] at hexec; contradiction
    | some a =>
      obtain ⟨r, st₁⟩ := a
      rw [hload] at hexec
      cases r with
      | ok v => exact ih _ (h _) hexec
      | error f => cases hexec; exact ⟨_, _, rfl⟩

/-- what a plan says of its own accord is not that there is a cycle, nor is what it takes over -/
theorem ClaimsNoCycle.exec {load : Loader κ} {plan : Plan κ Finding} (h : ClaimsNoCycle plan) {st st' : State κ}
    {f : Fault} {source : Option κ} (hexec : S.exec load plan st = some (.fail f source, st')) :
    f.kind ≠ .cyclicDependency := by
  induction plan generalizing st with
  | done v => cases hexec
  | fail f => cases hexec; exact h
  | findText needle q next ih => exact ih _ (h _) hexec
  | findSignature sig a b next ih => exact ih _ (h _) hexec
  | facts next ih => exact ih _ (h _) hexec
  | tree next ih => exact ih _ (h _) hexec
  | status k next ih => exact ih _ (h _) hexec
  | attempt k next ih =>
    rw [Survey.exec] at hexec
    cases hload : load k st with
    | none => rw [hload] at hexec; contradiction
    | some a =>
      rw [hload] at hexec
      exact ih _ (h _) hexec
  | depend k next ih =>
    rw [Survey.exec] at hexec
    cases hload : load k st with
    | none => rw [hload] at hexec; contradiction
    | some a =>
      obtain ⟨r, st₁⟩ := a
      rw [hload] at hexec
      cases r with
      | ok v => exact ih _ (h _) hexec
      | error e =>
        cases hexec
        intro hkind
        cases hkind

theorem ClaimsNoCycle.proceeds {st : State κ} {plan plan' : Plan κ Finding} (h : ClaimsNoCycle plan)
    (hproceeds : S.Proceeds st plan plan') : ClaimsNoCycle plan' := by
  cases hproceeds <;> exact h _

theorem ClaimsNoCycle.concludes {st : State κ} {plan : Plan κ Finding} {f : Fault} {source : Option κ}
    (h : ClaimsNoCycle plan) (hplan : S.Concludes st plan (.fail f source)) : f.kind ≠ .cyclicDependency := by
  cases hplan with
  | fail f => exact h
  | depend k next he => nofun

/-! ## Finding a cycle -/

variable [DecidableEq κ] (S)

/-- the finder is at work already -/
def cycleFailure (k : κ) : Failure := ⟨S.name k, .cyclic (S.name k)⟩

/-- the answer for a finder at work -/
def cycleAnswer (k : κ) : Except Failure Finding := .error (S.cycleFailure k)

/-- asked for the finder, the survey answers that it is at work already, and keeps no answer for it -/
def FindsCycle (st : State κ) (k : κ) : Prop :=
  (S.load k st).1 = S.cycleAnswer k ∧ ((S.load k st).2.slots k).outcome? = none

variable {S}

omit [DecidableEq κ] in
theorem replay_of_resolving {st : State κ} {k : κ} (h : st.slots k = .resolving) :
    S.replay k (st.slots k) = some (S.cycleAnswer k) := by
  rw [h]
  rfl

/-- a load that runs the plan keeps what came of it -/
theorem isSome_outcome?_load {st : State κ} {k : κ} (h : st.slots k ≠ .resolving) :
    ((S.load k st).2.slots k).outcome?.isSome := by
  by_cases hk : (st.slots k).isUnresolved = true
  · obtain ⟨_, r, -, hload⟩ := S.load_succ hk
    rw [hload, outcome?_settle]
    rfl
  · obtain ⟨r, hr⟩ := Option.ne_none_iff_exists'.1 (mt S.replay_eq_none_iff.1 hk)
    rw [S.load_of_replay hr]
    cases hs : st.slots k with
    | unresolved => rw [hs] at hk; exact absurd rfl hk
    | resolving => exact absurd hs h
    | resolved v => rfl
    | failed e source => rfl

theorem findsCycle_iff_resolving {st : State κ} {k : κ} : S.FindsCycle st k ↔ st.slots k = .resolving := by
  constructor
  · rintro ⟨-, hnone⟩
    by_contra hne
    have hsome := isSome_outcome?_load (S := S) hne
    rw [hnone] at hsome
    contradiction
  · intro h
    rw [FindsCycle, S.load_of_replay (replay_of_resolving h)]
    exact ⟨rfl, congrArg Slot.outcome? h⟩

/-- **A cycle is found exactly for the finders at work.** -/
theorem findsCycle_iff {m : Moment κ} (hm : Consistent m) {k : κ} : S.FindsCycle m.state k ↔ k ∈ m.working := by
  rw [findsCycle_iff_resolving, hm.resolving_iff]

omit [DecidableEq κ] in
/-- in an acyclic survey nobody comes to ask for a finder at work -/
theorem not_mem_working_of_mayLoad (hacyclic : S.Acyclic) {m : Moment κ} (hm : Consistent m) (hn : S.Nested m) {k : κ}
    (h : m.MayLoad k) : k ∉ m.working := by
  rcases h with hstack | ⟨key, plan, rest, hstack, hplan⟩
  · rw [Moment.working, hstack]
    exact List.not_mem_nil
  · rw [← hm.resolving_iff]
    exact ne_resolving_of_waits hacyclic hm hn hstack hplan

/-! ## Failures on a cycle -/

omit [DecidableEq κ] in
theorem isSome_outcome?_of_status_failed {st : State κ} {k : κ} (h : st.status k = .failed) :
    (st.slots k).outcome?.isSome := by
  rw [State.status] at h
  cases hs : st.slots k with
  | failed e source => rfl
  | _ => rw [hs] at h; contradiction

theorem status_failed_of_follow {m m' : Moment κ} {moves : List (Move κ)} (hm : Consistent m)
    (h : S.follow m moves = some m') {k : κ} (hk : m.state.status k = .failed) : m'.state.status k = .failed := by
  rw [State.status, S.slot_eq_of_follow hm h (isSome_outcome?_of_status_failed hk)]
  exact hk

/-- a plan that is failed by a finder it waits for ends with a fault -/
theorem Propagates.exec {n : Nat} {plan : Plan κ Finding} (h : Propagates plan) {st st' : State κ}
    {e : Ending κ Finding} (hexec : S.exec (S.loadWithin n) plan st = some (e, st')) {k : κ} (hk : Waits k plan)
    {f : Failure} (hf : S.replay k (st.slots k) = some (.error f)) : ∃ f source, e = .fail f source := by
  cases plan with
  | attempt k' next =>
    obtain rfl : k' = k := hk
    rw [Survey.exec, S.loadWithin_of_replay hf] at hexec
    exact (h.1 f).exec hexec
  | depend k' next =>
    obtain rfl : k' = k := hk
    rw [Survey.exec, S.loadWithin_of_replay hf] at hexec
    cases hexec
    exact ⟨_, _, rfl⟩
  | _ => exact hk.elim

/-- **Failures go from the innermost finder outwards.** Induction on the finders that are to fail. -/
theorem works_fail {jobs below : List (Job κ)} {m : Moment κ} (hm : Consistent m) (hchain : Chained m.stack)
    (hstack : m.stack = jobs ++ below) (hprop : ∀ j ∈ jobs, Propagates j.plan)
    (hfirst : ∀ j ∈ jobs.head?, ∃ k f, Waits k j.plan ∧ S.replay k (m.state.slots k) = some (.error f)) :
    ∃ m', S.Works m m' ∧ ∀ j ∈ jobs, m'.state.status j.key = .failed := by
  induction jobs generalizing m with
  | nil => exact ⟨m, .refl m, fun j hj => absurd hj List.not_mem_nil⟩
  | cons job jobs ih =>
    obtain ⟨k, f, hwaits, hf⟩ := hfirst job rfl
    obtain ⟨key, plan⟩ := job
    obtain ⟨n, e, st, m₁, hexec, hworks, hm₁, hstate⟩ := S.works_settle hstack
    obtain ⟨fault, source, rfl⟩ := (hprop ⟨key, plan⟩ List.mem_cons_self).exec hexec hwaits hf
    have hslot : m₁.state.slots key = .failed ⟨S.name key, fault⟩ source := by
      rw [hstate]
      exact State.setSlot_self ..
    obtain ⟨steps, hfollow⟩ := hworks
    have hc₁ : Consistent m₁ := S.consistent_of_follow hm hfollow
    have hchain₁ : Chained m₁.stack := by
      rw [hstack] at hchain
      rw [hm₁]
      exact hchain.tail
    -- the next finder outwards waits for the one that has just failed
    have hnext : ∀ j ∈ jobs.head?, ∃ k f, Waits k j.plan ∧ S.replay k (m₁.state.slots k) = some (.error f) := by
      intro j hj
      cases jobs with
      | nil => exact absurd hj (Option.not_mem_none j)
      | cons j' jobs =>
        obtain rfl := Option.some_inj.1 hj
        rw [hstack] at hchain
        exact ⟨key, _, (List.isChain_cons_cons.1 hchain).1, by rw [hslot]; rfl⟩
    obtain ⟨m', hworks', hfailed⟩ := ih hc₁ hchain₁ hm₁ (fun j hj => hprop j (List.mem_cons_of_mem _ hj)) hnext
    refine ⟨m', .trans ⟨steps, hfollow⟩ hworks', ?_⟩
    intro j hj
    rcases List.mem_cons.1 hj with rfl | hj
    · obtain ⟨_, hfollow'⟩ := hworks'
      refine status_failed_of_follow hc₁ hfollow' ?_
      rw [State.status, hslot]
      rfl
    · exact hfailed j hj

/-- **Everybody on a cycle fails** if failures are not swallowed there. -/
theorem status_failed_of_cycle {m : Moment κ} (hm : Consistent m) (hchain : Chained m.stack)
    (hleft : ∀ j ∈ m.stack, S.Remainder (S.plan j.key) j.plan) {above below : List κ} {k : κ}
    (hworking : m.working = above ++ k :: below) (hk : m.WaitsFor k)
    (hprop : ∀ x ∈ above ++ [k], Propagates (S.plan x)) {moves : List (Move κ)} {m' : Moment κ}
    (h : S.follow m moves = some m') (hm' : m'.stack = []) : ∀ x ∈ above ++ [k], m'.state.status x = .failed := by
  rw [List.append_cons] at hworking
  obtain ⟨jobs, rest, hstack, hjobs, -⟩ := List.map_eq_append_iff.1 hworking
  have hsub : ∀ j ∈ jobs, j ∈ m.stack := fun j hj => hstack ▸ List.mem_append_left rest hj
  have hplans : ∀ j ∈ jobs, Propagates j.plan := fun j hj =>
    (hleft j (hsub j hj)).of_proceeds Propagates.proceeds (hprop j.key (hjobs ▸ List.mem_map_of_mem hj))
  have hfirst : ∀ j ∈ jobs.head?, ∃ k f, Waits k j.plan ∧ S.replay k (m.state.slots k) = some (.error f) := by
    obtain ⟨key, plan, rest', hstack', hwaits⟩ := hk
    intro j hj
    have hresolving : m.state.slots k = .resolving :=
      (hm.resolving_iff k).2 (hworking ▸ List.mem_append_left _ (List.mem_append_right _ List.mem_cons_self))
    have hj' : j = ⟨key, plan⟩ := by
      obtain ⟨tail, rfl⟩ := List.head?_eq_some_iff.1 hj
      exact (List.cons.inj (hstack.symm.trans hstack')).1
    subst hj'
    exact ⟨k, _, hwaits, replay_of_resolving hresolving⟩
  obtain ⟨m₁, ⟨n, hn⟩, hfailed⟩ := works_fail hm hchain hstack hplans hfirst
  obtain ⟨more, hmore⟩ := follow_of_works ⟨n, hn⟩ h hm'
  have hm₁ : Consistent m₁ := S.consistent_of_follow hm hn
  intro x hx
  rw [← hjobs] at hx
  obtain ⟨j, hj, rfl⟩ := List.mem_map.1 hx
  exact status_failed_of_follow hm₁ hmore (hfailed j hj)

/-! ## Answers that tell of a cycle -/

/-- no finder keeps that there is a cycle as its own fault -/
def KeepsNoCycle (st : State κ) : Prop :=
  ∀ k e source, st.slots k = .failed e source → e.kind ≠ .cyclicDependency

theorem move_keepsNoCycle (hclaims : ∀ k, ClaimsNoCycle (S.plan k)) {m m' : Moment κ} {mv : Move κ}
    (h : S.move m mv = some m') (hleft : ∀ j ∈ m.stack, S.Remainder (S.plan j.key) j.plan)
    (hm : KeepsNoCycle m.state) : KeepsNoCycle m'.state := by
  intro k e source hk
  rcases failed_of_move h hk with hold | ⟨-, plan, rest, hstack, hplan⟩
  · exact hm k e source hold
  · have hplan' : ClaimsNoCycle plan :=
      (hleft ⟨k, plan⟩ (hstack ▸ List.mem_cons_self)).of_proceeds ClaimsNoCycle.proceeds (hclaims k)
    exact hplan'.concludes hplan

theorem follow_keepsNoCycle (hclaims : ∀ k, ClaimsNoCycle (S.plan k)) {m : Moment κ} {moves : List (Move κ)}
    (h : S.follow .start moves = some m) : KeepsNoCycle m.state := by
  have hboth : (∀ j ∈ m.stack, S.Remainder (S.plan j.key) j.plan) ∧ KeepsNoCycle m.state :=
    S.follow_induction
      (P := fun m => (∀ j ∈ m.stack, S.Remainder (S.plan j.key) j.plan) ∧ KeepsNoCycle m.state)
      (fun _ _ _ _ hmv hm => ⟨move_remainders hmv hm.1, move_keepsNoCycle hclaims hmv hm.1 hm.2⟩) h consistent_start
      ⟨fun _ hj => absurd hj List.not_mem_nil, nofun⟩
  exact hboth.2

/-- **Answers tell of a cycle exactly where there is one**, among plans that do not say so of their own accord. -/
theorem kind_load_iff (hclaims : ∀ k, ClaimsNoCycle (S.plan k)) {m : Moment κ} {moves : List (Move κ)}
    (h : S.follow .start moves = some m) {k : κ} {e : Failure} (he : (S.load k m.state).1 = .error e) :
    e.kind = .cyclicDependency ↔ k ∈ m.working := by
  rw [← (S.follow_consistent h).resolving_iff]
  cases hs : m.state.slots k with
  | unresolved =>
    refine iff_of_false ?_ nofun
    have hk : (m.state.slots k).isUnresolved = true := congrArg Slot.isUnresolved hs
    obtain ⟨n, ⟨ending, st⟩, hexec, hload⟩ := S.load_succ hk
    rw [hload] at he
    cases ending with
    | ok v => cases he
    | fail f source =>
      cases he
      exact (hclaims k).exec hexec
  | resolving =>
    refine iff_of_true ?_ rfl
    rw [S.load_of_replay (replay_of_resolving hs)] at he
    cases he
    rfl
  | resolved v =>
    have hanswer := (S.answers_of_outcome (congrArg Slot.outcome? hs)).2.1
    rw [hanswer] at he
    cases he
  | failed e' source =>
    refine iff_of_false ?_ nofun
    have hanswer := (S.answers_of_outcome (congrArg Slot.outcome? hs)).2.1
    rw [hanswer] at he
    cases he
    exact follow_keepsNoCycle hclaims h k e source hs

/-! ## Exactness -/

variable (S) in
/-- on the way from one moment to another the finder's own plan came to its end, and that is what is kept -/
def TakesOwnEnd (k : κ) (m : Moment κ) (moves : List (Move κ)) (m' : Moment κ) : Prop :=
  ∃ before after m₁ plan rest e, moves = before ++ .work :: after ∧ S.follow m before = some m₁ ∧
    m₁.stack = ⟨k, plan⟩ :: rest ∧ S.Remainder (S.plan k) plan ∧ S.Concludes m₁.state plan e ∧
    (m'.state.slots k).outcome? = some (S.settle k (e, m₁.state)).1

/-- a finder at work stays so until its own plan has come to its end -/
theorem resolving_or_takesOwnEnd {m m' : Moment κ} {moves more : List (Move κ)} (h : S.follow .start moves = some m)
    (hmore : S.follow m more = some m') {k : κ} (hk : k ∈ m.working) :
    k ∈ m'.working ∧ m'.state.slots k = .resolving ∨ k ∉ m'.working ∧ S.TakesOwnEnd k m more m' := by
  have hm := S.follow_consistent h
  by_cases hk' : k ∈ m'.working
  · have hm' : Consistent m' := S.consistent_of_follow hm hmore
    exact .inl ⟨hk', (hm'.resolving_iff k).2 hk'⟩
  · obtain ⟨before, after, m₁, plan, rest, e, hmoves, hbefore, hstack, hplan, hkept⟩ :=
      settled_by_own_plan hm hmore hk hk'
    have hcourse : S.follow .start (moves ++ before) = some m₁ := by
      rw [S.follow_append, h]
      exact hbefore
    have hleft := follow_remainders hcourse ⟨k, plan⟩ (hstack ▸ List.mem_cons_self)
    exact .inr ⟨hk', before, after, m₁, plan, rest, e, hmoves, hbefore, hstack, hleft, hplan, hkept⟩

variable (S) in
/-- **Cycles are told exactly.** At every moment of every course a load finds a cycle just for the finders at work. It
takes nothing: the finder stays at work until its own plan has come to its end, which it does, and keeps what came of
that. In an acyclic survey nobody ever comes to load a finder at work. If the plans between a finder at work and the one
that asks for it hand failures on, those finders all end with a failure. Among plans that do not say of their own accord
that there is a cycle, the answers that say so are those for finders at work, so in an acyclic survey there are none. -/
theorem cycle_detection_exact :
    (∀ moves m, S.follow .start moves = some m →
      (∀ k, S.FindsCycle m.state k ↔ k ∈ m.working) ∧
      (∀ k ∈ m.working, m.state.slots k = .resolving ∧
        (∀ n, S.loadWithin n k m.state = some (S.cycleAnswer k, m.state)) ∧
        S.load k m.state = (S.cycleAnswer k, m.state) ∧
        (∃ n m', S.follow m (.replicate n .work) = some m' ∧ m'.stack = []) ∧
        ∀ more m', S.follow m more = some m' →
          k ∈ m'.working ∧ m'.state.slots k = .resolving ∨ k ∉ m'.working ∧ S.TakesOwnEnd k m more m') ∧
      (S.Acyclic → ∀ k, m.MayLoad k → ¬ S.FindsCycle m.state k) ∧
      ∀ above k below, m.working = above ++ k :: below → m.WaitsFor k →
        (∀ x ∈ above ++ [k], Propagates (S.plan x)) → ∀ more m', S.follow m more = some m' → m'.stack = [] →
          ∀ x ∈ above ++ [k], m'.state.status x = .failed) ∧
    ((∀ k, ClaimsNoCycle (S.plan k)) → ∀ moves m, S.follow .start moves = some m →
      ∀ k e, (S.load k m.state).1 = .error e →
        (e.kind = .cyclicDependency ↔ k ∈ m.working) ∧ (S.Acyclic → m.MayLoad k → e.kind ≠ .cyclicDependency)) := by
  constructor
  · intro moves m h
    have hm := S.follow_consistent h
    refine ⟨fun k => findsCycle_iff hm, ?_, ?_, ?_⟩
    · intro k hk
      have hslot : m.state.slots k = .resolving := (hm.resolving_iff k).2 hk
      have hreplay := replay_of_resolving (S := S) hslot
      refine ⟨hslot, S.loadWithin_of_replay hreplay, S.load_of_replay hreplay, ?_, ?_⟩
      · obtain ⟨m', ⟨n, hn⟩, hm'⟩ := S.works_off (List.append_nil m.stack).symm
        exact ⟨n, m', hn, hm'⟩
      · exact fun more m' hmore => resolving_or_takesOwnEnd h hmore hk
    · intro hacyclic k hk hfinds
      exact not_mem_working_of_mayLoad hacyclic hm (follow_nested h) hk ((findsCycle_iff hm).1 hfinds)
    · intro above k below hworking hk hprop more m' hmore hm'
      exact status_failed_of_cycle hm (follow_chained h) (follow_remainders h) hworking hk hprop hmore hm'
  · intro hclaims moves m h k e he
    have hkind := kind_load_iff hclaims h he
    refine ⟨hkind, fun hacyclic hk hcyclic => ?_⟩
    exact not_mem_working_of_mayLoad hacyclic (S.follow_consistent h) (follow_nested h) hk (hkind.1 hcyclic)

/-- plans of three finders, each of which needs the next one; the last one needs the first if the ring is closed -/
def ringPlan : Bool → Fin 3 → Plan (Fin 3) Finding
  | _, 0 => .depend 1 .done
  | _, 1 => .depend 2 .done
  | true, 2 => .depend 0 .done
  | false, 2 => .fail (.anchorMissing "nothing to find")

def ringSurvey (closed : Bool) : Survey (Fin 3) where
  image := mutualSurvey.image
  thresholds := .standard
  name k := if k = 0 then "A" else if k = 1 then "B" else "C"
  plan := ringPlan closed
  keys := List.finRange 3
  mem_keys := List.mem_finRange

/-- the first finder is called for, starts the second one, that one the third, and all three come to an end -/
def ringMoves : List (Move (Fin 3)) := .act (.load 0) :: .replicate 5 .work

theorem ringPlan_claimsNoCycle (closed : Bool) (k : Fin 3) : ClaimsNoCycle (ringPlan closed k) :=
  match closed, k with
  | _, 0 => fun _ => trivial
  | _, 1 => fun _ => trivial
  | true, 2 => fun _ => trivial
  | false, 2 => nofun

theorem ringPlan_propagates (k : Fin 3) : Propagates (ringPlan true k) :=
  match k with
  | 0 => fun _ => trivial
  | 1 => fun _ => trivial
  | 2 => fun _ => trivial

/-- each finder of the open ring needs only the one after it -/
theorem ringSurvey_acyclic : (ringSurvey false).Acyclic := by
  refine acyclic_of_rank (fun k => 2 - k.val) fun key k hneeds => ?_
  match key, hneeds with
  | 0, .inl h => subst h; decide
  | 0, .inr ⟨_, h⟩ => exact h.elim
  | 1, .inl h => subst h; decide
  | 1, .inr ⟨_, h⟩ => exact h.elim
  | 2, h => exact h.elim

/-- In the closed ring, once all three are at work, the third finds the first at work, and all fail. In the open one the
third is never found at work, and its answer does not tell of a cycle. -/
theorem ringSurvey_told : ∃ m m' n, (ringSurvey true).follow .start [.act (.load 0), .work, .work] = some m ∧
    (ringSurvey true).FindsCycle m.state 0 ∧ (ringSurvey true).follow m [.work, .work, .work] = some m' ∧
    (∀ x, m'.state.status x = .failed) ∧
    (ringSurvey false).follow .start [.act (.load 0), .work] = some n ∧ n.MayLoad 2 ∧
    ¬ (ringSurvey false).FindsCycle n.state 2 ∧
    ∀ e, ((ringSurvey false).load 2 n.state).1 = .error e → e.kind ≠ .cyclicDependency := by
  obtain ⟨hfinds, -, -, hfail⟩ :=
    (ringSurvey true).cycle_detection_exact.1 [.act (.load 0), .work, .work] _ rfl
  obtain ⟨-, -, hclear, -⟩ := (ringSurvey false).cycle_detection_exact.1 [.act (.load 0), .work] _ rfl
  have hload : ∀ {n}, (ringSurvey false).follow .start [.act (.load 0), .work] = some n → n.MayLoad 2 := by
    rintro n ⟨⟩
    exact .inr ⟨1, _, _, rfl, rfl⟩
  refine ⟨_, _, _, rfl, (hfinds 0).2 (by decide), rfl, ?_, rfl, hload rfl, ?_, ?_⟩
  · have hall := hfail [2, 1] 0 [] rfl ⟨2, _, _, rfl, rfl⟩ (fun x _ => ringPlan_propagates x) [.work, .work, .work] _
      rfl rfl
    exact fun x => hall x (by revert x; decide)
  · exact hclear ringSurvey_acyclic 2 (hload rfl)
  · intro e he
    exact ((ringSurvey false).cycle_detection_exact.2 (ringPlan_claimsNoCycle false) [.act (.load 0), .work] _ rfl 2 e
      he).2 ringSurvey_acyclic (hload rfl)

end Survey

end Landmark
