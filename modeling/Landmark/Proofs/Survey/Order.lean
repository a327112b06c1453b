/-
What comes of a finder does not depend on who asks for it, when and after what.

A plan that asks for neither the resource tree nor the status of a finder (`Direct`) is told by the answers of other
finders: `meaning` says how it ends, without any state. In an acyclic survey of direct plans that fixes an answer for every
finder, by recursion along needs (`answer`).
- `answer_eq`: the answer of a finder is what its plan means if all others answer so.
- `Faithful`: every settled slot holds that answer, and plans in progress lead to it; `move_faithful`, `follow_faithful`.
- `order_irrelevant`: any two lists of requests lead to the same outcomes, which are those of first requests.
-/
import Landmark.Proofs.Finder.Reach

namespace Landmark

namespace Survey

variable {κ : Type} (S : Survey κ)

/-! ## Meaning of plans -/

/-- how a direct plan ends if other finders answer like this; a step that is not direct counts as one on a new survey -/
def meaning (answer : κ → Except Failure Finding) {α : Type} : Plan κ α → Except Fault α
  | .done a => .ok a
  | .fail f => .error f
  | .findText needle q next => meaning answer (next (S.image.findText needle q))
  | .findSignature sig a b next => meaning answer (next (S.image.findSignature sig a b))
  | .facts next => meaning answer (next S.clientFacts)
  | .tree next => meaning answer (next S.readTree)
  | .status _ next => meaning answer (next .unresolved)
  | .attempt k next => meaning answer (next (answer k))
  | .depend k next =>
    match answer k with
    | .ok v => meaning answer (next v)
    | .error e => .error e.asDependency

/-- what a finder answers whose plan ends like this -/
def conclude (key : κ) (r : Except Fault Finding) : Except Failure Finding :=
  r.mapError (Failure.mk (S.name key))

theorem meaning_congr {answer answer' : κ → Except Failure Finding} {α : Type} {plan : Plan κ α}
    (h : ∀ k, S.MayAsk k plan → answer k = answer' k) : S.meaning answer plan = S.meaning answer' plan := by
  induction plan with
  | done a => rfl
  | fail f => rfl
  | findText needle q next ih => exact ih _ h
  | findSignature sig a b next ih => exact ih _ h
  | facts next ih => exact ih _ h
  | tree next ih => exact ih _ fun k hk => h k ⟨_, hk⟩
  | status k next ih => exact ih _ fun k hk => h k ⟨_, hk⟩
  | attempt k next ih =>
    have hk : answer k = answer' k := h k (.inl rfl)
    rw [meaning, meaning, hk]
    exact ih _ fun k' hk' => h k' (.inr ⟨_, hk'⟩)
  | depend k next ih =>
    have hk : answer k = answer' k := h k (.inl rfl)
    rw [meaning, meaning, hk]
    cases answer' k with
    | ok v => exact ih v fun k' hk' => h k' (.inr ⟨_, hk'⟩)
    | error e => rfl

variable {S}

open scoped Classical in
/-- what a finder answers, whoever asks for it -/
noncomputable def answer (h : S.Acyclic) : κ → Except Failure Finding :=
  h.wellFounded.fix fun key below =>
    S.conclude key (S.meaning (fun k => if hk : S.Needs key k then below k hk else .error ⟨"", .cyclic ""⟩) (S.plan key))

/-- **A finder answers what its plan means**, all others answering likewise. -/
theorem answer_eq (h : S.Acyclic) (key : κ) :
    answer h key = S.conclude key (S.meaning (answer h) (S.plan key)) := by
  rw [answer, WellFounded.fix_eq]
  refine congrArg (S.conclude key) (S.meaning_congr fun k hk => ?_)
  exact dif_pos hk

/-! ## Plans in progress -/

theorem eq_resolving_or_outcome_of_replay {key : κ} {s : Slot κ} {r : Except Failure Finding}
    (h : S.replay key s = some r) : s = .resolving ∨ s.outcome? = some r := by
  cases s with
  | unresolved => contradiction
  | resolving => exact .inl rfl
  | resolved v => exact .inr h
  | failed e source => exact .inr h

variable (S) in
/-- whoever the plan waits for has the answer ready, or none -/
def Answers (answer : κ → Except Failure Finding) (st : State κ) (plan : Plan κ Finding) : Prop :=
  ∀ k r, Waits k plan → S.replay k (st.slots k) = some r → r = answer k

theorem Proceeds.direct {st : State κ} (hst : S.Informed st) {plan plan' : Plan κ Finding} (h : S.Proceeds st plan plan')
    (hdirect : S.Direct plan) : S.Direct plan' := by
  cases h with
  | findText needle q next => exact hdirect
  | findSignature sig a b next => exact hdirect
  | facts next =>
    rw [hst.facts_fst]
    exact hdirect
  | tree next => exact hdirect.elim
  | status k next => exact hdirect.elim
  | attempt k next hr => exact hdirect _
  | depend k next hv => exact hdirect _

/-- a step of a direct plan leaves its meaning as it is -/
theorem Proceeds.meaning_eq {answer : κ → Except Failure Finding} {st : State κ} (hst : S.Informed st)
    {plan plan' : Plan κ Finding} (h : S.Proceeds st plan plan') (hdirect : S.Direct plan)
    (hanswers : S.Answers answer st plan) : S.meaning answer plan' = S.meaning answer plan := by
  cases h with
  | findText needle q next => rfl
  | findSignature sig a b next => rfl
  | facts next =>
    rw [hst.facts_fst]
    rfl
  | tree next => exact hdirect.elim
  | status k next => exact hdirect.elim
  | attempt k next hr =>
    have hk := hanswers k _ rfl hr
    rw [hk, meaning]
  | depend k next hv =>
    have hk := hanswers k _ rfl hv
    rw [meaning, ← hk]

/-- a plan ends as it means to -/
theorem Concludes.settle_fst {answer : κ → Except Failure Finding} {st : State κ} {plan : Plan κ Finding}
    {e : Ending κ Finding} [DecidableEq κ] (h : S.Concludes st plan e) (hanswers : S.Answers answer st plan)
    (key : κ) : (S.settle key (e, st)).1 = S.conclude key (S.meaning answer plan) := by
  cases h with
  | done v => rfl
  | fail f => rfl
  | depend k next he =>
    have hk := hanswers k _ rfl he
    rw [meaning, ← hk]
    rfl

variable (S) in
/-- slots hold the answers, and plans in progress lead to them -/
structure Faithful (answer : κ → Except Failure Finding) (m : Moment κ) : Prop where
  settled : ∀ k r, (m.state.slots k).outcome? = some r → r = answer k
  direct : ∀ j ∈ m.stack, S.Direct j.plan
  leads : ∀ j ∈ m.stack, S.conclude j.key (S.meaning answer j.plan) = answer j.key

theorem faithful_start (answer : κ → Except Failure Finding) : S.Faithful answer .start where
  settled k r hr := by cases hr
  direct j hj := by cases hj
  leads j hj := by cases hj

/-- the innermost plan waits for no finder at work, so a ready answer is the right one -/
theorem Faithful.answers {answer : κ → Except Failure Finding} {m : Moment κ} (hm : S.Faithful answer m)
    (hacyclic : S.Acyclic) (hc : Consistent m) (hn : S.Nested m) {key : κ} {plan : Plan κ Finding} {rest : List (Job κ)}
    (hstack : m.stack = ⟨key, plan⟩ :: rest) : S.Answers answer m.state plan := by
  intro k r hw hr
  rcases eq_resolving_or_outcome_of_replay hr with hk | hk
  · exact absurd hk (ne_resolving_of_waits hacyclic hc hn hstack hw)
  · exact hm.settled k r hk

variable [DecidableEq κ]

theorem Faithful.enter {answer : κ → Except Failure Finding} {m : Moment κ} (hm : S.Faithful answer m) {key : κ}
    (hdirect : S.Direct (S.plan key)) (hkey : answer key = S.conclude key (S.meaning answer (S.plan key))) :
    S.Faithful answer (S.enter m key) where
  settled := by
    intro k r hr
    by_cases hk : k = key
    · subst hk
      rw [Survey.enter, State.setSlot_self] at hr
      contradiction
    · rw [Survey.enter, State.setSlot_of_ne _ hk] at hr
      exact hm.settled k r hr
  direct := by
    intro j hj
    rcases List.mem_cons.1 hj with rfl | hj
    · exact hdirect
    · exact hm.direct j hj
  leads := by
    intro j hj
    rcases List.mem_cons.1 hj with rfl | hj
    · exact hkey.symm
    · exact hm.leads j hj

theorem move_faithful {answer : κ → Except Failure Finding} (hacyclic : S.Acyclic) (hdirect : ∀ k, S.Direct (S.plan k))
    (hanswer : ∀ k, answer k = S.conclude k (S.meaning answer (S.plan k))) {m m' : Moment κ} {mv : Move κ}
    (h : S.move m mv = some m') (hc : Consistent m) (hn : S.Nested m) (hm : S.Faithful answer m) :
    S.Faithful answer m' := by
  cases S.turn_of_move h with
  | rests _ hm' hslots _ =>
    refine ⟨fun k => hslots ▸ hm.settled k, ?_, ?_⟩
    · rw [hm']
      exact fun j hj => absurd hj List.not_mem_nil
    · rw [hm']
      exact fun j hj => absurd hj List.not_mem_nil
  | called _ _ => exact hm.enter (hdirect _) (hanswer _)
  | waited _ _ _ => exact hm.enter (hdirect _) (hanswer _)
  | @proceeded key plan plan' rest _ hstack hplan hm' hslots _ =>
    have hjob : (⟨key, plan⟩ : Job κ) ∈ m.stack := hstack ▸ List.mem_cons_self
    refine ⟨fun k => hslots ▸ hm.settled k, ?_, ?_⟩
    · intro j hj
      rw [hm'] at hj
      rcases List.mem_cons.1 hj with rfl | hj
      · exact hplan.direct hn.informed (hm.direct _ hjob)
      · exact hm.direct j (hstack ▸ List.mem_cons_of_mem _ hj)
    · intro j hj
      rw [hm'] at hj
      rcases List.mem_cons.1 hj with rfl | hj
      · rw [hplan.meaning_eq hn.informed (hm.direct _ hjob) (hm.answers hacyclic hc hn hstack)]
        exact hm.leads _ hjob
      · exact hm.leads j (hstack ▸ List.mem_cons_of_mem _ hj)
  | @concluded key plan rest e hstack hplan =>
    have hjob : (⟨key, plan⟩ : Job κ) ∈ m.stack := hstack ▸ List.mem_cons_self
    refine ⟨?_, fun j hj => hm.direct j (hstack ▸ List.mem_cons_of_mem _ hj),
      fun j hj => hm.leads j (hstack ▸ List.mem_cons_of_mem _ hj)⟩
    intro k r hr
    by_cases hk : k = key
    · subst hk
      rw [outcome?_settle, Option.some_inj] at hr
      rw [← hr, hplan.settle_fst (hm.answers hacyclic hc hn hstack)]
      exact hm.leads _ hjob
    · rw [slots_settle_of_ne hk] at hr
      exact hm.settled k r hr

/-- **On every course slots hold the answers**, and the facts are those about the image. -/
theorem follow_faithful {answer : κ → Except Failure Finding} (hacyclic : S.Acyclic) (hdirect : ∀ k, S.Direct (S.plan k))
    (hanswer : ∀ k, answer k = S.conclude k (S.meaning answer (S.plan k))) {m : Moment κ} {moves : List (Move κ)}
    (h : S.follow .start moves = some m) : S.Nested m ∧ S.Faithful answer m := by
  refine S.follow_induction (P := fun m => S.Nested m ∧ S.Faithful answer m) ?_ h consistent_start
    ⟨S.nested_start, faithful_start answer⟩
  intro m mv m' hc hmv hm
  exact ⟨move_nested hmv hm.1, move_faithful hacyclic hdirect hanswer hmv hc hm.1 hm.2⟩

/-! ## Acts from outside -/

variable (S)

/-- the state that acts from outside lead to, from the start -/
def reached (acts : List (Act κ)) : State κ :=
  acts.foldl S.afterAct .start

theorem reached_append (acts acts' : List (Act κ)) : S.reached (acts ++ acts') = acts'.foldl S.afterAct (S.reached acts) :=
  List.foldl_append

theorem afterAll_start (requests : List (Request κ)) :
    S.afterAll .start requests = S.reached (requests.flatMap Request.acts) :=
  S.afterAll_eq_foldl .start requests

theorem exists_follow_reached (acts : List (Act κ)) : ∃ moves m, S.follow .start moves = some m ∧ m.stack = [] ∧
    m.state = S.reached acts := by
  obtain ⟨moves, m, hfollow, -, hstack, hstate⟩ := S.exists_follow_acts .start rfl acts
  exact ⟨moves, m, hfollow, hstack, hstate⟩

/-- between acts nobody is at work -/
theorem ne_resolving_reached (acts : List (Act κ)) (k : κ) : (S.reached acts).slots k ≠ .resolving := by
  obtain ⟨moves, m, hfollow, hstack, hstate⟩ := S.exists_follow_reached acts
  intro hk
  rw [← hstate] at hk
  have hmem := ((S.follow_consistent hfollow).resolving_iff k).1 hk
  rw [Moment.working, hstack] at hmem
  contradiction

/-- a finder that was loaded is settled, with what the load answered -/
theorem outcome?_load (acts : List (Act κ)) (k : κ) :
    ((S.load k (S.reached acts)).2.slots k).outcome? = some (S.load k (S.reached acts)).1 := by
  rcases eq_resolving_or_outcome_of_replay (S.replay_load k (S.reached acts)) with h | h
  · have hne := S.ne_resolving_reached (acts ++ [.load k]) k
    rw [reached_append] at hne
    exact absurd h hne
  · exact h

/-- further acts keep settled slots and the facts -/
theorem reached_append_keeps (acts acts' : List (Act κ)) :
    (∀ k, ((S.reached acts).slots k).outcome?.isSome →
      (S.reached (acts ++ acts')).slots k = (S.reached acts).slots k) ∧
    ∀ f, (S.reached acts).facts = some f → (S.reached (acts ++ acts')).facts = some f := by
  obtain ⟨moves, m, hfollow, hstack, hstate⟩ := S.exists_follow_reached acts
  obtain ⟨moves', m', hfollow', -, -, hstate'⟩ := S.exists_follow_acts m hstack acts'
  have hm := S.follow_consistent hfollow
  rw [hstate, ← reached_append] at hstate'
  rw [← hstate, ← hstate']
  exact ⟨fun k hk => S.slot_eq_of_follow hm hfollow' hk, fun f hf => S.facts_eq_of_follow hm hfollow' hf⟩

theorem isSome_outcome?_reached {acts : List (Act κ)} {k : κ} (h : .load k ∈ acts) :
    ((S.reached acts).slots k).outcome?.isSome := by
  obtain ⟨before, after, rfl⟩ := List.append_of_mem h
  have hload : ((S.reached (before ++ [.load k])).slots k).outcome?.isSome := by
    rw [reached_append]
    exact Option.isSome_of_eq_some (S.outcome?_load before k)
  rw [List.append_cons, (S.reached_append_keeps (before ++ [Act.load k]) after).1 k hload]
  exact hload

theorem isSome_facts_reached {acts : List (Act κ)} (h : .facts ∈ acts) : (S.reached acts).facts.isSome := by
  obtain ⟨before, after, rfl⟩ := List.append_of_mem h
  have hfacts : (S.reached (before ++ [.facts])).facts = some (S.facts (S.reached before)).1 := by
    rw [reached_append]
    exact S.facts_snd_facts (S.reached before)
  rw [List.append_cons, (S.reached_append_keeps (before ++ [Act.facts]) after).2 _ hfacts]
  rfl

theorem informed_reached (acts : List (Act κ)) : S.Informed (S.reached acts) := by
  obtain ⟨moves, m, hfollow, -, hstate⟩ := S.exists_follow_reached acts
  exact hstate ▸ (follow_nested hfollow).informed

/-- reports on settled finders take nothing -/
theorem describeEach_snd_of_settled {st : State κ} {keys : List κ} (h : ∀ k ∈ keys, (st.slots k).outcome?.isSome) :
    (S.describeEach st keys).2 = st := by
  induction keys with
  | nil => rfl
  | cons k keys ih =>
    obtain ⟨r, hr⟩ := Option.isSome_iff_exists.1 (h k List.mem_cons_self)
    rw [describeEach, (S.answers_of_outcome hr).2.2.2]
    exact ih fun k' hk' => h k' (List.mem_cons_of_mem _ hk')

theorem describeAll_eq (keys : List κ) (st : State κ) : S.describeAll keys st =
    (.resolved "FACTS" (S.facts st).1.fields :: (S.describeEach (S.facts st).2 keys).1,
      (S.describeEach (S.facts st).2 keys).2) :=
  rfl

theorem describeAll_snd_of_settled {st : State κ} {keys : List κ} (hfacts : st.facts.isSome)
    (h : ∀ k ∈ keys, (st.slots k).outcome?.isSome) : (S.describeAll keys st).2 = st := by
  obtain ⟨f, hf⟩ := Option.isSome_iff_exists.1 hfacts
  rw [describeAll_eq, S.facts_of_some hf]
  exact S.describeEach_snd_of_settled h

variable {S}

/-! ## Any order -/

/-- whatever was asked for before, a finder answers what it always answers -/
theorem load_reached (hacyclic : S.Acyclic) (hdirect : ∀ k, S.Direct (S.plan k)) (acts : List (Act κ)) (k : κ) :
    (S.load k (S.reached acts)).1 = answer hacyclic k := by
  obtain ⟨moves, m, hfollow, -, hstate⟩ := S.exists_follow_reached (acts ++ [.load k])
  have hm := (follow_faithful hacyclic hdirect (answer_eq hacyclic) hfollow).2
  rw [reached_append] at hstate
  refine hm.settled k _ ?_
  rw [hstate]
  exact S.outcome?_load acts k

theorem describeEach_reached (hacyclic : S.Acyclic) (hdirect : ∀ k, S.Direct (S.plan k)) (acts : List (Act κ))
    (keys : List κ) :
    (S.describeEach (S.reached acts) keys).1 = keys.map fun k => S.report k (answer hacyclic k) := by
  induction keys generalizing acts with
  | nil => rfl
  | cons k keys ih =>
    have hnext := ih (acts ++ [.load k])
    rw [reached_append] at hnext
    rw [describeEach, describe_eq, load_reached hacyclic hdirect, List.map_cons, ← hnext]
    rfl

theorem describeAll_reached (hacyclic : S.Acyclic) (hdirect : ∀ k, S.Direct (S.plan k)) (acts : List (Act κ))
    (keys : List κ) : (S.describeAll keys (S.reached acts)).1 =
      .resolved "FACTS" S.clientFacts.fields :: keys.map fun k => S.report k (answer hacyclic k) := by
  have heach := describeEach_reached hacyclic hdirect (acts ++ [.facts]) keys
  rw [reached_append] at heach
  rw [describeAll_eq, (S.informed_reached acts).facts_fst, ← heach]
  rfl

/-- **The order of requests does not matter.** In an acyclic survey of direct plans, a finder requested in two lists of
requests has one outcome after both, that of loading it first of all, and every load, need and report gives that outcome
wherever it comes. So the report on the facts and several finders is the same at any point; once it was given, giving it
again changes nothing, neither a slot nor the record of searches. -/
theorem order_irrelevant (hacyclic : S.Acyclic) (hdirect : ∀ k, S.Direct (S.plan k)) :
    (∀ requests requests' k, .load k ∈ requests.flatMap Request.acts → .load k ∈ requests'.flatMap Request.acts →
      ((S.afterAll .start requests).slots k).outcome? = ((S.afterAll .start requests').slots k).outcome? ∧
      ((S.afterAll .start requests).slots k).outcome? = some (S.load k .start).1) ∧
    (∀ requests k, (S.load k (S.afterAll .start requests)).1 = (S.load k .start).1 ∧
      (S.depend k (S.afterAll .start requests)).1 = (S.depend k .start).1 ∧
      (S.describe k (S.afterAll .start requests)).1 = (S.describe k .start).1) ∧
    (∀ requests keys, (S.describeAll keys (S.afterAll .start requests)).1 =
      .resolved "FACTS" S.clientFacts.fields :: keys.map fun k => (S.describe k .start).1) ∧
    ∀ requests keys, .describeAll keys ∈ requests →
      (S.describeAll keys (S.afterAll .start requests)).2 = S.afterAll .start requests := by
  have hfirst : ∀ k, (S.load k .start).1 = answer hacyclic k := load_reached hacyclic hdirect []
  have hsettled : ∀ requests k, .load k ∈ requests.flatMap Request.acts →
      ((S.afterAll .start requests).slots k).outcome? = some (S.load k .start).1 := by
    intro requests k hk
    rw [afterAll_start]
    obtain ⟨r, hr⟩ := Option.isSome_iff_exists.1 (S.isSome_outcome?_reached hk)
    have hload := load_reached hacyclic hdirect (requests.flatMap Request.acts) k
    rw [(S.answers_of_outcome hr).2.1] at hload
    rw [hr, hfirst, ← hload]
  refine ⟨?_, ?_, ?_, ?_⟩
  · intro requests requests' k hk hk'
    exact ⟨(hsettled requests k hk).trans (hsettled requests' k hk').symm, hsettled requests k hk⟩
  · intro requests k
    have hload : (S.load k (S.afterAll .start requests)).1 = (S.load k .start).1 := by
      rw [afterAll_start, load_reached hacyclic hdirect, hfirst]
    refine ⟨hload, congrArg (Except.mapError Failure.asDependency) hload, ?_⟩
    rw [describe_eq, describe_eq, hload]
  · intro requests keys
    rw [afterAll_start, describeAll_reached hacyclic hdirect]
    simp only [describe_eq, hfirst]
  · intro requests keys hmem
    have hacts : ∀ a ∈ (Request.describeAll keys).acts, a ∈ requests.flatMap Request.acts :=
      fun a ha => List.mem_flatMap.2 ⟨_, hmem, ha⟩
    rw [afterAll_start]
    refine S.describeAll_snd_of_settled (S.isSome_facts_reached (hacts _ List.mem_cons_self)) fun k hk => ?_
    exact S.isSome_outcome?_reached (hacts _ (List.mem_cons_of_mem _ (List.mem_map_of_mem hk)))

/-- the first script looks for a text; the second one needs the first, and tries a built-in finder -/
def relaySteps (n : Fin 2) : List (Finder.Step (FinderKey 2)) :=
  if n = 0 then [.text "x"] else [.depend (.script 0), .attempt .imports]

/-- these scripts in an image that has the text -/
def relaySurvey : Survey (FinderKey 2) :=
  .standard
    { bytes := #[0, 0x78, 0], sections := [.data ".data" 0 3 0x401000], imports := [], metadata := .unknown
      sound := by decide }
    .standard relaySteps

/-- scripts rank above the built-in finders, later ones above earlier ones -/
def relayRank : FinderKey 2 → Nat
  | .script n => n + 1
  | _ => 0

theorem relaySurvey_any_order :
    let finding : Finding := .collected [.text "U0" "ok", .text "IMPORTS" "IMPORTS - GetModuleHandleA not found"] (.virt 0)
    let requests : List (Request (FinderKey 2)) := [.describe (.script 0), .describeAll FinderKey.builtIn]
    (relaySurvey.load (.script 1) (relaySurvey.afterAll .start requests)).1 = .ok finding ∧
    (relaySurvey.describeAll FinderKey.builtIn (relaySurvey.afterAll .start [.load (.script 1)])).1.length = 6 ∧
    (relaySurvey.describeAll FinderKey.builtIn (relaySurvey.afterAll .start requests)).2 =
      relaySurvey.afterAll .start requests := by
  intro finding requests
  have hwithin : ∀ n, ∀ s ∈ relaySteps n, StepWithin (fun k => relayRank k < relayRank (.script n)) s := by
    intro n s hs
    by_cases hn : n = 0
    · rw [relaySteps, if_pos hn, List.mem_singleton] at hs
      subst hs
      trivial
    · rw [relaySteps, if_neg hn, List.mem_pair] at hs
      have hpos : 0 < n.val := Nat.pos_of_ne_zero (Fin.val_ne_of_ne hn)
      rcases hs with rfl | rfl
      · exact Nat.succ_lt_succ hpos
      · exact Nat.succ_pos n
  have hacyclic : relaySurvey.Acyclic := standard_acyclic hwithin
  have hdirect : ∀ k, relaySurvey.Direct (relaySurvey.plan k) := fun k => (standard_confined hwithin k).direct
  obtain ⟨-, hload, hall, hagain⟩ := order_irrelevant hacyclic hdirect
  refine ⟨?_, ?_, ?_⟩
  · rw [(hload requests (.script 1)).1]
    decide +kernel
  · rw [hall]
    rfl
  · exact hagain requests _ (List.mem_cons_of_mem _ List.mem_cons_self)

end Survey

end Landmark
