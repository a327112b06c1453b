/-
Which finder may ask for which, and what that says of the finders at work.

Searches and the facts are answered by the image and the thresholds, so what a plan may ask for depends on them and on what
other finders answer (`MayAsk`). A finder needs whatever its plan may ask for; a survey is `Acyclic` if no finder needs
itself, be it by way of others. A plan is `Direct` if it asks for neither the resource tree nor the status of a finder.
- `turn_of_move`: what one move does to the stack and to the plan of the innermost finder.
- `Nested`: each finder at work is needed by those that wait for it; `move_nested`, `follow_nested`.
- `ne_resolving_of_waits`: in an acyclic survey nobody asks for a finder at work.
-/
import Landmark.Proofs.ClientFacts
import Landmark.Proofs.Survey.Memory
import Mathlib.Data.Fintype.EquivFin
import Mathlib.Logic.Relation

namespace Landmark

namespace Survey

variable {κ : Type} (S : Survey κ)

/-! ## Needs -/

/-- the facts about the image -/
def clientFacts : ClientFacts :=
  ((ClientFacts.survey S.image S.thresholds).run .empty).1

/-- the plan may come to ask for the value of finder `k` -/
def MayAsk (k : κ) {α : Type} : Plan κ α → Prop
  | .done _ => False
  | .fail _ => False
  | .findText needle q next => MayAsk k (next (S.image.findText needle q))
  | .findSignature sig a b next => MayAsk k (next (S.image.findSignature sig a b))
  | .facts next => MayAsk k (next S.clientFacts)
  | .tree next => ∃ r, MayAsk k (next r)
  | .status _ next => ∃ s, MayAsk k (next s)
  | .attempt k' next => k' = k ∨ ∃ r, MayAsk k (next r)
  | .depend k' next => k' = k ∨ ∃ v, MayAsk k (next v)

/-- the plan asks for nothing but searches, the facts and values of other finders -/
def Direct {α : Type} : Plan κ α → Prop
  | .done _ => True
  | .fail _ => True
  | .findText needle q next => Direct (next (S.image.findText needle q))
  | .findSignature sig a b next => Direct (next (S.image.findSignature sig a b))
  | .facts next => Direct (next S.clientFacts)
  | .tree _ => False
  | .status _ _ => False
  | .attempt _ next => ∀ r, Direct (next r)
  | .depend _ next => ∀ v, Direct (next v)

/-- finder `key` may come to ask for the value of finder `k` -/
def Needs (key k : κ) : Prop := S.MayAsk k (S.plan key)

/-- no finder needs itself, be it by way of others -/
def Acyclic : Prop := ∀ k, ¬ Relation.TransGen S.Needs k k

variable {S}

/-- Finders are finitely many, so needs that never come back come to an end. -/
theorem Acyclic.wellFounded (h : S.Acyclic) : WellFounded (flip S.Needs) := by
  have hfinite : Finite κ := .of_surjective (fun i : Fin S.keys.length => S.keys[i]) fun k => by
    obtain ⟨i, hi, hk⟩ := List.getElem_of_mem (S.mem_keys k)
    exact ⟨⟨i, hi⟩, hk⟩
  have htrans : IsTrans κ (Relation.TransGen (flip S.Needs)) := ⟨fun _ _ _ => .trans⟩
  have hirrefl : Std.Irrefl (Relation.TransGen (flip S.Needs)) := ⟨fun k hk => h k (Relation.transGen_swap.1 hk)⟩
  exact Subrelation.wf (fun hab => .single hab)
    (Finite.wellFounded_of_trans_of_irrefl (Relation.TransGen (flip S.Needs)))

/-- Ranks that fall along needs leave no room for a cycle. -/
theorem acyclic_of_rank (rank : κ → Nat) (h : ∀ key k, S.Needs key k → rank k < rank key) : S.Acyclic := by
  have hfall : ∀ {key k}, Relation.TransGen S.Needs key k → rank k < rank key := by
    intro key k hk
    induction hk with
    | single hneeds => exact h _ _ hneeds
    | tail _ hneeds ih => exact (h _ _ hneeds).trans ih
  intro k hk
  exact Nat.lt_irrefl _ (hfall hk)

variable (S)

theorem mayAsk_of_waits {k : κ} {plan : Plan κ Finding} (h : Waits k plan) : S.MayAsk k plan := by
  cases plan with
  | attempt k' next => exact .inl h
  | depend k' next => exact .inl h
  | _ => exact h.elim

/-! ## The facts -/

theorem facts_fst_of_none {st : State κ} (h : st.facts = none) : (S.facts st).1 = S.clientFacts := by
  rw [facts, h]
  exact ClientFacts.steady_survey S.image S.thresholds st.log .empty

theorem facts_takeFacts (m : Moment κ) (stack : ClientFacts → List (Job κ)) :
    (S.takeFacts m stack).state.facts = m.state.facts ∨ (S.takeFacts m stack).state.facts = some S.clientFacts := by
  rw [takeFacts]
  cases h : m.state.facts with
  | none =>
    right
    rw [facts_snd_facts, S.facts_fst_of_none h]
  | some f =>
    left
    rw [S.facts_of_some h]
    exact h

theorem slots_takeFacts (m : Moment κ) (stack : ClientFacts → List (Job κ)) :
    (S.takeFacts m stack).state.slots = m.state.slots :=
  S.slots_facts m.state

/-- the facts, once they are there, are those about the image -/
def Informed (st : State κ) : Prop :=
  ∀ f, st.facts = some f → f = S.clientFacts

variable {S}

theorem Informed.facts_fst {st : State κ} (h : S.Informed st) : (S.facts st).1 = S.clientFacts := by
  cases hf : st.facts with
  | none => exact S.facts_fst_of_none hf
  | some f =>
    rw [S.facts_of_some hf]
    exact h f hf

theorem Informed.of_facts {st st' : State κ} (h : S.Informed st)
    (hfacts : st'.facts = st.facts ∨ st'.facts = some S.clientFacts) : S.Informed st' := by
  intro f hf
  rcases hfacts with hsame | hnew
  · exact h f (hsame ▸ hf)
  · exact Option.some_inj.1 (hf.symm.trans hnew)

variable (S)

/-! ## One move, seen from the innermost plan -/

/-- the plan goes on with an answer that is there -/
inductive Proceeds (st : State κ) : Plan κ Finding → Plan κ Finding → Prop where
  | findText (needle : List UInt8) (q : TextQuery) (next : Option UInt32 → Plan κ Finding) :
    Proceeds st (.findText needle q next) (next (S.image.findText needle q))
  | findSignature (sig : Signature) (a b : UInt32) (next : Option Sighting → Plan κ Finding) :
    Proceeds st (.findSignature sig a b next) (next (S.image.findSignature sig a b))
  | facts (next : ClientFacts → Plan κ Finding) : Proceeds st (.facts next) (next (S.facts st).1)
  | tree (next : Except Fault ResourceNode → Plan κ Finding) :
    Proceeds st (.tree next) (next ((S.tree st).1.map Handle.value))
  | status (k : κ) (next : Status → Plan κ Finding) : Proceeds st (.status k next) (next (st.slots k).status)
  | attempt (k : κ) (next : Except Failure Finding → Plan κ Finding) {r : Except Failure Finding}
    (hr : S.replay k (st.slots k) = some r) : Proceeds st (.attempt k next) (next r)
  | depend (k : κ) (next : Finding → Plan κ Finding) {v : Finding} (hv : S.replay k (st.slots k) = some (.ok v)) :
    Proceeds st (.depend k next) (next v)

/-- the plan ends -/
inductive Concludes (st : State κ) : Plan κ Finding → Ending κ Finding → Prop where
  | done (v : Finding) : Concludes st (.done v) (.ok v)
  | fail (f : Fault) : Concludes st (.fail f) (.fail f none)
  | depend (k : κ) (next : Finding → Plan κ Finding) {e : Failure} (he : S.replay k (st.slots k) = some (.error e)) :
    Concludes st (.depend k next) (.fail e.asDependency (sourceOf k st))

variable {S} in
theorem Proceeds.mayAsk {st : State κ} (hst : S.Informed st) {plan plan' : Plan κ Finding} (h : S.Proceeds st plan plan')
    {k : κ} (hk : S.MayAsk k plan') : S.MayAsk k plan := by
  cases h with
  | findText needle q next => exact hk
  | findSignature sig a b next => exact hk
  | facts next =>
    rw [hst.facts_fst] at hk
    exact hk
  | tree next => exact ⟨_, hk⟩
  | status k' next => exact ⟨_, hk⟩
  | attempt k' next hr => exact .inr ⟨_, hk⟩
  | depend k' next hv => exact .inr ⟨_, hk⟩

section

variable [DecidableEq κ]

/-- what one move does -/
inductive Turn (m : Moment κ) : Moment κ → Prop where
  /-- nobody is at work, before and after -/
  | rests {m' : Moment κ} (hm : m.stack = []) (hm' : m'.stack = []) (hslots : m'.state.slots = m.state.slots)
    (hfacts : m'.state.facts = m.state.facts ∨ m'.state.facts = some S.clientFacts) : Turn m m'
  /-- a finder is started from outside -/
  | called {key : κ} (hm : m.stack = []) (hkey : (m.state.slots key).isUnresolved = true) : Turn m (S.enter m key)
  /-- a finder is started by the one that waits for it -/
  | waited {key k : κ} {plan : Plan κ Finding} {rest : List (Job κ)} (hm : m.stack = ⟨key, plan⟩ :: rest)
    (hplan : Waits k plan) (hk : (m.state.slots k).isUnresolved = true) : Turn m (S.enter m k)
  | proceeded {key : κ} {plan plan' : Plan κ Finding} {rest : List (Job κ)} {m' : Moment κ}
    (hm : m.stack = ⟨key, plan⟩ :: rest) (hplan : S.Proceeds m.state plan plan') (hm' : m'.stack = ⟨key, plan'⟩ :: rest)
    (hslots : m'.state.slots = m.state.slots)
    (hfacts : m'.state.facts = m.state.facts ∨ m'.state.facts = some S.clientFacts) : Turn m m'
  | concluded {key : κ} {plan : Plan κ Finding} {rest : List (Job κ)} {e : Ending κ Finding}
    (hm : m.stack = ⟨key, plan⟩ :: rest) (hplan : S.Concludes m.state plan e) :
    Turn m { m with stack := rest, state := (S.settle key (e, m.state)).2 }

/-- **Every move is one of five.** -/
theorem turn_of_move {m m' : Moment κ} {mv : Move κ} (h : S.move m mv = some m') : S.Turn m m' := by
  obtain ⟨stack, st, begun, surveyed⟩ := m
  cases mv with
  | act a =>
    obtain ⟨hempty, h⟩ := Option.ite_none_right_eq_some.1 h
    obtain rfl : stack = [] := List.isEmpty_iff.1 hempty
    obtain rfl := Option.some_inj.1 h
    cases a with
    | load key =>
      rw [perform]
      split
      · rename_i hkey
        exact .called rfl hkey
      · exact .rests rfl rfl rfl (.inl rfl)
    | facts => exact .rests rfl rfl (S.slots_takeFacts ..) (S.facts_takeFacts ..)
    | tree => exact .rests rfl rfl rfl (.inl rfl)
    | store r => exact .rests rfl rfl rfl (.inl rfl)
  | work =>
    rw [move] at h
    cases stack with
    | nil => contradiction
    | cons job rest =>
      obtain ⟨key, plan⟩ := job
      cases plan with
      | done v => cases h; exact .concluded rfl (.done v)
      | fail f => cases h; exact .concluded rfl (.fail f)
      | findText needle q next => cases h; exact .proceeded rfl (.findText ..) rfl rfl (.inl rfl)
      | findSignature sig a b next => cases h; exact .proceeded rfl (.findSignature ..) rfl rfl (.inl rfl)
      | facts next =>
        cases h
        exact .proceeded rfl (.facts next) rfl (S.slots_takeFacts ..) (S.facts_takeFacts ..)
      | tree next => cases h; exact .proceeded rfl (.tree next) rfl rfl (.inl rfl)
      | status k next => cases h; exact .proceeded rfl (.status k next) rfl rfl (.inl rfl)
      | attempt k next =>
        cases hk : S.replay k (st.slots k) with
        | none =>
          simp only [advance, hk] at h
          cases h
          exact .waited (k := k) rfl rfl (S.replay_eq_none_iff.1 hk)
        | some r =>
          simp only [advance, hk] at h
          cases h
          exact .proceeded rfl (.attempt k next hk) rfl rfl (.inl rfl)
      | depend k next =>
        cases hk : S.replay k (st.slots k) with
        | none =>
          simp only [advance, hk] at h
          cases h
          exact .waited (k := k) rfl rfl (S.replay_eq_none_iff.1 hk)
        | some r =>
          simp only [advance, hk] at h
          cases r with
          | ok v => cases h; exact .proceeded rfl (.depend k next hk) rfl rfl (.inl rfl)
          | error e => cases h; exact .concluded rfl (.depend k next hk)

theorem facts_settle (key : κ) (r : Ending κ Finding × State κ) : (S.settle key r).2.facts = r.2.facts := by
  obtain ⟨e, st⟩ := r
  cases e <;> rfl

variable {S} in
theorem outcome?_settle (key : κ) (r : Ending κ Finding × State κ) :
    ((S.settle key r).2.slots key).outcome? = some (S.settle key r).1 := by
  obtain ⟨e, st⟩ := r
  cases e with
  | ok v => exact congrArg Slot.outcome? (State.setSlot_self st key (.resolved v))
  | fail f source => exact congrArg Slot.outcome? (State.setSlot_self st key (.failed ⟨S.name key, f⟩ source))

variable {S} in
theorem slots_settle_of_ne {key k : κ} (h : k ≠ key) (r : Ending κ Finding × State κ) :
    (S.settle key r).2.slots k = r.2.slots k := by
  obtain ⟨e, st⟩ := r
  cases e <;> exact State.setSlot_of_ne st h _

end

/-! ## Finders at work need one another -/

/-- what is left of a plan asks for nothing new, and who waits needs who is at work -/
structure Nested (m : Moment κ) : Prop where
  informed : S.Informed m.state
  asks : ∀ j ∈ m.stack, ∀ k, S.MayAsk k j.plan → S.Needs j.key k
  needed : m.working.Pairwise fun inner outer => Relation.TransGen S.Needs outer inner

theorem nested_start : S.Nested .start where
  informed f hf := by cases hf
  asks j hj := by cases hj
  needed := .nil

variable {S}

/-- the innermost finder is needed by the others at work, so they need whatever it asks for -/
theorem Nested.needs {m : Moment κ} (hm : S.Nested m) {key k : κ} {plan : Plan κ Finding} {rest : List (Job κ)}
    (hstack : m.stack = ⟨key, plan⟩ :: rest) (hk : S.MayAsk k plan) {k' : κ} (hk' : k' ∈ m.working) :
    Relation.TransGen S.Needs k' k := by
  have hneeds : S.Needs key k := hm.asks ⟨key, plan⟩ (hstack ▸ List.mem_cons_self) k hk
  have hwork : m.working = key :: rest.map Job.key := by
    rw [Moment.working, hstack]
    rfl
  have hneeded := hm.needed
  rw [hwork, List.pairwise_cons] at hneeded
  rw [hwork] at hk'
  rcases List.mem_cons.1 hk' with rfl | hk'
  · exact .single hneeds
  · exact .tail (hneeded.1 k' hk') hneeds

/-- **In an acyclic survey nobody asks for a finder at work.** -/
theorem ne_resolving_of_waits (hacyclic : S.Acyclic) {m : Moment κ} (hc : Consistent m) (hm : S.Nested m) {key k : κ}
    {plan : Plan κ Finding} {rest : List (Job κ)} (hstack : m.stack = ⟨key, plan⟩ :: rest) (hplan : Waits k plan) :
    m.state.slots k ≠ .resolving := by
  intro hk
  exact hacyclic k (hm.needs hstack (S.mayAsk_of_waits hplan) ((hc.resolving_iff k).1 hk))

variable [DecidableEq κ]

theorem Nested.enter {m : Moment κ} (hm : S.Nested m) {key : κ}
    (hkey : ∀ k ∈ m.working, Relation.TransGen S.Needs k key) : S.Nested (S.enter m key) where
  informed := hm.informed
  asks := by
    intro j hj k hk
    rcases List.mem_cons.1 hj with rfl | hj
    · exact hk
    · exact hm.asks j hj k hk
  needed := List.pairwise_cons.2 ⟨hkey, hm.needed⟩

theorem move_nested {m m' : Moment κ} {mv : Move κ} (h : S.move m mv = some m') (hm : S.Nested m) : S.Nested m' := by
  cases S.turn_of_move h with
  | rests _ hm' _ hfacts =>
    refine ⟨hm.informed.of_facts hfacts, ?_, ?_⟩
    · rw [hm']
      exact fun j hj => absurd hj List.not_mem_nil
    · rw [Moment.working, hm']
      exact .nil
  | called hstack _ =>
    refine hm.enter fun k hk => ?_
    rw [Moment.working, hstack] at hk
    contradiction
  | waited hstack hplan _ => exact hm.enter fun k hk => hm.needs hstack (S.mayAsk_of_waits hplan) hk
  | @proceeded key plan plan' rest _ hstack hplan hm' _ hfacts =>
    refine ⟨hm.informed.of_facts hfacts, ?_, ?_⟩
    · intro j hj k hk
      rw [hm'] at hj
      rcases List.mem_cons.1 hj with rfl | hj
      · exact hm.asks ⟨key, plan⟩ (hstack ▸ List.mem_cons_self) k (hplan.mayAsk hm.informed hk)
      · exact hm.asks j (hstack ▸ List.mem_cons_of_mem _ hj) k hk
    · have hneeded := hm.needed
      rw [Moment.working, hstack] at hneeded
      rw [Moment.working, hm']
      exact hneeded
  | concluded hstack _ =>
    refine ⟨hm.informed.of_facts (.inl (S.facts_settle ..)), ?_, ?_⟩
    · exact fun j hj => hm.asks j (hstack ▸ List.mem_cons_of_mem _ hj)
    · have hneeded := hm.needed
      rw [Moment.working, hstack] at hneeded
      exact (List.pairwise_cons.1 hneeded).2

theorem follow_nested {m : Moment κ} {moves : List (Move κ)} (h : S.follow .start moves = some m) : S.Nested m :=
  S.follow_induction (fun _ _ _ _ hmv hm => move_nested hmv hm) h consistent_start S.nested_start

end Survey

end Landmark
