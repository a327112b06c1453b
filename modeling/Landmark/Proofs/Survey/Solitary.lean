/-
A finder that asks for nobody.

What comes of such a finder is what its plan means, in any survey and after any acts: other finders may wait for it, come
round in cycles and fail as they like.
- `Alone`: the invariant; `move_alone`, `follow_alone`.
- `load_of_confined`: the answer of such a finder, whatever was asked before.
-/
import Landmark.Proofs.Survey.Order

namespace Landmark

namespace Survey

variable {κ : Type}

/-- nobody may be asked for -/
abbrev nobody : κ → Prop := fun _ => False

variable {S : Survey κ}

/-- a plan that asks for nobody waits for nobody -/
theorem answers_of_confined {answer : κ → Except Failure Finding} {st : State κ} {plan : Plan κ Finding}
    (h : S.ConfinedTo nobody plan) : S.Answers answer st plan := by
  intro k r hwaits _
  exact (h.asks k (S.mayAsk_of_waits hwaits)).elim

theorem Proceeds.confined {P : κ → Prop} {st : State κ} (hst : S.Informed st) {plan plan' : Plan κ Finding}
    (h : S.Proceeds st plan plan') (hplan : S.ConfinedTo P plan) : S.ConfinedTo P plan' where
  direct := h.direct hst hplan.direct
  asks k hk := hplan.asks k (h.mayAsk hst hk)

variable (S) in
/-- the finder's slot holds what its plan means, and where it is at work, that is what it comes to -/
structure Alone (answer : κ → Except Failure Finding) (key : κ) (m : Moment κ) : Prop where
  settled : ∀ r, (m.state.slots key).outcome? = some r → r = S.conclude key (S.meaning answer (S.plan key))
  leads : ∀ j ∈ m.stack, j.key = key → S.ConfinedTo nobody j.plan ∧ S.meaning answer j.plan = S.meaning answer (S.plan key)

theorem alone_start (answer : κ → Except Failure Finding) (key : κ) : S.Alone answer key .start where
  settled r hr := by cases hr
  leads j hj := by cases hj

variable [DecidableEq κ]

theorem Alone.enter {answer : κ → Except Failure Finding} {key : κ} {m : Moment κ} (hm : S.Alone answer key m)
    (hplan : S.ConfinedTo nobody (S.plan key)) (k : κ) : S.Alone answer key (S.enter m k) where
  settled := by
    intro r hr
    by_cases hk : key = k
    · subst hk
      rw [Survey.enter, State.setSlot_self] at hr
      contradiction
    · rw [Survey.enter, State.setSlot_of_ne _ hk] at hr
      exact hm.settled r hr
  leads := by
    intro j hj hkey
    rcases List.mem_cons.1 hj with rfl | hj
    · obtain rfl : k = key := hkey
      exact ⟨hplan, rfl⟩
    · exact hm.leads j hj hkey

theorem move_alone {answer : κ → Except Failure Finding} {key : κ} (hplan : S.ConfinedTo nobody (S.plan key))
    {m m' : Moment κ} {mv : Move κ} (h : S.move m mv = some m') (hst : S.Informed m.state)
    (hm : S.Alone answer key m) : S.Alone answer key m' := by
  cases S.turn_of_move h with
  | rests _ hm' hslots _ =>
    refine ⟨hslots ▸ hm.settled, ?_⟩
    rw [hm']
    exact fun j hj => absurd hj List.not_mem_nil
  | called _ _ => exact hm.enter hplan _
  | waited _ _ _ => exact hm.enter hplan _
  | @proceeded k plan plan' rest _ hstack hproceeds hm' hslots _ =>
    refine ⟨hslots ▸ hm.settled, ?_⟩
    intro j hj hkey
    rw [hm'] at hj
    rcases List.mem_cons.1 hj with rfl | hj
    · obtain ⟨hconfined, hleads⟩ := hm.leads ⟨k, plan⟩ (hstack ▸ List.mem_cons_self) hkey
      refine ⟨hproceeds.confined hst hconfined, ?_⟩
      rw [hproceeds.meaning_eq hst hconfined.direct (answers_of_confined hconfined), hleads]
    · exact hm.leads j (hstack ▸ List.mem_cons_of_mem _ hj) hkey
  | @concluded k plan rest e hstack hconcludes =>
    refine ⟨?_, fun j hj => hm.leads j (hstack ▸ List.mem_cons_of_mem _ hj)⟩
    intro r hr
    by_cases hk : key = k
    · subst hk
      obtain ⟨hconfined, hleads⟩ := hm.leads ⟨key, plan⟩ (hstack ▸ List.mem_cons_self) rfl
      rw [outcome?_settle, Option.some_inj] at hr
      rw [← hr, hconcludes.settle_fst (answers_of_confined hconfined), hleads]
    · rw [slots_settle_of_ne hk] at hr
      exact hm.settled r hr

theorem follow_alone {answer : κ → Except Failure Finding} {key : κ} (hplan : S.ConfinedTo nobody (S.plan key))
    {m : Moment κ} {moves : List (Move κ)} (h : S.follow .start moves = some m) : S.Alone answer key m := by
  have hboth : S.Nested m ∧ S.Alone answer key m := by
    refine S.follow_induction (P := fun m => S.Nested m ∧ S.Alone answer key m) ?_ h consistent_start
      ⟨S.nested_start, alone_start answer key⟩
    intro m mv m' _ hmv hm
    exact ⟨move_nested hmv hm.1, move_alone hplan hmv hm.1.informed hm.2⟩
  exact hboth.2

/-- **A finder that asks for nobody answers what its plan means**, whatever was asked before. -/
theorem load_of_confined (answer : κ → Except Failure Finding) {key : κ} (hplan : S.ConfinedTo nobody (S.plan key))
    (acts : List (Act κ)) : (S.load key (S.reached acts)).1 = S.conclude key (S.meaning answer (S.plan key)) := by
  obtain ⟨moves, m, hfollow, -, hstate⟩ := S.exists_follow_reached (acts ++ [.load key])
  rw [reached_append] at hstate
  refine (follow_alone hplan hfollow).settled _ ?_
  rw [hstate]
  exact S.outcome?_load acts key

end Survey

end Landmark
