/-
Who waits for whom, and how the finders at work come to an end.

Each finder at work but the innermost one waits for the one above it (`Chained`), and what is left of its plan is what its
own plan comes to with some answers (`Remainder`). The innermost finder always gets to its end, then the next one does, and
so on (`works_settle`, `works_off`); since nothing is done from outside in the meantime, every course goes that way
(`follow_of_works`).
- `follow_chained`, `follow_remainders`: both hold along every course.
- `asked_of_mem_working`: the innermost finder was asked for, directly or indirectly, by everybody at work.
- `failed_of_move`: a move adds no failure but the one that the innermost plan ends with.
- `settled_by_own_plan`: a finder at work later takes what its own plan comes to.
-/
import Landmark.Proofs.Survey.Dependency
import Mathlib.Data.List.Chain

namespace Landmark

/-- at this moment the one finder, at work, waits for the other, at work too -/
def Moment.Asked {κ : Type} (m : Moment κ) (outer inner : κ) : Prop :=
  ∃ above below p q, m.stack = above ++ ⟨inner, p⟩ :: ⟨outer, q⟩ :: below ∧ Survey.Waits inner q

namespace Survey

variable {κ : Type} (S : Survey κ)

/-! ## Chains of waiting finders -/

/-- each finder at work but the innermost one waits for the one above it -/
def Chained (stack : List (Job κ)) : Prop :=
  stack.IsChain fun inner outer => Waits inner.key outer.plan

/-- what may be left of a plan after some answers -/
def Remainder : Plan κ Finding → Plan κ Finding → Prop :=
  Relation.ReflTransGen fun plan plan' => ∃ st, S.Proceeds st plan plan'

/-- what every answer keeps true of a plan is true of what is left of it -/
theorem Remainder.of_proceeds {S : Survey κ} {P : Plan κ Finding → Prop}
    (hstep : ∀ {st plan plan'}, P plan → S.Proceeds st plan plan' → P plan') {plan plan' : Plan κ Finding}
    (hleft : S.Remainder plan plan') (h : P plan) : P plan' := by
  induction hleft with
  | refl => exact h
  | tail _ hproceeds ih =>
    obtain ⟨_, hproceeds⟩ := hproceeds
    exact hstep ih hproceeds

/-- a chain does not depend on what is left of the innermost plan -/
theorem Chained.replace {key : κ} {plan : Plan κ Finding} {rest : List (Job κ)} (h : Chained (⟨key, plan⟩ :: rest))
    (plan' : Plan κ Finding) : Chained (⟨key, plan'⟩ :: rest) := by
  cases rest with
  | nil => exact .singleton _
  | cons job rest =>
    obtain ⟨hfirst, hrest⟩ := List.isChain_cons_cons.1 h
    exact .cons_cons hfirst hrest

theorem Chained.tail {job : Job κ} {rest : List (Job κ)} (h : Chained (job :: rest)) : Chained rest := by
  cases rest with
  | nil => exact .nil
  | cons job' rest => exact (List.isChain_cons_cons.1 h).2

section

variable [DecidableEq κ] {S}

theorem move_chained {m m' : Moment κ} {mv : Move κ} (h : S.move m mv = some m') (hm : Chained m.stack) :
    Chained m'.stack := by
  cases S.turn_of_move h with
  | rests _ hm' _ _ =>
    rw [hm']
    exact .nil
  | called hstack _ =>
    rw [enter, hstack]
    exact .singleton _
  | waited hstack hplan _ =>
    rw [enter, hstack]
    exact .cons_cons hplan (hstack ▸ hm)
  | proceeded hstack _ hm' _ _ =>
    rw [hm']
    rw [hstack] at hm
    exact hm.replace _
  | concluded hstack _ =>
    rw [hstack] at hm
    exact hm.tail

theorem follow_chained {m : Moment κ} {moves : List (Move κ)} (h : S.follow .start moves = some m) : Chained m.stack :=
  S.follow_induction (P := fun m => Chained m.stack) (fun _ _ _ _ hmv hm => move_chained hmv hm) h consistent_start .nil

theorem move_remainders {m m' : Moment κ} {mv : Move κ} (h : S.move m mv = some m')
    (hm : ∀ j ∈ m.stack, S.Remainder (S.plan j.key) j.plan) : ∀ j ∈ m'.stack, S.Remainder (S.plan j.key) j.plan := by
  have henter : ∀ k, ∀ j ∈ (S.enter m k).stack, S.Remainder (S.plan j.key) j.plan := by
    intro k j hj
    rcases List.mem_cons.1 hj with rfl | hj
    · exact .refl
    · exact hm j hj
  cases S.turn_of_move h with
  | rests _ hm' _ _ =>
    rw [hm']
    exact fun j hj => absurd hj List.not_mem_nil
  | called _ _ => exact henter _
  | waited _ _ _ => exact henter _
  | @proceeded key plan plan' rest _ hstack hplan hm' _ _ =>
    intro j hj
    rw [hm'] at hj
    rcases List.mem_cons.1 hj with rfl | hj
    · exact .tail (hm ⟨key, plan⟩ (hstack ▸ List.mem_cons_self)) ⟨m.state, hplan⟩
    · exact hm j (hstack ▸ List.mem_cons_of_mem _ hj)
  | concluded hstack _ => exact fun j hj => hm j (hstack ▸ List.mem_cons_of_mem _ hj)

theorem follow_remainders {m : Moment κ} {moves : List (Move κ)} (h : S.follow .start moves = some m) :
    ∀ j ∈ m.stack, S.Remainder (S.plan j.key) j.plan :=
  S.follow_induction (P := fun m => ∀ j ∈ m.stack, S.Remainder (S.plan j.key) j.plan)
    (fun _ _ _ _ hmv hm => move_remainders hmv hm) h consistent_start fun _ hj => absurd hj List.not_mem_nil

end

theorem asked_of_append {m : Moment κ} (hm : Chained m.stack) (above : List (Job κ)) {below : List (Job κ)} {key : κ}
    {plan : Plan κ Finding} (hstack : m.stack = above ++ ⟨key, plan⟩ :: below) :
    ∀ j ∈ below, Relation.ReflTransGen m.Asked j.key key := by
  induction below generalizing above key plan with
  | nil => exact fun j hj => absurd hj List.not_mem_nil
  | cons outer below ih =>
    have hwaits : Waits key outer.plan := by
      have hchain := (List.isChain_append.1 (hstack ▸ hm : Chained (above ++ ⟨key, plan⟩ :: outer :: below))).2.1
      exact (List.isChain_cons_cons.1 hchain).1
    have hasked : m.Asked outer.key key := ⟨above, below, plan, outer.plan, hstack, hwaits⟩
    intro j hj
    rcases List.mem_cons.1 hj with rfl | hj
    · exact .single hasked
    · exact .tail (ih (above ++ [⟨key, plan⟩]) (by rw [hstack, List.append_assoc]; rfl) j hj) hasked

/-- **Everybody at work has asked for the innermost finder**, directly or by way of others, or is that finder. -/
theorem asked_of_mem_working {m : Moment κ} (hm : Chained m.stack) {key : κ} {plan : Plan κ Finding}
    {rest : List (Job κ)} (hstack : m.stack = ⟨key, plan⟩ :: rest) {k : κ} (hk : k ∈ m.working) :
    Relation.ReflTransGen m.Asked k key := by
  rw [Moment.working, hstack, List.map_cons] at hk
  rcases List.mem_cons.1 hk with rfl | hk
  · exact .refl
  · obtain ⟨j, hj, rfl⟩ := List.mem_map.1 hk
    exact asked_of_append hm [] hstack j hj

/-! ## Working off the stack -/

variable [DecidableEq κ]

/-- the innermost finder gets to its end -/
theorem works_settle {m : Moment κ} {key : κ} {plan : Plan κ Finding} {rest : List (Job κ)}
    (hstack : m.stack = ⟨key, plan⟩ :: rest) : ∃ n e st m', S.exec (S.loadWithin n) plan m.state = some (e, st) ∧
      S.Works m m' ∧ m'.stack = rest ∧ m'.state = (S.settle key (e, st)).2 := by
  obtain ⟨stack, state, begun, surveyed⟩ := m
  obtain rfl : stack = ⟨key, plan⟩ :: rest := hstack
  obtain ⟨e, st, hexec, -⟩ := S.exec_isSome (S.loadWithin_adequate (S.pending state)) plan state (Nat.le_refl _)
  obtain ⟨begun', surveyed', hworks⟩ := S.works_exec (S.loadWithin_realizes _) plan hexec key rest begun surveyed
  exact ⟨_, e, st, _, hexec, hworks, rfl, rfl⟩

/-- so does everybody above a place in the stack -/
theorem works_off {m : Moment κ} {above below : List (Job κ)} (hstack : m.stack = above ++ below) :
    ∃ m', S.Works m m' ∧ m'.stack = below := by
  induction above generalizing m with
  | nil => exact ⟨m, .refl m, hstack⟩
  | cons job above ih =>
    obtain ⟨key, plan⟩ := job
    obtain ⟨-, -, -, m₁, -, hworks, hm₁, -⟩ := S.works_settle hstack
    obtain ⟨m', hworks', hm'⟩ := ih hm₁
    exact ⟨m', hworks.trans hworks', hm'⟩

variable {S}

/-- **There is no other way on** than by plans until nobody is at work. -/
theorem follow_of_works {m m₁ m' : Moment κ} (hworks : S.Works m m₁) {moves : List (Move κ)}
    (h : S.follow m moves = some m') (hm' : m'.stack = []) : ∃ rest, S.follow m₁ rest = some m' := by
  obtain ⟨n, hn⟩ := hworks
  induction n generalizing m moves with
  | zero =>
    obtain rfl := Option.some_inj.1 hn
    exact ⟨moves, h⟩
  | succ n ih =>
    obtain ⟨m₂, hmove, hrest⟩ := S.follow_cons_eq_some_iff.1 hn
    have hbusy := S.isEmpty_of_move hmove
    cases moves with
    | nil =>
      obtain rfl := Option.some_inj.1 h
      rw [hm'] at hbusy
      contradiction
    | cons mv moves =>
      obtain ⟨m₃, hmv, hmoves⟩ := S.follow_cons_eq_some_iff.1 h
      cases mv with
      | act a =>
        have hidle := S.isEmpty_of_move hmv
        rw [hbusy] at hidle
        contradiction
      | work =>
        obtain rfl := Option.some_inj.1 (hmove.symm.trans hmv)
        exact ih hmoves hrest

/-! ## What comes of a finder at work -/

/-- the innermost finder alone can leave the stack in a move, and then its plan has come to its end -/
theorem concludes_of_move {m m' : Moment κ} {mv : Move κ} (h : S.move m mv = some m') {k : κ} (hk : k ∈ m.working)
    (hk' : k ∉ m'.working) : ∃ plan rest e, m.stack = ⟨k, plan⟩ :: rest ∧ S.Concludes m.state plan e ∧
      m'.state = (S.settle k (e, m.state)).2 := by
  cases S.turn_of_move h with
  | rests hstack _ _ _ =>
    rw [Moment.working, hstack] at hk
    contradiction
  | called hstack _ =>
    rw [Moment.working, hstack] at hk
    contradiction
  | waited _ _ _ => exact absurd (List.mem_cons_of_mem _ hk) hk'
  | proceeded hstack _ hm' _ _ =>
    rw [Moment.working, hm'] at hk'
    rw [Moment.working, hstack] at hk
    exact absurd hk hk'
  | @concluded key plan rest e hstack hplan =>
    rw [Moment.working, hstack, List.map_cons] at hk
    rcases List.mem_cons.1 hk with rfl | hk
    · exact ⟨plan, rest, e, hstack, hplan, rfl⟩
    · exact absurd hk hk'

/-- a failure that a finder keeps after a move was kept before, or is what its plan has just come to -/
theorem failed_of_move {m m' : Moment κ} {mv : Move κ} (h : S.move m mv = some m') {k : κ} {e : Failure}
    {source : Option κ} (hk : m'.state.slots k = .failed e source) : m.state.slots k = .failed e source ∨
      e.finder = S.name k ∧ ∃ plan rest, m.stack = ⟨k, plan⟩ :: rest ∧ S.Concludes m.state plan (.fail e.fault source) := by
  have henter : ∀ key, (S.enter m key).state.slots k = .failed e source → m.state.slots k = .failed e source := by
    intro key hkey
    by_cases hne : k = key
    · rw [hne, enter, State.setSlot_self] at hkey
      cases hkey
    · rwa [enter, State.setSlot_of_ne _ hne] at hkey
  cases S.turn_of_move h with
  | rests _ _ hslots _ => exact .inl (hslots ▸ hk)
  | called _ _ => exact .inl (henter _ hk)
  | waited _ _ _ => exact .inl (henter _ hk)
  | proceeded _ _ _ hslots _ => exact .inl (hslots ▸ hk)
  | @concluded key plan rest ending hstack hplan =>
    by_cases hkey : k = key
    · subst hkey
      cases ending with
      | ok v =>
        rw [settle, State.setSlot_self] at hk
        cases hk
      | fail f source' =>
        rw [settle, State.setSlot_self] at hk
        cases hk
        exact .inr ⟨rfl, plan, rest, hstack, hplan⟩
    · exact .inl (slots_settle_of_ne hkey (ending, m.state) ▸ hk)

/-- **A finder at work takes what its own plan comes to**, whatever happens in the meantime. -/
theorem settled_by_own_plan {m m' : Moment κ} {moves : List (Move κ)} (hm : Consistent m)
    (h : S.follow m moves = some m') {k : κ} (hk : k ∈ m.working) (hk' : k ∉ m'.working) :
    ∃ before after m₁ plan rest e, moves = before ++ .work :: after ∧ S.follow m before = some m₁ ∧
      m₁.stack = ⟨k, plan⟩ :: rest ∧ S.Concludes m₁.state plan e ∧
      (m'.state.slots k).outcome? = some (S.settle k (e, m₁.state)).1 := by
  induction moves generalizing m with
  | nil =>
    obtain rfl := Option.some_inj.1 h
    contradiction
  | cons mv moves ih =>
    obtain ⟨m₂, hmv, hmoves⟩ := S.follow_cons_eq_some_iff.1 h
    by_cases hk₂ : k ∈ m₂.working
    · obtain ⟨before, after, m₁, plan, rest, e, rfl, hbefore, hrest⟩ := ih (S.move_consistent hmv hm) hmoves hk₂
      exact ⟨mv :: before, after, m₁, plan, rest, e, rfl, S.follow_cons_eq_some_iff.2 ⟨m₂, hmv, hbefore⟩, hrest⟩
    · obtain ⟨plan, rest, e, hstack, hplan, hstate⟩ := concludes_of_move hmv hk hk₂
      obtain rfl : mv = .work := by
        have hbusy := S.isEmpty_of_move hmv
        rw [hstack] at hbusy
        cases mv with
        | work => rfl
        | act a => contradiction
      have hkept : (m₂.state.slots k).outcome? = some (S.settle k (e, m.state)).1 := by
        rw [hstate]
        exact outcome?_settle k (e, m.state)
      refine ⟨[], moves, m, plan, rest, e, rfl, rfl, hstack, hplan, ?_⟩
      rw [S.slot_eq_of_follow (S.move_consistent hmv hm) hmoves (Option.isSome_of_eq_some hkept), hkept]

end Survey

end Landmark
