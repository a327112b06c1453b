/-
Every load comes to an end.

Who asks for whom may go round in a circle, so no order on the finders decreases. What never grows is the number of finders
at work and of unresolved ones together: a finder that starts goes from the one to the other, and one that ends leaves the
first without coming back to the second.
- `active_le_of_move`, `active_le_of_follow`: that number never grows, in a move and along a course.
- `loadWithin_eq_load`: `load` needs no more plans inside one another than there are unresolved finders.
- `load_terminates`: all of it together.
-/
import Landmark.Proofs.Survey.Cycle
import Mathlib.Data.Finset.Card

namespace Landmark

namespace Survey

variable {κ : Type} [DecidableEq κ] (S : Survey κ)

/-- the finders that are unresolved -/
def unresolved (st : State κ) : Finset κ :=
  S.keys.toFinset.filter fun k => (st.slots k).isUnresolved = true

theorem mem_unresolved {st : State κ} {k : κ} : k ∈ S.unresolved st ↔ (st.slots k).isUnresolved = true := by
  rw [unresolved, Finset.mem_filter, List.mem_toFinset, and_iff_right (S.mem_keys k)]

theorem unresolved_congr {st st' : State κ} (h : st'.slots = st.slots) : S.unresolved st' = S.unresolved st := by
  rw [unresolved, h, unresolved]

/-! ## Finders at work -/

/-- a finder that starts is unresolved no more -/
theorem card_unresolved_enter {m : Moment κ} {key : κ} (h : (m.state.slots key).isUnresolved = true) :
    (S.unresolved (S.enter m key).state).card + 1 = (S.unresolved m.state).card := by
  have herase : S.unresolved (S.enter m key).state = (S.unresolved m.state).erase key := by
    ext k
    rw [Finset.mem_erase, mem_unresolved, mem_unresolved, enter]
    by_cases hk : k = key
    · subst hk
      simp [State.setSlot_self, Slot.isUnresolved]
    · rw [State.setSlot_of_ne _ hk, and_iff_right hk]
  rw [herase, Finset.card_erase_add_one (S.mem_unresolved.2 h)]

/-- a finder that ends does not become unresolved again -/
theorem unresolved_settle_subset (key : κ) (r : Ending κ Finding × State κ) :
    S.unresolved (S.settle key r).2 ⊆ S.unresolved r.2 := by
  intro k hk
  rw [mem_unresolved] at hk ⊢
  exact S.shrinks_settle key r k hk

variable {S}

/-- **A move leaves the number of finders at work and of unresolved ones together as it is, or lowers it.** -/
theorem active_le_of_move {m m' : Moment κ} {mv : Move κ} (h : S.move m mv = some m') :
    m'.stack.length + (S.unresolved m'.state).card ≤ m.stack.length + (S.unresolved m.state).card := by
  cases S.turn_of_move h with
  | rests hm hm' hslots _ => rw [hm, hm', S.unresolved_congr hslots]
  | @called key _ hkey =>
    have hlength : (S.enter m key).stack.length = m.stack.length + 1 := rfl
    have hcard := S.card_unresolved_enter hkey
    omega
  | @waited _ k _ _ _ _ hk =>
    have hlength : (S.enter m k).stack.length = m.stack.length + 1 := rfl
    have hcard := S.card_unresolved_enter hk
    omega
  | proceeded hm _ hm' hslots _ => rw [hm, hm', S.unresolved_congr hslots, List.length_cons, List.length_cons]
  | @concluded key plan rest e hm _ =>
    have hsubset := Finset.card_le_card (S.unresolved_settle_subset key (e, m.state))
    rw [hm, List.length_cons]
    exact Nat.add_le_add (Nat.le_succ _) hsubset

theorem active_le_of_follow {m m' : Moment κ} {moves : List (Move κ)} (h : S.follow m moves = some m') :
    m'.stack.length + (S.unresolved m'.state).card ≤ m.stack.length + (S.unresolved m.state).card := by
  induction moves generalizing m with
  | nil =>
    obtain rfl := Option.some_inj.1 h
    exact Nat.le_refl _
  | cons mv moves ih =>
    obtain ⟨m₁, hmv, hrest⟩ := S.follow_cons_eq_some_iff.1 h
    exact (ih hrest).trans (active_le_of_move hmv)

/-- once nobody is at work, no plan can go on -/
theorem le_of_follow_replicate {m m' m₁ : Moment κ} {n k : Nat} (h : S.follow m (.replicate n .work) = some m')
    (hm' : m'.stack = []) (hk : S.follow m (.replicate k .work) = some m₁) : k ≤ n := by
  by_contra hlt
  obtain ⟨d, rfl⟩ : ∃ d, k = n + (d + 1) := ⟨k - n - 1, by omega⟩
  rw [← List.replicate_append_replicate, S.follow_append, h, Option.bind_some, List.replicate_succ,
    S.follow_cons_eq_some_iff] at hk
  obtain ⟨m₂, hwork, -⟩ := hk
  have hbusy := S.isEmpty_of_move hwork
  rw [hm'] at hbusy
  contradiction

/-! ## Plans inside one another -/

variable (S)

/-- the same survey, with no finder listed twice -/
def listedOnce : Survey κ :=
  { S with keys := S.keys.dedup, mem_keys := fun k => List.mem_dedup.2 (S.mem_keys k) }

theorem pending_listedOnce (st : State κ) : S.listedOnce.pending st = (S.unresolved st).card := by
  have hlist : S.unresolved st = (S.keys.dedup.filter fun k => (st.slots k).isUnresolved).toFinset := by
    ext k
    rw [mem_unresolved, List.mem_toFinset, List.mem_filter, List.mem_dedup, and_iff_right (S.mem_keys k)]
  rw [hlist, List.toFinset_card_of_nodup ((List.nodup_dedup _).filter _), ← List.countP_eq_length_filter]
  rfl

theorem card_unresolved_le_pending (st : State κ) : (S.unresolved st).card ≤ S.pending st := by
  rw [← pending_listedOnce]
  exact (List.dedup_sublist S.keys).countP_le

variable {S}

/-- a plan that comes to an end does so too with a loader that answers more -/
theorem exec_of_listedOnce {load load' : Loader κ} (hl : ∀ k st x, load k st = some x → load' k st = some x)
    {plan : Plan κ Finding} {st : State κ} {x : Ending κ Finding × State κ}
    (h : S.listedOnce.exec load plan st = some x) : S.exec load' plan st = some x := by
  induction plan generalizing st with
  | done a => exact h
  | fail f => exact h
  | findText needle q next ih => exact ih _ h
  | findSignature sig a b next ih => exact ih _ h
  | facts next ih => exact ih _ h
  | tree next ih => exact ih _ h
  | status k next ih => exact ih _ h
  | attempt k next ih =>
    rw [exec] at h ⊢
    cases hload : load k st with
    | none => rw [hload] at h; contradiction
    | some a =>
      rw [hload] at h
      rw [hl k st a hload]
      exact ih _ h
  | depend k next ih =>
    rw [exec] at h ⊢
    cases hload : load k st with
    | none => rw [hload] at h; contradiction
    | some a =>
      obtain ⟨r, st₁⟩ := a
      rw [hload] at h
      rw [hl k st _ hload]
      cases r with
      | ok v => exact ih _ h
      | error e => exact h

/-- what is answered is answered too with more plans allowed inside one another -/
theorem loadWithin_of_listedOnce {n n' : Nat} (hle : n ≤ n') {k : κ} {st : State κ}
    {x : Except Failure Finding × State κ} (h : S.listedOnce.loadWithin n k st = some x) :
    S.loadWithin n' k st = some x := by
  induction n generalizing n' k st x with
  | zero =>
    obtain ⟨r, hr, rfl⟩ := Option.map_eq_some_iff.1 h
    exact S.loadWithin_of_replay hr n'
  | succ n ih =>
    cases hr : S.replay k (st.slots k) with
    | some r =>
      rw [S.listedOnce.loadWithin_of_replay hr] at h
      rw [S.loadWithin_of_replay hr, h]
    | none =>
      obtain ⟨l, rfl⟩ : ∃ l, n' = l + 1 := ⟨n' - 1, by omega⟩
      have hr' : S.listedOnce.replay k (st.slots k) = none := hr
      simp only [loadWithin, hr'] at h
      simp only [loadWithin, hr]
      obtain ⟨y, hexec, rfl⟩ := Option.map_eq_some_iff.1 h
      have hplan : S.exec (S.loadWithin l) (S.plan k) (st.setSlot k .resolving) = some y :=
        exec_of_listedOnce (fun _ _ _ => ih (Nat.le_of_succ_le_succ hle)) hexec
      rw [hplan]
      rfl

/-- **As many plans inside one another as there are unresolved finders are enough**, and more make no difference. -/
theorem loadWithin_eq_load (key : κ) {st : State κ} {n : Nat} (h : (S.unresolved st).card ≤ n) :
    S.loadWithin n key st = some (S.load key st) := by
  obtain ⟨r, st', hload, -⟩ :=
    S.listedOnce.loadWithin_adequate (S.unresolved st).card key st (Nat.le_of_eq (S.pending_listedOnce st))
  rw [loadWithin_of_listedOnce h hload, ← loadWithin_pending,
    loadWithin_of_listedOnce (S.card_unresolved_le_pending st) hload]

/-! ## Loads from outside -/

variable (S)

/-- **Every load returns.** Whatever the slots hold and whoever asks for whom, a load from outside comes to an end with the
answer and the state that `load` gives, and no plan can go on after that. Until then there are never more finders at work than
there were unresolved ones when it began, not even together with those that are still unresolved; and `load` itself runs no
more plans inside one another than that. -/
theorem load_terminates (key : κ) (st : State κ) (begun : List κ) (surveyed : Nat) :
    (∀ n, (S.unresolved st).card ≤ n → S.loadWithin n key st = some (S.load key st)) ∧
    ∃ n m', S.follow ⟨[], st, begun, surveyed⟩ (.act (.load key) :: .replicate n .work) = some m' ∧ m'.stack = [] ∧
      m'.state = (S.load key st).2 ∧ S.replay key (m'.state.slots key) = some (S.load key st).1 ∧
      ∀ k m, S.follow ⟨[], st, begun, surveyed⟩ (.act (.load key) :: .replicate k .work) = some m →
        k ≤ n ∧ m.stack.length + (S.unresolved m.state).card ≤ (S.unresolved st).card := by
  refine ⟨fun n hn => loadWithin_eq_load key hn, ?_⟩
  obtain ⟨n, m', hfollow, hm', hstate⟩ := S.exists_follow_act ⟨[], st, begun, surveyed⟩ rfl (.load key)
  refine ⟨n, m', hfollow, hm', hstate, hstate ▸ S.replay_load key st, ?_⟩
  intro k m hk
  have hactive := active_le_of_follow hk
  rw [List.length_nil, Nat.zero_add] at hactive
  obtain ⟨m₁, hact, hwork⟩ := S.follow_cons_eq_some_iff.1 hfollow
  obtain ⟨m₂, hact', hwork'⟩ := S.follow_cons_eq_some_iff.1 hk
  obtain rfl := Option.some_inj.1 (hact.symm.trans hact')
  exact ⟨le_of_follow_replicate hwork hm' hwork', hactive⟩

/-- a ring of three, of which one is taken to be at work already -/
def brokenRing : State (Fin 3) :=
  State.start.setSlot (Fin.last 2) .resolving

/-- The other two are at work at once, which is as many as were unresolved, and the load returns. -/
theorem brokenRing_returns :
    let S := ringSurvey true
    (S.unresolved brokenRing).card = 2 ∧ S.loadWithin 2 0 brokenRing = some (S.load 0 brokenRing) ∧
    ∃ m, S.follow ⟨[], brokenRing, [], 0⟩ [.act (.load 0), .work] = some m ∧ m.stack.length = 2 ∧
      m.stack.length + (S.unresolved m.state).card ≤ 2 := by
  intro S
  obtain ⟨hwithin, _, _, -, -, -, -, hactive⟩ := S.load_terminates 0 brokenRing [] 0
  have hcard : (S.unresolved brokenRing).card = 2 := by decide
  have hbound := (hactive 1 _ rfl).2
  rw [hcard] at hbound
  exact ⟨hcard, hwithin 2 (Nat.le_of_eq hcard), _, rfl, rfl, hbound⟩

end Survey

end Landmark
