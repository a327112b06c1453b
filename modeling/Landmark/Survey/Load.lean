/-
Loading a finder: its plan is run once, and what came of it is kept.

`loadWithin` may start so many plans inside one another. No more can be active at a time than there are slots that were
unresolved at the start (`loadWithin_isSome`), so `load` always has an answer. A finder asked for while it is at work answers
with a cycle, and nothing changes.
-/
import Landmark.Survey.State

namespace Landmark

namespace State

variable {κ : Type}

/-- no finder is unresolved that was not before -/
def Shrinks (st st' : State κ) : Prop :=
  ∀ k, (st'.slots k).isUnresolved = true → (st.slots k).isUnresolved = true

theorem Shrinks.refl (st : State κ) : Shrinks st st := fun _ h => h

theorem Shrinks.trans {a b c : State κ} (h : Shrinks a b) (h' : Shrinks b c) : Shrinks a c :=
  fun k hk => h k (h' k hk)

end State

namespace Survey

variable {κ : Type} (S : Survey κ)

/-- number of finders that are unresolved -/
def pending (st : State κ) : Nat :=
  S.keys.countP fun k => (st.slots k).isUnresolved

theorem pending_le_of_shrinks {st st' : State κ} (h : st.Shrinks st') : S.pending st' ≤ S.pending st :=
  List.countP_mono_left fun k _ => h k

theorem shrinks_of_slots_eq {st st' : State κ} (h : st'.slots = st.slots) : st.Shrinks st' := by
  intro k hk; rwa [h] at hk

theorem pending_pos {st : State κ} {key : κ} (h : (st.slots key).isUnresolved = true) : 0 < S.pending st :=
  List.countP_pos_iff.2 ⟨key, S.mem_keys key, h⟩

theorem slots_facts (st : State κ) : (S.facts st).2.slots = st.slots := by
  unfold Survey.facts
  split <;> rfl

theorem shrinks_facts (st : State κ) : st.Shrinks (S.facts st).2 :=
  shrinks_of_slots_eq (S.slots_facts st)

/-- what a loader is good for: it answers wherever no more than `n` finders are unresolved -/
def Adequate (n : Nat) (load : Loader κ) : Prop :=
  ∀ key st, S.pending st ≤ n → ∃ r st', load key st = some (r, st') ∧ st.Shrinks st'

theorem exec_isSome {n : Nat} {load : Loader κ} (hl : S.Adequate n load) {α : Type} (p : Plan κ α) (st : State κ)
    (h : S.pending st ≤ n) : ∃ e st', S.exec load p st = some (e, st') ∧ st.Shrinks st' := by
  induction p generalizing st with
  | done a => exact ⟨_, _, rfl, .refl st⟩
  | fail f => exact ⟨_, _, rfl, .refl st⟩
  | findText needle q next ih => exact ih _ _ h
  | findSignature sig a b next ih => exact ih _ _ h
  | facts next ih =>
    have hs := S.shrinks_facts st
    obtain ⟨e, st', he, hs'⟩ := ih _ _ (Nat.le_trans (S.pending_le_of_shrinks hs) h)
    exact ⟨e, st', he, hs.trans hs'⟩
  | tree next ih => exact ih _ _ h
  | status key next ih => exact ih _ _ h
  | attempt key next ih =>
    obtain ⟨r, st1, hr, hs⟩ := hl key st h
    obtain ⟨e, st', he, hs'⟩ := ih r st1 (Nat.le_trans (S.pending_le_of_shrinks hs) h)
    exact ⟨e, st', by simp only [exec, hr]; exact he, hs.trans hs'⟩
  | depend key next ih =>
    obtain ⟨r, st1, hr, hs⟩ := hl key st h
    cases r with
    | ok v =>
      obtain ⟨e, st', he, hs'⟩ := ih v st1 (Nat.le_trans (S.pending_le_of_shrinks hs) h)
      exact ⟨e, st', by simp only [exec, hr]; exact he, hs.trans hs'⟩
    | error e => exact ⟨.fail e.asDependency (sourceOf key st1), st1, by simp only [exec, hr], hs⟩

variable [DecidableEq κ]

/-- the answer a slot has ready -/
def replay (key : κ) : Slot κ → Option (Except Failure Finding)
  | .unresolved => none
  | .resolving => some (.error ⟨S.name key, .cyclic (S.name key)⟩)
  | .resolved v => some (.ok v)
  | .failed e _ => some (.error e)

/-- keeps what came of a plan, and answers with it -/
def settle (key : κ) : Ending κ Finding × State κ → Except Failure Finding × State κ
  | (.ok v, st) => (.ok v, st.setSlot key (.resolved v))
  | (.fail f source, st) => (.error ⟨S.name key, f⟩, st.setSlot key (.failed ⟨S.name key, f⟩ source))

/-- loads a finder, with so many plans allowed inside one another -/
def loadWithin : Nat → Loader κ
  | 0, key, st => (S.replay key (st.slots key)).map fun r => (r, st)
  | n + 1, key, st =>
    match S.replay key (st.slots key) with
    | some r => some (r, st)
    | none => (S.exec (loadWithin n) (S.plan key) (st.setSlot key .resolving)).map (S.settle key)

theorem shrinks_setSlot (st : State κ) (key : κ) (s : Slot κ) (h : s.isUnresolved = false) :
    st.Shrinks (st.setSlot key s) := by
  intro k hk
  simp only [State.setSlot] at hk
  split at hk
  · simp [h] at hk
  · exact hk

theorem pending_begin {st : State κ} {key : κ} (h : (st.slots key).isUnresolved = true) :
    S.pending (st.setSlot key .resolving) < S.pending st := by
  have hshrinks : st.Shrinks (st.setSlot key .resolving) := shrinks_setSlot st key .resolving rfl
  have hkey : ((st.setSlot key .resolving).slots key).isUnresolved = false := by
    simp [State.setSlot, Slot.isUnresolved]
  -- the finders unresolved afterwards are among those unresolved before
  have hfilter : (S.keys.filter fun k => ((st.setSlot key .resolving).slots k).isUnresolved) =
      (S.keys.filter fun k => (st.slots k).isUnresolved).filter
        fun k => ((st.setSlot key .resolving).slots k).isUnresolved := by
    rw [List.filter_filter]
    refine List.filter_congr fun k _ => ?_
    rw [Bool.eq_iff_iff, Bool.and_eq_true]
    exact (and_iff_left_of_imp (hshrinks k)).symm
  rw [pending, pending, List.countP_eq_length_filter, List.countP_eq_length_filter, hfilter,
    List.length_filter_lt_length_iff_exists]
  exact ⟨key, List.mem_filter.2 ⟨S.mem_keys key, h⟩, Bool.eq_false_iff.1 hkey⟩

theorem shrinks_settle (key : κ) (r : Ending κ Finding × State κ) : r.2.Shrinks (S.settle key r).2 := by
  obtain ⟨e, st⟩ := r
  cases e <;> exact shrinks_setSlot _ _ _ rfl

omit [DecidableEq κ] in
theorem replay_eq_none_iff {key : κ} {s : Slot κ} : S.replay key s = none ↔ s.isUnresolved = true := by
  cases s <;> simp [replay, Slot.isUnresolved]

/-- a slot that has an answer gives it, and nothing changes -/
theorem loadWithin_of_replay {key : κ} {st : State κ} {r : Except Failure Finding}
    (h : S.replay key (st.slots key) = some r) (n : Nat) : S.loadWithin n key st = some (r, st) := by
  cases n <;> simp only [loadWithin, h, Option.map_some]

/-- no more plans are active at a time than finders were unresolved at the start -/
theorem loadWithin_adequate (n : Nat) : S.Adequate n (S.loadWithin n) := by
  induction n with
  | zero =>
    intro key st h
    cases hr : S.replay key (st.slots key) with
    | some r => exact ⟨r, st, S.loadWithin_of_replay hr 0, .refl st⟩
    | none =>
      have := S.pending_pos (S.replay_eq_none_iff.1 hr)
      omega
  | succ n ih =>
    intro key st h
    cases hr : S.replay key (st.slots key) with
    | some r => exact ⟨r, st, S.loadWithin_of_replay hr (n + 1), .refl st⟩
    | none =>
      have hp := S.pending_begin (S.replay_eq_none_iff.1 hr)
      obtain ⟨e, st', he, hs⟩ := S.exec_isSome ih (S.plan key) (st.setSlot key .resolving) (by omega)
      refine ⟨(S.settle key (e, st')).1, (S.settle key (e, st')).2, ?_, ?_⟩
      · simp only [loadWithin, hr, he, Option.map_some]
      · exact ((shrinks_setSlot st key .resolving rfl).trans hs).trans (S.shrinks_settle key (e, st'))

theorem loadWithin_isSome (key : κ) (st : State κ) : (S.loadWithin (S.pending st) key st).isSome = true := by
  obtain ⟨r, st', h, _⟩ := S.loadWithin_adequate (S.pending st) key st (Nat.le_refl _)
  rw [h]; rfl

/-- value or failure of a finder, its plan being run if that has not been done -/
def load (key : κ) (st : State κ) : Except Failure Finding × State κ :=
  (S.loadWithin (S.pending st) key st).get (S.loadWithin_isSome key st)

end Survey

end Landmark
