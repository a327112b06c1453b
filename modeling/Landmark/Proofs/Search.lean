/-
What a search for a least position answers.

`Finds q i r` says that `r` is the answer of an exhaustive search from `i` on for a position where `q` holds: the least one,
or none if there is none. Bounds of a range are part of `q`. `finds_leastFrom` and `finds_leastPassing` say that both ways of
searching are exhaustive; the second one may ask a source of candidates, if that source is exhaustive itself.
-/
import Landmark.Search

namespace Landmark

/-- the answer of a search from `i` on for the least position where `q` holds -/
def Finds (q : Nat → Prop) (i : Nat) : Option Nat → Prop
  | some j => i ≤ j ∧ q j ∧ ∀ k, i ≤ k → k < j → ¬ q k
  | none => ∀ k, i ≤ k → ¬ q k

theorem Finds.congr {q q' : Nat → Prop} {i : Nat} {r : Option Nat} (h : Finds q i r) (hq : ∀ k, i ≤ k → (q k ↔ q' k)) :
    Finds q' i r := by
  cases r with
  | none =>
    intro k hk hq'
    exact h k hk ((hq k hk).2 hq')
  | some j =>
    obtain ⟨hi, hj, hleast⟩ := h
    refine ⟨hi, (hq j hi).1 hj, ?_⟩
    intro k hk hkj hq'
    exact hleast k hk hkj ((hq k hk).2 hq')

theorem Finds.isSome_iff {q : Nat → Prop} {i : Nat} {r : Option Nat} (h : Finds q i r) :
    r.isSome = true ↔ ∃ k, i ≤ k ∧ q k := by
  cases r with
  | none =>
    simp only [Option.isSome_none, Bool.false_eq_true, false_iff]
    rintro ⟨k, hk, hq⟩
    exact h k hk hq
  | some j => exact ⟨fun _ => ⟨j, h.1, h.2.1⟩, fun _ => rfl⟩

theorem Finds.le {q : Nat → Prop} {i j k : Nat} (h : Finds q i (some j)) (hk : i ≤ k) (hq : q k) : j ≤ k :=
  Nat.le_of_not_lt fun hlt => h.2.2 k hk hlt hq

/-- there is one answer to a search -/
theorem Finds.unique {q : Nat → Prop} {i : Nat} {r r' : Option Nat} (h : Finds q i r) (h' : Finds q i r') : r = r' := by
  cases r with
  | none =>
    cases r' with
    | none => rfl
    | some j => exact absurd h'.2.1 (h j h'.1)
  | some j =>
    cases r' with
    | none => exact absurd h.2.1 (h' j h.1)
    | some j' => rw [Nat.le_antisymm (h.le h'.1 h'.2.1) (h'.le h.1 h.2.1)]

section

variable {q : Nat → Prop} {i : Nat} {r : Option Nat}

/-- with nothing to be found before `i`, the answer is the least of all -/
theorem Finds.eq_some_iff (h : Finds q i r) (hq : ∀ k, q k → i ≤ k) {j : Nat} : r = some j ↔ q j ∧ ∀ k < j, ¬ q k := by
  constructor
  · rintro rfl
    exact ⟨h.2.1, fun k hkj hk => h.2.2 k (hq k hk) hkj hk⟩
  · rintro ⟨hj, hleast⟩
    exact h.unique ⟨hq j hj, hj, fun k _ => hleast k⟩

theorem Finds.eq_none_iff (h : Finds q i r) (hq : ∀ k, q k → i ≤ k) : r = none ↔ ∀ k, ¬ q k := by
  constructor
  · rintro rfl k hk
    exact h k (hq k hk) hk
  · intro hnone
    exact h.unique fun k _ => hnone k

end

/-- the same search, counted from another place -/
theorem Finds.shift {q : Nat → Prop} {i : Nat} {r : Option Nat} (h : Finds (fun k => q (i + k)) 0 r) :
    Finds q i (r.map (i + ·)) := by
  cases r with
  | none =>
    intro k hk hq
    have hback : q (i + (k - i)) := by rwa [Nat.add_sub_cancel' hk]
    exact h (k - i) (Nat.zero_le _) hback
  | some j =>
    obtain ⟨-, hj, hleast⟩ := h
    refine ⟨Nat.le_add_right i j, hj, ?_⟩
    intro k hk (hlt : k < i + j) hq
    have hback : q (i + (k - i)) := by rwa [Nat.add_sub_cancel' hk]
    exact hleast (k - i) (Nat.zero_le _) (by omega) hback

/-- nothing from `i` up to a candidate that fails passes, so a search from behind it answers for `i` too -/
theorem Finds.behind {q p : Nat → Prop} {i j : Nat} {r : Option Nat} (h : Finds q i (some j)) (hp : ¬ p j)
    (hrest : Finds (fun k => q k ∧ p k) (j + 1) r) : Finds (fun k => q k ∧ p k) i r := by
  obtain ⟨hij, -, hleast⟩ := h
  have hskip : ∀ k, i ≤ k → q k ∧ p k → j + 1 ≤ k := by
    rintro k hk ⟨hq, hpk⟩
    rcases Nat.lt_trichotomy k j with hlt | rfl | hgt
    · exact absurd hq (hleast k hk hlt)
    · exact absurd hpk hp
    · exact hgt
  cases r with
  | none =>
    intro k hk hq
    exact hrest k (hskip k hk hq) hq
  | some l =>
    obtain ⟨hl, hql, hleast'⟩ := hrest
    refine ⟨by omega, hql, ?_⟩
    intro k hk hkl hq
    exact hleast' k (hskip k hk hq) hkl hq

/-- trying every position is exhaustive -/
theorem finds_leastFrom (p : Nat → Bool) (i n : Nat) : Finds (fun k => k < i + n ∧ p k = true) i (leastFrom p i n) := by
  cases hr : leastFrom p i n with
  | none =>
    rintro k hk ⟨hlt, hp⟩
    rw [leastFrom_eq_none_iff.1 hr k hk hlt] at hp; contradiction
  | some j =>
    obtain ⟨hi, hj, hp, hleast⟩ := leastFrom_eq_some_iff.1 hr
    refine ⟨hi, ⟨hj, hp⟩, ?_⟩
    rintro k hk hkj ⟨_, hq⟩
    rw [hleast k hk hkj] at hq; contradiction

/-- **Skipping loses nothing.** If the source of candidates is exhaustive and no candidate is `n` or more positions away,
trying candidates alone finds the least one that passes. -/
theorem finds_leastPassing {q : Nat → Prop} {candidate : Nat → Option Nat} (p : Nat → Bool) {i n : Nat}
    (hc : ∀ k, i ≤ k → Finds q k (candidate k)) (hn : ∀ k, q k → k < i + n) :
    Finds (fun k => q k ∧ p k = true) i (leastPassing candidate p i n) := by
  induction n generalizing i with
  | zero =>
    rintro k hk ⟨hq, _⟩
    have := hn k hq; omega
  | succ n ih =>
    have hi := hc i (Nat.le_refl i)
    rw [leastPassing]
    cases hr : candidate i with
    | none =>
      rw [hr] at hi
      intro k hk hq
      exact hi k hk hq.1
    | some j =>
      rw [hr] at hi
      by_cases hp : p j = true
      · simp only [if_pos hp]
        obtain ⟨hij, hj, hleast⟩ := hi
        refine ⟨hij, ⟨hj, hp⟩, ?_⟩
        intro k hk hkj hq
        exact hleast k hk hkj hq.1
      · simp only [if_neg hp]
        have hij := hi.1
        have hnext : ∀ k, q k → k < j + 1 + n := by
          intro k hq
          have := hn k hq
          omega
        exact hi.behind hp (ih (fun k hk => hc k (by omega)) hnext)

end Landmark
