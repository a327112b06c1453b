/-
Searching a range of positions for the least one that passes a test.

`leastFrom` tries every position. `leastPassing` asks for candidates instead and tries only those, so it may skip what the
source of candidates skips; it goes on one position after a candidate that fails.
-/
namespace Landmark

/-- least of the `n` positions from `i` on that passes -/
def leastFrom (p : Nat → Bool) (i : Nat) : Nat → Option Nat
  | 0 => none
  | n + 1 => if p i then some i else leastFrom p (i + 1) n

/-- least candidate from `i` on that passes; `n` bounds the number of candidates tried -/
def leastPassing (candidate : Nat → Option Nat) (p : Nat → Bool) (i : Nat) : Nat → Option Nat
  | 0 => none
  | n + 1 =>
    match candidate i with
    | none => none
    | some j => if p j then some j else leastPassing candidate p (j + 1) n

/-- `leastFrom` finds exactly the least position in its range that passes -/
theorem leastFrom_eq_some_iff {p : Nat → Bool} {i n j : Nat} :
    leastFrom p i n = some j ↔ i ≤ j ∧ j < i + n ∧ p j = true ∧ ∀ k, i ≤ k → k < j → p k = false := by
  induction n generalizing i with
  | zero => simp only [leastFrom]; constructor <;> grind
  | succ n ih =>
    simp only [leastFrom]
    split
    · next h => constructor <;> grind
    · next h => rw [ih]; constructor <;> grind

/-- `leastFrom` finds nothing exactly when nothing in its range passes -/
theorem leastFrom_eq_none_iff {p : Nat → Bool} {i n : Nat} :
    leastFrom p i n = none ↔ ∀ k, i ≤ k → k < i + n → p k = false := by
  induction n generalizing i with
  | zero => simp only [leastFrom]; constructor <;> grind
  | succ n ih =>
    simp only [leastFrom]
    split
    · next h => constructor <;> grind
    · next h => rw [ih]; constructor <;> grind

end Landmark
