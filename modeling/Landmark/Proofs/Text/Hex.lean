/-
Hex digits, and the two of a byte.

Each of the two denotes the half of the byte it was written for, and neither is a blank.
- `digitValue?_eq_some_iff`: which characters are digits.
- `digitValue?_digit`, `ofNat_halves`: the digits give the halves back, and the halves the byte.
- `isWord_byteDigits`: a byte is written as one word.
-/
import Landmark.Proofs.Text.Blank
import Landmark.Text.Hex

namespace Landmark.Hex

theorem digitValue?_digit {n : Nat} (h : n < 16) : digitValue? (digit n) = some n := by
  have hall : ∀ i : Fin 16, digitValue? (digit i) = some i.val := by decide
  exact hall ⟨n, h⟩

theorem digitValue?_lt {c : Char} {n : Nat} (h : digitValue? c = some n) : n < 16 := by
  unfold digitValue? at h
  split at h
  · next hc =>
    have hle : c.toNat ≤ 57 := hc.2
    cases h
    omega
  split at h
  · next hc =>
    have hle : c.toNat ≤ 70 := hc.2
    cases h
    omega
  split at h
  · next hc =>
    have hle : c.toNat ≤ 102 := hc.2
    cases h
    omega
  · contradiction

/-- a digit of either case has its value -/
theorem digitValue?_toLower_digit {n : Nat} (h : n < 16) : digitValue? (digit n).toLower = some n := by
  have hall : ∀ i : Fin 16, digitValue? (digit i).toLower = some i.val := by decide
  exact hall ⟨n, h⟩

/-- the character is the digit of `n`, in either case -/
def IsDigit (c : Char) (n : Nat) : Prop :=
  n < 16 ∧ (c = digit n ∨ c = (digit n).toLower)

theorem toLower_digit {n : Nat} (h : n < 16) :
    (digit n).toLower = if n < 10 then Char.ofNat (48 + n) else Char.ofNat (87 + n) := by
  have hall : ∀ i : Fin 16, (digit i).toLower = if i.val < 10 then Char.ofNat (48 + i) else Char.ofNat (87 + i) := by decide
  exact hall ⟨n, h⟩

theorem digitValue?_eq_some_iff {c : Char} {n : Nat} : digitValue? c = some n ↔ IsDigit c n := by
  constructor
  · intro h
    refine ⟨digitValue?_lt h, ?_⟩
    unfold digitValue? at h
    split at h
    · next hc =>
      have hlow : 48 ≤ c.toNat := hc.1
      have hhigh : c.toNat ≤ 57 := hc.2
      obtain rfl := Option.some.inj h
      left
      rw [digit, if_pos (by omega), Nat.add_sub_of_le hlow, Char.ofNat_toNat]
    split at h
    · next hc =>
      have hlow : 65 ≤ c.toNat := hc.1
      obtain rfl := Option.some.inj h
      left
      rw [digit, if_neg (by omega), Nat.add_sub_of_le (by omega), Char.ofNat_toNat]
    split at h
    · next hc =>
      have hlow : 97 ≤ c.toNat := hc.1
      have hhigh : c.toNat ≤ 102 := hc.2
      obtain rfl := Option.some.inj h
      right
      rw [toLower_digit (by omega), if_neg (by omega), Nat.add_sub_of_le (by omega), Char.ofNat_toNat]
    · contradiction
  · rintro ⟨hn, rfl | rfl⟩
    · exact digitValue?_digit hn
    · exact digitValue?_toLower_digit hn

theorem isBlank_digit {n : Nat} (h : n < 16) : Text.isBlank (digit n) = false := by
  have hall : ∀ i : Fin 16, Text.isBlank (digit i) = false := by decide
  exact hall ⟨n, h⟩

/-- a character that is no digit stands for none -/
theorem digit_ne {c : Char} (hc : digitValue? c = none) {n : Nat} (h : n < 16) : digit n ≠ c := by
  rintro rfl
  rw [digitValue?_digit h] at hc
  contradiction

theorem high_lt (b : UInt8) : b.toNat / 16 < 16 := by
  have := b.toNat_lt
  omega

theorem low_lt (b : UInt8) : b.toNat % 16 < 16 := Nat.mod_lt _ (by decide)

/-- two halves make the byte -/
theorem ofNat_halves (b : UInt8) : UInt8.ofNat (16 * (b.toNat / 16) + b.toNat % 16) = b := by
  rw [Nat.div_add_mod, UInt8.ofNat_toNat]

theorem mem_byteDigits {c : Char} {b : UInt8} :
    c ∈ byteDigits b ↔ c = digit (b.toNat / 16) ∨ c = digit (b.toNat % 16) := by
  rw [byteDigits, List.mem_cons, List.mem_singleton]

theorem isWord_byteDigits (b : UInt8) : Text.IsWord (byteDigits b) := by
  refine ⟨List.cons_ne_nil _ _, ?_⟩
  intro c hc
  rcases mem_byteDigits.1 hc with rfl | rfl
  · exact isBlank_digit (high_lt b)
  · exact isBlank_digit (low_lt b)

theorem toList_byteText (b : UInt8) : (byteText b).toList = byteDigits b := String.toList_ofList

end Landmark.Hex
