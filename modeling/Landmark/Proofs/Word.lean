/-
Sums and bytes of words, told in `Nat`.

`toNat_addSat` and `addExact_eq_some_iff` say what the two sums of words are as numbers; every fact about the ends of ranges
goes through them and is then linear arithmetic. `valueOf_inj` tells strings of bytes apart by the numbers they write, and
`exists_bytes_iff` says that any four bytes are those of a word.
-/
import Landmark.Word

namespace Landmark.Word

theorem toNat_addSat (a b : UInt32) : (addSat a b).toNat = min (a.toNat + b.toNat) 0xFFFFFFFF := by
  have hs : UInt32.size = 0x100000000 := rfl
  unfold addSat
  split
  · rw [UInt32.toNat_add]; omega
  · have h : (0xFFFFFFFF : UInt32).toNat = 0xFFFFFFFF := rfl
    omega

theorem addExact_eq_some_iff {a b c : UInt32} : addExact a b = some c ↔ c.toNat = a.toNat + b.toNat := by
  have hs : UInt32.size = 0x100000000 := rfl
  have hc := c.toNat_lt
  unfold addExact
  split
  · rw [Option.some_inj, ← UInt32.toNat_inj, UInt32.toNat_add]; omega
  · simp only [reduceCtorEq, false_iff]; omega

theorem isSome_addExact {a b : UInt32} : (addExact a b).isSome = true ↔ a.toNat + b.toNat < UInt32.size := by
  unfold addExact
  split <;> simp_all

/-- a sum that does not wrap -/
theorem toNat_add_of_lt {a b : UInt32} (h : a.toNat + b.toNat < UInt32.size) : (a + b).toNat = a.toNat + b.toNat := by
  rw [UInt32.toNat_add]; exact Nat.mod_eq_of_lt h

/-- a difference that does not wrap -/
theorem toNat_sub_of_le {a b : UInt32} (h : b.toNat ≤ a.toNat) : (a - b).toNat = a.toNat - b.toNat :=
  UInt32.toNat_sub_of_le a b (UInt32.le_iff_toNat_le.2 h)

/-- two bytes make a half word at most -/
theorem valueOf_le_of_length_le_two {bs : List UInt8} (h : bs.length ≤ 2) : valueOf bs ≤ 0xFFFF := by
  match bs, h with
  | [], _ => exact Nat.zero_le _
  | [a], _ =>
    have ha := a.toNat_lt
    simp only [valueOf]; omega
  | [a, b], _ =>
    have ha := a.toNat_lt
    have hb := b.toNat_lt
    simp only [valueOf]; omega

theorem valueOf_zeros (n : Nat) : valueOf (List.replicate n 0) = 0 := by
  induction n with
  | zero => rfl
  | succ n ih => rw [List.replicate_succ, valueOf, ih]; rfl

/-- bytes at the high end that are zero count for nothing -/
theorem valueOf_append_zeros (bs : List UInt8) (n : Nat) : valueOf (bs ++ List.replicate n 0) = valueOf bs := by
  induction bs with
  | nil => exact valueOf_zeros n
  | cons b bs ih => rw [List.cons_append, valueOf, valueOf, ih]

/-- byte strings of one length that make the same number are the same -/
theorem valueOf_inj {bs cs : List UInt8} (hlength : bs.length = cs.length) : valueOf bs = valueOf cs ↔ bs = cs := by
  refine ⟨fun h => ?_, congrArg valueOf⟩
  induction bs generalizing cs with
  | nil => exact (List.length_eq_zero_iff.1 hlength.symm).symm
  | cons b bs ih =>
    cases cs with
    | nil => contradiction
    | cons c cs =>
      rw [valueOf, valueOf] at h
      have hb := b.toNat_lt
      have hc := c.toNat_lt
      obtain rfl : b = c := UInt8.toNat_inj.1 (by omega)
      rw [ih (Nat.succ.inj hlength) (by omega)]

/-- four bytes or fewer make a number that is a word -/
theorem toNat_ofBytes {bs : List UInt8} (h : bs.length ≤ 4) : (ofBytes bs).toNat = valueOf bs := by
  have hsplit : valueOf bs = valueOf (bs.take 2) + 0x10000 * valueOf (bs.drop 2) := by
    match bs, h with
    | [], _ => rfl
    | [a], _ => simp [valueOf]
    | a :: b :: bs, _ => simp only [List.take, List.drop, valueOf]; omega
  have hlow := valueOf_le_of_length_le_two (List.length_take_le 2 bs)
  have hhigh : valueOf (bs.drop 2) ≤ 0xFFFF := valueOf_le_of_length_le_two (by rw [List.length_drop]; omega)
  exact UInt32.toNat_ofNat_of_lt' (by have hs : UInt32.size = 0x100000000 := rfl; omega)

theorem valueOf_bytes (w : UInt32) : valueOf (bytes w) = w.toNat := by
  have hlength : (bytes w).length ≤ 4 := Nat.le_refl 4
  rw [← toNat_ofBytes hlength, ofBytes_bytes]

/-- four bytes are those of the word they make -/
theorem bytes_ofBytes {bs : List UInt8} (h : bs.length = 4) : bytes (ofBytes bs) = bs := by
  have hlength : (bytes (ofBytes bs)).length = bs.length := h.symm
  rw [← valueOf_inj hlength, valueOf_bytes, toNat_ofBytes (Nat.le_of_eq h)]

theorem exists_bytes_iff {bs : List UInt8} : (∃ w, bs = bytes w) ↔ bs.length = 4 :=
  ⟨fun ⟨_, h⟩ => h ▸ rfl, fun h => ⟨ofBytes bs, (bytes_ofBytes h).symm⟩⟩

end Landmark.Word
