/-
What reads of an image answer.

`halfAt` and `wordAt` are the little-endian numbers that the bytes of an image spell at an offset. A read answers with them
exactly if it stays inside the file (`readBytes_eq_ok_iff`, `readWord_eq_ok_iff`), and so do the parts of a longer read
(`ofBytes_slice`, `valueOf_slice`).
-/
import Landmark.Image.Layout
import Landmark.Proofs.Word

namespace Landmark

theorem bind_eq_ok_iff {ε α β : Type} {x : Except ε α} {f : α → Except ε β} {b : β} :
    (x >>= f) = .ok b ↔ ∃ a, x = .ok a ∧ f a = .ok b := by
  cases x <;> simp [bind, Except.bind]

theorem bind_eq_error_iff {ε α β : Type} {x : Except ε α} {f : α → Except ε β} {e : ε} :
    (x >>= f) = .error e ↔ x = .error e ∨ ∃ a, x = .ok a ∧ f a = .error e := by
  cases x <;> simp [bind, Except.bind]

theorem map_eq_ok_iff {ε α β : Type} {x : Except ε α} {f : α → β} {b : β} :
    x.map f = .ok b ↔ ∃ a, x = .ok a ∧ f a = b := by
  cases x <;> simp [Except.map]

namespace Image

/-- half a word at a physical offset -/
def halfAt (image : Image) (i : Nat) : Nat :=
  Word.valueOf (image.bytes.extract i (i + 2)).toList

/-- a word at a physical offset -/
def wordAt (image : Image) (i : Nat) : UInt32 :=
  Word.ofBytes (image.bytes.extract i (i + 4)).toList

/-- so many half words, one behind the other from a physical offset on -/
def halvesAt (image : Image) (i n : Nat) : List Nat :=
  (List.range n).map fun k => image.halfAt (i + k * 2)

variable {image : Image}

theorem halfAt_lt (i : Nat) : image.halfAt i < 0x10000 := by
  refine Nat.lt_succ_of_le (Word.valueOf_le_of_length_le_two ?_)
  rw [Array.length_toList, Array.size_extract]
  omega

theorem halvesAt_succ (i n : Nat) : image.halvesAt i (n + 1) = image.halfAt i :: image.halvesAt (i + 2) n := by
  have hrest : (fun k => image.halfAt (i + (k + 1) * 2)) = fun k => image.halfAt (i + 2 + k * 2) := by
    funext k
    exact congrArg image.halfAt (by omega)
  rw [halvesAt, List.range_succ_eq_map, List.map_cons, List.map_map]
  exact congrArg (image.halfAt i :: List.map · (List.range n)) hrest

theorem readBytes_eq_ok_iff {offset : UInt32} {size : Nat} {bs : List UInt8} : image.readBytes offset size = .ok bs ↔
    offset.toNat + size ≤ image.bytes.size ∧ bs = (image.bytes.extract offset.toNat (offset.toNat + size)).toList := by
  unfold readBytes
  split
  · next h => rw [Except.ok.injEq, and_iff_right h, eq_comm]
  · next h => simp only [reduceCtorEq, false_iff, not_and]; exact fun h' => absurd h' h

theorem readWord_eq_ok_iff {offset w : UInt32} :
    image.readWord offset = .ok w ↔ offset.toNat + 4 ≤ image.bytes.size ∧ w = image.wordAt offset.toNat := by
  rw [readWord, map_eq_ok_iff]
  constructor
  · rintro ⟨bs, hbs, rfl⟩
    obtain ⟨hle, rfl⟩ := readBytes_eq_ok_iff.1 hbs
    exact ⟨hle, rfl⟩
  · rintro ⟨hle, rfl⟩
    exact ⟨_, readBytes_eq_ok_iff.2 ⟨hle, rfl⟩, rfl⟩

/-- a part of what was read is what is read there -/
theorem take_drop_extract (data : Array UInt8) {i j k n : Nat} (h : k + n ≤ j) :
    (((data.extract i (i + j)).toList.drop k).take n) = (data.extract (i + k) (i + k + n)).toList := by
  simp only [Array.toList_extract, List.extract_eq_take_drop, List.drop_take, List.take_take, List.drop_drop]
  congr 1; omega

theorem valueOf_slice {i j k : Nat} (h : k + 2 ≤ j) :
    Word.valueOf (((image.bytes.extract i (i + j)).toList.drop k).take 2) = image.halfAt (i + k) :=
  congrArg Word.valueOf (take_drop_extract _ h)

theorem ofBytes_slice {i j k : Nat} (h : k + 4 ≤ j) :
    Word.ofBytes (((image.bytes.extract i (i + j)).toList.drop k).take 4) = image.wordAt (i + k) :=
  congrArg Word.ofBytes (take_drop_extract _ h)

end Image

end Landmark
