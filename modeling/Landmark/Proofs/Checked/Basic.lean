/-
Steps that have to be in range.

Cutting a part out of a buffer, looking up a byte and forming a sum of words have no answer out of range, and no fault stands
for that either: they rely on what was checked before. A `Hazard` is such a step taken out of range, and a `Checked` program
stops at the first one, so a program that ends with an answer has taken every one of its steps in range. `part_eq`,
`byte_eq`, `put_eq`, `add_eq`, `sub_eq` and `mul_eq` say when a step is.
-/
import Landmark.Proofs.Word

namespace Landmark

/-- a step out of range -/
inductive Hazard where
  /-- a part of a buffer of `size` bytes -/
  | part (start stop size : Nat)
  /-- a byte of a buffer of `size` bytes -/
  | byte (index size : Nat)
  /-- a difference of sizes -/
  | shortfall (a b : Nat)
  /-- windows of no bytes -/
  | window
  /-- a part filled with more or fewer bytes than it has -/
  | filling (size count : Nat)
  | sum (a b : UInt32)
  | difference (a b : UInt32)
  | product (a b : UInt32)
  deriving DecidableEq, Repr

/-- programs that stop at the first step out of range -/
abbrev Checked := Except Hazard

namespace Checked

/-- bytes from `start` up to `stop` -/
def part (bytes : Array UInt8) (start stop : Nat) : Checked (Array UInt8) :=
  if start ≤ stop ∧ stop ≤ bytes.size then .ok (bytes.extract start stop) else .error (.part start stop bytes.size)

/-- the byte at `index` -/
def byte (bytes : List UInt8) (index : Nat) : Checked UInt8 :=
  match bytes[index]? with
  | some b => .ok b
  | none => .error (.byte index bytes.length)

/-- the bytes with the one at `index` replaced -/
def put (bytes : List UInt8) (index : Nat) (b : UInt8) : Checked (List UInt8) :=
  if index < bytes.length then .ok (bytes.set index b) else .error (.byte index bytes.length)

/-- number of bytes left of `a` without `b` of them -/
def minus (a b : Nat) : Checked Nat :=
  if b ≤ a then .ok (a - b) else .error (.shortfall a b)

def add (a b : UInt32) : Checked UInt32 :=
  if a.toNat + b.toNat < UInt32.size then .ok (a + b) else .error (.sum a b)

def sub (a b : UInt32) : Checked UInt32 :=
  if b.toNat ≤ a.toNat then .ok (a - b) else .error (.difference a b)

def mul (a b : UInt32) : Checked UInt32 :=
  if a.toNat * b.toNat < UInt32.size then .ok (a * b) else .error (.product a b)

/-- number in two bytes, the low one first -/
def half (bytes : List UInt8) (index : Nat) : Checked Nat := do
  let low ← byte bytes index
  let high ← byte bytes (index + 1)
  return Word.valueOf [low, high]

/-- word in four bytes, the lowest one first -/
def word (bytes : List UInt8) (index : Nat) : Checked UInt32 := do
  let b0 ← byte bytes index
  let b1 ← byte bytes (index + 1)
  let b2 ← byte bytes (index + 2)
  let b3 ← byte bytes (index + 3)
  return Word.ofBytes [b0, b1, b2, b3]

@[simp]
theorem ok_bind {α β : Type} (a : α) (f : α → Checked β) : (Except.ok a >>= f) = f a := rfl

theorem part_eq {bytes : Array UInt8} {start stop : Nat} (hstart : start ≤ stop) (hstop : stop ≤ bytes.size) :
    part bytes start stop = .ok (bytes.extract start stop) :=
  if_pos ⟨hstart, hstop⟩

theorem minus_eq {a b : Nat} (h : b ≤ a) : minus a b = .ok (a - b) :=
  if_pos h

section

variable {a b : UInt32}

theorem add_eq (h : a.toNat + b.toNat < UInt32.size) : add a b = .ok (a + b) :=
  if_pos h

theorem sub_eq (h : b.toNat ≤ a.toNat) : sub a b = .ok (a - b) :=
  if_pos h

theorem mul_eq (h : a.toNat * b.toNat < UInt32.size) : mul a b = .ok (a * b) :=
  if_pos h

end

theorem add_ofNat (m n : Nat) (h : m + n < UInt32.size) : add (.ofNat m) (.ofNat n) = .ok (.ofNat (m + n)) := by
  have hm : (UInt32.ofNat m).toNat = m := UInt32.toNat_ofNat_of_lt' (by omega)
  have hn : (UInt32.ofNat n).toNat = n := UInt32.toNat_ofNat_of_lt' (by omega)
  rw [UInt32.ofNat_add, add_eq (by rw [hm, hn]; exact h)]

theorem mul_ofNat (m n : Nat) (hm : m < UInt32.size) (hn : n < UInt32.size) (h : m * n < UInt32.size) :
    mul (.ofNat m) (.ofNat n) = .ok (.ofNat (m * n)) := by
  rw [UInt32.ofNat_mul, mul_eq (by rw [UInt32.toNat_ofNat_of_lt' hm, UInt32.toNat_ofNat_of_lt' hn]; exact h)]

section

variable {bytes : List UInt8} {index : Nat}

theorem byte_eq (h : index < bytes.length) : byte bytes index = .ok bytes[index] := by
  rw [byte, List.getElem?_eq_getElem h]

theorem put_eq (h : index < bytes.length) (b : UInt8) : put bytes index b = .ok (bytes.set index b) :=
  if_pos h

theorem half_eq (h : index + 2 ≤ bytes.length) :
    half bytes index = .ok (Word.valueOf ((bytes.drop index).take 2)) := by
  have h0 : index < bytes.length := by omega
  have h1 : index + 1 < bytes.length := by omega
  rw [half, byte_eq h0, byte_eq h1, List.drop_eq_getElem_cons h0, List.drop_eq_getElem_cons h1]
  rfl

theorem word_eq (h : index + 4 ≤ bytes.length) :
    word bytes index = .ok (Word.ofBytes ((bytes.drop index).take 4)) := by
  have h0 : index < bytes.length := by omega
  have h1 : index + 1 < bytes.length := by omega
  have h2 : index + 2 < bytes.length := by omega
  have h3 : index + 3 < bytes.length := by omega
  rw [word, byte_eq h0, byte_eq h1, byte_eq h2, byte_eq h3, List.drop_eq_getElem_cons h0, List.drop_eq_getElem_cons h1,
    List.drop_eq_getElem_cons h2, List.drop_eq_getElem_cons h3]
  rfl

end

end Checked

end Landmark
