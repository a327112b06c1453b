/-
JSON values.

Objects keep the order of their members and may hold a key twice; what that means is up to the reader of a value. A string
literal may name half of a surrogate pair and then has no text. `soundWithin` tells whether a value can be held in memory
as data: every string has a text, every number is finite, and containers nest no deeper than the given number of levels.
-/
namespace Landmark

/-- a number: mantissa times a power of ten; `integral` when it is written with digits alone -/
structure Number where
  negative : Bool
  mantissa : Nat
  exponent : Int
  integral : Bool
  deriving DecidableEq, Repr

namespace Number

def ofNat (n : Nat) : Number := ⟨false, n, 0, true⟩

/-- the natural number written with digits alone -/
def nat? (n : Number) : Option Nat :=
  if n.integral && !n.negative then some n.mantissa else none

/-- `n` with its 53 highest bits kept, the rest rounded to nearest and halves to even -/
def roundBits (n : Nat) : Nat :=
  let unit := Nat.pow 2 (n.log2 - 52)
  let q := n / unit
  let r := n % unit
  (if unit < 2 * r ∨ (2 * r = unit ∧ q % 2 = 1) then q + 1 else q) * unit

/-- the leading decimal digits that make less than 2^64, as a number, and how many digits are left out -/
def leading (n : Nat) : Nat × Nat :=
  let k := (Nat.toDigits 10 n).length - 20
  let m := n / Nat.pow 10 k
  if m < UInt64.size then (m, k) else (m / 10, k + 1)

/-- the number is infinite in double precision, its leading digits, the power of ten and their product being rounded one
after the other -/
def overflows (n : Number) : Bool :=
  let (m, k) := leading n.mantissa
  let e := n.exponent + k
  if m = 0 ∨ e ≤ 0 then false
  else if 308 < e then true
  else Nat.pow 2 1024 ≤ roundBits (roundBits m * roundBits (Nat.pow 10 e.toNat))

end Number

inductive Json where
  | null
  | bool (b : Bool)
  | number (n : Number)
  /-- a string and its text, if it has one -/
  | string (text : Option String)
  | array (items : List Json)
  | object (members : List (Option String × Json))
  deriving Repr, Inhabited

namespace Json

def ofString (s : String) : Json := string (some s)

def ofNat (n : Nat) : Json := number (.ofNat n)

/-- object with the given members -/
def ofMembers (ms : List (String × Json)) : Json :=
  object (ms.map fun m => (some m.1, m.2))

mutual

/-- every string has a text, every number is finite, and at most `levels` containers nest -/
def soundWithin (levels : Nat) : Json → Bool
  | null => true
  | bool _ => true
  | number n => !n.overflows
  | string t => t.isSome
  | array vs =>
    match levels with
    | 0 => false
    | l + 1 => itemsSound l vs
  | object ms =>
    match levels with
    | 0 => false
    | l + 1 => membersSound l ms

def itemsSound (levels : Nat) : List Json → Bool
  | [] => true
  | v :: vs => v.soundWithin levels && itemsSound levels vs

def membersSound (levels : Nat) : List (Option String × Json) → Bool
  | [] => true
  | (k, v) :: ms => k.isSome && v.soundWithin levels && membersSound levels ms

end

end Json

end Landmark
