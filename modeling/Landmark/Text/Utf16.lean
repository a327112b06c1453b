/-
Text from 16-bit units.

A high unit followed by a low one is a character; any other surrogate is replaced by U+FFFD, so every sequence of units has a
text.
-/
namespace Landmark.Utf16

/-- first unit of a pair -/
def isHigh (u : Nat) : Bool := 0xD800 ≤ u && u < 0xDC00

/-- second unit of a pair -/
def isLow (u : Nat) : Bool := 0xDC00 ≤ u && u < 0xE000

/-- the character of a pair -/
def pairChar (h l : Nat) : Char :=
  Char.ofNat (0x10000 + (h - 0xD800) * 0x400 + (l - 0xDC00))

/-- what stands for a unit that is half of no pair -/
def replacement : Char := '\ufffd'

/-- the character of a unit on its own -/
def unitChar (u : Nat) : Char :=
  if isHigh u || isLow u then replacement else Char.ofNat u

/-- characters of a sequence of units -/
def decode : List Nat → List Char
  | [] => []
  | [u] => [unitChar u]
  | h :: l :: rest => if isHigh h && isLow l then pairChar h l :: decode rest else unitChar h :: decode (l :: rest)

/-- little-endian units of a byte string; an odd last byte is left out -/
def units : List UInt8 → List Nat
  | a :: b :: rest => (a.toNat + 256 * b.toNat) :: units rest
  | _ => []

/-- text of little-endian units -/
def text (bytes : List UInt8) : String :=
  String.ofList (decode (units bytes))

end Landmark.Utf16
