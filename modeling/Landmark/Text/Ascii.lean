/-
Comparison up to the case of ASCII letters.

`lowerByte` and `Char.toLower` move the twenty-six letters A to Z and leave everything else alone.
-/
namespace Landmark.Text

/-- lower-case form of an ASCII letter -/
def lowerByte (b : UInt8) : UInt8 :=
  if 0x41 ≤ b ∧ b ≤ 0x5A then b + 0x20 else b

/-- equal up to the case of ASCII letters -/
def sameIgnoringCase (s t : String) : Bool :=
  s.toList.map Char.toLower == t.toList.map Char.toLower

end Landmark.Text
