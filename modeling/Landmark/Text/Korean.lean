/-
Text in the Korean double-byte encoding (code page 949).

ASCII stands for itself. Signs, Chinese characters and the common Hangul syllables stand where the character set has them
(`rowCode?`); the other syllables fill the free codes in the order of their code points (`extendedCode`). A character
without a code is written as its decimal character reference.
-/
import Landmark.Text.Korean.Rows

namespace Landmark.Korean

/-- code of a character in one of the rows, the first row having the given first byte -/
def rowCode? (lead : Nat) (c : Char) : List String → Option (Nat × Nat)
  | [] => none
  | row :: rows =>
    match row.toList.idxOf? c with
    | some i => some (lead, 0xA1 + i)
    | none => rowCode? (lead + 1) c rows

/-- second byte of the free code in column `i`: letters first, then the upper half -/
def freeColumn (i : Nat) : Nat :=
  if i < 26 then 0x41 + i else if i < 52 then 0x47 + i else 0x4D + i

/-- free code number `i`: 178 columns up to first byte A0, 84 columns from there on -/
def extendedCode (i : Nat) : Nat × Nat :=
  if i < 32 * 178 then (0x81 + i / 178, freeColumn (i % 178))
  else (0xA1 + (i - 32 * 178) / 84, freeColumn ((i - 32 * 178) % 84))

/-- number of common syllables before a character -/
def commonBefore (c : Char) : Nat :=
  hangulRows.foldr (fun row n => row.toList.countP (· < c) + n) 0

def isSyllable (c : Char) : Bool :=
  0xAC00 ≤ c.toNat && c.toNat ≤ 0xD7A3

/-- the two bytes of a character outside ASCII -/
def code? (c : Char) : Option (Nat × Nat) :=
  if isSyllable c then
    match rowCode? 0xB0 c hangulRows with
    | some code => some code
    | none => some (extendedCode (c.toNat - 0xAC00 - commonBefore c))
  else
    match rowCode? 0xA1 c symbolRows with
    | some code => if c = '\ufffd' then none else some code
    | none => rowCode? 0xCA c hanjaRows

/-- decimal character reference -/
def reference (c : Char) : List UInt8 :=
  ("&#" ++ toString c.toNat ++ ";").toList.map fun d => UInt8.ofNat d.toNat

def encodeChar (c : Char) : List UInt8 :=
  if c.toNat < 0x80 then [UInt8.ofNat c.toNat]
  else
    match code? c with
    | some (lead, trail) => [UInt8.ofNat lead, UInt8.ofNat trail]
    | none => reference c

/-- bytes of a text -/
def encode (text : String) : List UInt8 :=
  text.toList.flatMap encodeChar

end Landmark.Korean
