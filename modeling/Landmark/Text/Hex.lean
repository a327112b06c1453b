/-
Hexadecimal text.

Bytes are written as two upper-case digits with single spaces between them (`encode`), words with a fixed width of eight
digits (`wordDigits`) or without leading zeros (`shortDigits`). `readByte` reads one byte from a token: an optional plus
sign and any number of digits, the value at most 255; the first character that is no digit is reported unless the value
had grown too large before it. `decodeWord` reads a word from exactly four such tokens, lowest byte first.
-/
import Landmark.Word
import Landmark.Text.Blank

namespace Landmark.Hex

/-- upper-case digit of a value below sixteen -/
def digit (n : Nat) : Char :=
  if n < 10 then Char.ofNat (48 + n) else Char.ofNat (55 + n)

/-- value of a digit, either case -/
def digitValue? (c : Char) : Option Nat :=
  if '0' ≤ c ∧ c ≤ '9' then some (c.toNat - 48)
  else if 'A' ≤ c ∧ c ≤ 'F' then some (c.toNat - 55)
  else if 'a' ≤ c ∧ c ≤ 'f' then some (c.toNat - 87)
  else none

/-- the two digits of a byte -/
def byteDigits (b : UInt8) : List Char :=
  [digit (b.toNat / 16), digit (b.toNat % 16)]

def byteText (b : UInt8) : String :=
  String.ofList (byteDigits b)

/-- two digits a byte, single spaces between bytes -/
def encode (bs : List UInt8) : String :=
  " ".intercalate (bs.map byteText)

/-- all eight digits of a word, highest first -/
def wordDigits (w : UInt32) : List Char :=
  (Word.bytes w).reverse.flatMap byteDigits

/-- the digits of a word without leading zeros; zero keeps one -/
def shortDigits (w : UInt32) : List Char :=
  match (wordDigits w).dropWhile (· == '0') with
  | [] => ['0']
  | ds => ds

/-- why a token is no byte -/
inductive TokenFault where
  | invalidDigit
  | tooLarge
  deriving DecidableEq, Repr

def TokenFault.message : TokenFault → String
  | .invalidDigit => "invalid digit found in string"
  | .tooLarge => "number too large to fit in target type"

/-- reads digits on from the value `n` so far -/
def readDigits (n : Nat) : List Char → Except TokenFault Nat
  | [] => .ok n
  | c :: cs =>
    match digitValue? c with
    | none => .error .invalidDigit
    | some d => if 16 * n + d < 256 then readDigits (16 * n + d) cs else .error .tooLarge

/-- the byte a token denotes -/
def readByte : List Char → Except TokenFault Nat
  | [] => .error .invalidDigit
  | ['+'] => .error .invalidDigit
  | '+' :: cs => readDigits 0 cs
  | cs => readDigits 0 cs

/-- why a text is no word -/
inductive WordFault where
  | token (token : List Char) (fault : TokenFault)
  | tooMany
  | tooFew
  deriving DecidableEq, Repr

def WordFault.message (text : String) : WordFault → String
  | .token t f => s!"token '{String.ofList t}': {f.message}"
  | .tooMany => s!"'{text}' has more than 4 bytes"
  | .tooFew => s!"'{text}' is not 4 bytes"

/-- reads tokens while room for `room` more bytes is left -/
def readBytes : (room : Nat) → List (List Char) → Except WordFault (List Nat)
  | 0, [] => .ok []
  | _ + 1, [] => .error .tooFew
  | 0, _ :: _ => .error .tooMany
  | room + 1, t :: ts =>
    match readByte t with
    | .error f => .error (.token t f)
    | .ok b =>
      match readBytes room ts with
      | .error f => .error f
      | .ok bs => .ok (b :: bs)

/-- the word written as four bytes of hex, lowest first -/
def decodeWord (text : String) : Except WordFault UInt32 :=
  match readBytes 4 (Text.words text.toList) with
  | .error f => .error f
  | .ok bs => .ok (Word.ofBytes (bs.map UInt8.ofNat))

end Landmark.Hex
