/-
The written form of a signature: one token a byte, separated by blanks.

A token is two hex digits, either of which may be a question mark for a free half; a lone question mark for a free byte;
value and mask with a slash between; or two or more bytes of which any will do, with bars between. `text` writes that form
and `read` accepts it; captures are written as the bytes they are bound to, or as free bytes.
-/
import Landmark.Fault
import Landmark.Signature.Basic

namespace Landmark

namespace Segment

/-- the byte two hex digits denote -/
def hexPair? : List Char → Option UInt8
  | [c, d] =>
    match Hex.digitValue? c, Hex.digitValue? d with
    | some h, some l => some (UInt8.ofNat (16 * h + l))
    | _, _ => none
  | _ => none

/-- value and mask of half a byte -/
def half? (c : Char) : Option (Nat × Nat) :=
  if c = '?' then some (0, 0) else (Hex.digitValue? c).map fun n => (n, 15)

/-- segment of a byte with a mask -/
def ofMask (value mask : UInt8) : Segment :=
  if mask = 0xFF then literal [value] else if mask = 0 then wildcard 1 else masked (value &&& mask) mask

/-- the segment a token denotes -/
def ofToken? (t : List Char) : Option Segment :=
  if t = ['?'] ∨ t = ['?', '?'] then some (wildcard 1)
  else if t.contains '|' then ((t.splitOn '|').mapM hexPair?).map oneOf
  else if t.contains '/' then
    match hexPair? (t.takeWhile (· != '/')), hexPair? ((t.dropWhile (· != '/')).drop 1) with
    | some v, some m => some (ofMask v m)
    | _, _ => none
  else
    match t with
    | [c, d] =>
      match half? c, half? d with
      | some (h, hm), some (l, lm) =>
        let value := UInt8.ofNat (16 * h + l)
        let mask := UInt8.ofNat (16 * hm + lm)
        some (if mask = 0xFF then literal [value] else masked value mask)
      | _, _ => none
    | _ => none

/-- token of a byte of which only some bits count -/
def maskToken (value mask : UInt8) : String :=
  if mask = 0xFF then Hex.byteText value
  else if mask = 0xF0 then String.ofList [Hex.digit (value.toNat / 16), '?']
  else if mask = 0x0F then String.ofList ['?', Hex.digit (value.toNat % 16)]
  else if mask = 0 then "??"
  else Hex.byteText (value &&& mask) ++ "/" ++ Hex.byteText mask

/-- tokens of a segment -/
def tokens : Segment → List String
  | literal bs => bs.map Hex.byteText
  | wildcard n => List.replicate n "??"
  | masked v m => [maskToken v m]
  | oneOf vs => ["|".intercalate (vs.map Hex.byteText)]
  | capture _ w (some v) => (lowBytes w v).map Hex.byteText
  | capture _ w none => List.replicate w.size "??"

end Segment

namespace Signature

/-- tokens of all segments, in order -/
def tokens (sig : Signature) : List String :=
  sig.segments.flatMap Segment.tokens

/-- written form -/
def text (sig : Signature) : String :=
  " ".intercalate sig.tokens

/-- adds the segments of further tokens -/
def readTokens (sig : Signature) : List (List Char) → Except Fault Signature
  | [] => .ok sig
  | t :: ts =>
    match Segment.ofToken? t with
    | none => .error (.invalidSignature ("Invalid signature token '" ++ String.ofList t ++ "'"))
    | some s => (sig.push s).readTokens ts

/-- the signature a text denotes -/
def read (text : String) : Except Fault Signature :=
  match readTokens empty (Text.words text.toList) with
  | .error f => .error f
  | .ok sig => if sig.isEmpty then .error (.invalidSignature "pattern is empty") else .ok sig

end Signature

end Landmark
