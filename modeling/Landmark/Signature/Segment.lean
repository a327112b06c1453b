/-
Segments: the parts of a byte signature, and what each of them asks of the bytes it covers.

A segment covers a fixed number of bytes (`size`). `Matches` is its meaning at a position of a byte string. A capture
stands for a little-endian value: bound, it asks for the low bytes of that value, which `lowBytes` writes down; unbound, it
asks for nothing and its value is read off the match.
-/
import Landmark.Word

namespace Landmark

/-- number of bytes of a captured value -/
inductive Width where
  | byte
  | word
  | dword
  deriving DecidableEq, Repr

def Width.size : Width → Nat
  | .byte => 1
  | .word => 2
  | .dword => 4

/-- one part of a signature -/
inductive Segment where
  /-- exactly these bytes -/
  | literal (bytes : List UInt8)
  /-- so many bytes of any value -/
  | wildcard (count : Nat)
  /-- one byte of which only the bits in `mask` count -/
  | masked (value mask : UInt8)
  /-- one byte out of a list -/
  | oneOf (values : List UInt8)
  /-- a little-endian value with a name -/
  | capture (name : String) (width : Width) (bound : Option UInt32)
  deriving DecidableEq, Repr

namespace Segment

/-- number of bytes covered -/
def size : Segment → Nat
  | literal bs => bs.length
  | wildcard n => n
  | masked _ _ => 1
  | oneOf _ => 1
  | capture _ w _ => w.size

/-- the segment that two neighbours make together, if they are of one kind that allows it -/
def merge? : Segment → Segment → Option Segment
  | literal a, literal b => some (literal (a ++ b))
  | wildcard m, wildcard n => some (wildcard (m + n))
  | _, _ => none

/-- low bytes of a bound value -/
def lowBytes (w : Width) (v : UInt32) : List UInt8 :=
  (Word.bytes v).take w.size

/-- the bytes stand in the data from `i` on -/
def StandsAt (data : Array UInt8) (i : Nat) (bs : List UInt8) : Prop :=
  ∀ k < bs.length, data[i + k]? = bs[k]?

/-- the bytes at `i` are such as the segment asks for -/
def Matches (data : Array UInt8) (i : Nat) : Segment → Prop
  | literal bs => StandsAt data i bs
  | wildcard _ => True
  | masked v m => ∃ b, data[i]? = some b ∧ b &&& m = v &&& m
  | oneOf vs => ∃ b ∈ vs, data[i]? = some b
  | capture _ w (some v) => ∀ k < w.size, ∃ b, data[i + k]? = some b ∧ b.toNat = v.toNat / Nat.pow 256 k % 256
  | capture _ _ none => True

end Segment

end Landmark
