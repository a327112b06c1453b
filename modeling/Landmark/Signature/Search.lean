/-
Finding a signature in a byte string.

A signature is looked for in two steps. `coarse` gives value and mask for every byte and leaves out only what a mask cannot
say: of a choice of bytes it keeps the bits they agree on. `findMasked` finds the least position where all masks agree; if
the first byte is fixed it jumps from one occurrence of that byte to the next. `choicesHold` then checks the choices, and
the search goes on behind a candidate that fails. A `Sighting` is where the signature stands and what its captures read.
-/
import Landmark.Image.Layout
import Landmark.Search
import Landmark.Signature.Token

namespace Landmark

namespace Segment

/-- value and mask that keep the bits on which all values agree -/
def commonBits : List UInt8 → UInt8 × UInt8
  | [] => (0, 0)
  | v :: vs =>
    let differ := vs.foldl (fun acc b => acc ||| (b ^^^ v)) 0
    (v &&& ~~~differ, ~~~differ)

/-- value and mask of every byte covered -/
def coarse : Segment → List (UInt8 × UInt8)
  | literal bs => bs.map fun b => (b, 0xFF)
  | wildcard n => List.replicate n (0, 0)
  | masked v m => [(v &&& m, m)]
  | oneOf vs => [commonBits vs]
  | capture _ w (some v) => (lowBytes w v).map fun b => (b, 0xFF)
  | capture _ w none => List.replicate w.size (0, 0)

end Segment

/-- the byte at `i` is `b` -/
def byteIs (data : Array UInt8) (b : UInt8) (i : Nat) : Bool :=
  if h : i < data.size then data[i] == b else false

/-- from `i` on, every byte agrees with its value where its mask says so -/
def masksHold (data : Array UInt8) : List (UInt8 × UInt8) → Nat → Bool
  | [], _ => true
  | (v, m) :: rest, i =>
    if h : i < data.size then data[i] &&& m == v && masksHold data rest (i + 1) else false

/-- least position in the window from `start` to `stop` where all masks hold -/
def findMasked (data : Array UInt8) (masks : List (UInt8 × UInt8)) (start stop : Nat) : Option Nat :=
  match masks with
  | [] => none
  | (v, m) :: _ =>
    let n := stop + 1 - start - masks.length
    if m = 0xFF then
      leastPassing (fun i => leastFrom (byteIs data v) i (start + n - i)) (masksHold data masks) start n
    else leastFrom (masksHold data masks) start n

namespace Signature

/-- value and mask of every byte covered -/
def coarse (sig : Signature) : List (UInt8 × UInt8) :=
  sig.segments.flatMap Segment.coarse

/-- every choice of bytes among the segments holds, the first segment being at `i` -/
def choicesHoldFrom (data : Array UInt8) (i : Nat) : List Segment → Bool
  | [] => true
  | s :: rest =>
    (match s with
      | .oneOf vs => vs.any (byteIs data · i)
      | _ => true) && choicesHoldFrom data (i + s.size) rest

/-- every choice of bytes holds in the data at `i` -/
def choicesHold (sig : Signature) (data : Array UInt8) (i : Nat) : Bool :=
  choicesHoldFrom data i sig.segments

/-- least position in the window from `start` to `stop` where the signature stands -/
def findIn (sig : Signature) (data : Array UInt8) (start stop : Nat) : Option Nat :=
  let masks := sig.coarse
  leastPassing (findMasked data masks · stop) (sig.choicesHold data) start (stop - start)

/-- names and values of the captures, the first segment being at `i` -/
def capturesFrom (data : Array UInt8) (i : Nat) : List Segment → List (String × UInt32)
  | [] => []
  | s :: rest =>
    match s with
    | .capture n w _ =>
      if i + w.size ≤ data.size then
        (n, Word.ofBytes (data.extract i (i + w.size)).toList) :: capturesFrom data (i + s.size) rest
      else capturesFrom data (i + s.size) rest
    | _ => capturesFrom data (i + s.size) rest

end Signature

/-- a place where a signature stands: physical offset and captured values, in the order of the segments -/
structure Sighting where
  offset : UInt32
  captures : List (String × UInt32)
  deriving DecidableEq, Repr

namespace Sighting

/-- value of the first capture of that name -/
def capture? (m : Sighting) (name : String) : Option UInt32 :=
  (m.captures.find? (·.1 == name)).map (·.2)

/-- offset just past the signature -/
def stop (m : Sighting) (sig : Signature) : UInt32 :=
  m.offset + UInt32.ofNat sig.size

end Sighting

/-- first sighting inside the physical window from `start` to `stop` -/
def Image.findSignature (image : Image) (sig : Signature) (start stop : UInt32) : Option Sighting :=
  (sig.findIn image.bytes start.toNat (min stop.toNat image.bytes.size)).map fun i =>
    ⟨UInt32.ofNat i, Signature.capturesFrom image.bytes i sig.segments⟩

/-- first sighting in the code -/
def Image.findInCode (image : Image) (sig : Signature) : Option Sighting :=
  image.findSignature sig image.codeRange.1 image.codeRange.2

end Landmark
