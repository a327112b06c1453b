/-
Finding a text in the mapped bytes of an image.

An occurrence lies wholly inside the mapped part of one section. A bounded one is a string of its own: it is preceded by a
zero byte or by the start of the section and followed by a zero byte inside the section. Occurrences are tried from the
start of the section on, and after one that is not bounded the search goes on one byte behind its start, so occurrences
may overlap. The answer is the lowest occurrence in the first section of the table that has one.
-/
import Landmark.Image.Layout
import Landmark.Search

namespace Landmark

/-- bytes of a text that is stored as it stands -/
def rawText (s : String) : List UInt8 :=
  s.toUTF8.toList

/-- how a text is looked for, and in which space the answer is given -/
structure TextQuery where
  space : Space
  caseSensitive : Bool
  bounded : Bool
  deriving DecidableEq, Repr

namespace TextQuery

/-- a string of its own, letter case counting, answered virtually -/
def plain : TextQuery := ⟨.virtual, true, true⟩

def physical (q : TextQuery) : TextQuery := { q with space := .physical }

def anyCase (q : TextQuery) : TextQuery := { q with caseSensitive := false }

def unbounded (q : TextQuery) : TextQuery := { q with bounded := false }

/-- two bytes count as equal -/
def same (q : TextQuery) (a b : UInt8) : Bool :=
  if q.caseSensitive then a == b else Text.lowerByte a == Text.lowerByte b

/-- the needle stands in the data at `i`, wholly before `stop` -/
def occurs (q : TextQuery) (data : Array UInt8) (stop i : Nat) : List UInt8 → Bool
  | [] => true
  | b :: bs =>
    if h : i < stop ∧ i < data.size then q.same (getElem data i h.2) b && q.occurs data stop (i + 1) bs else false

/-- a zero byte, or the edge at `start`, comes before `i`, and a zero byte follows `n` bytes later -/
def isBounded (data : Array UInt8) (start stop i n : Nat) : Bool :=
  (i == start || data[i - 1]? == some 0) && decide (i + n < stop) && data[i + n]? == some 0

/-- lowest position from `i` on where the needle stands, wholly before `stop` -/
def findNeedle (q : TextQuery) (data : Array UInt8) (needle : List UInt8) (stop i : Nat) : Option Nat :=
  leastFrom (fun k => q.occurs data stop k needle) i (stop + 1 - i - needle.length)

/-- lowest position in a window where the needle stands as the query demands; an empty needle stands nowhere -/
def findIn (q : TextQuery) (data : Array UInt8) (needle : List UInt8) (start stop : Nat) : Option Nat :=
  if needle.isEmpty then none
  else
    leastPassing (q.findNeedle data needle stop) (fun i => !q.bounded || isBounded data start stop i needle.length) start
      (stop - start)

end TextQuery

namespace Image

/-- physical offset of the lowest hit in the mapped part of a section -/
def findTextInSection (image : Image) (needle : List UInt8) (q : TextQuery) (s : Section) : Option Nat :=
  q.findIn image.bytes needle s.rawOffset.toNat s.rawEnd.toNat

/-- address of the text in the first section that has it -/
def findText (image : Image) (needle : List UInt8) (q : TextQuery) : Option UInt32 :=
  match image.sections.findSome? fun s => (image.findTextInSection needle q s).map fun i => (s, UInt32.ofNat i) with
  | none => none
  | some (s, i) =>
    match q.space with
    | .physical => some i
    | .virtual => s.toVirtual i

end Image

end Landmark
