/-
Reading the resource tree of an image.

A directory is a header of sixteen bytes, which ends with the numbers of named and of numbered entries, and eight bytes an
entry: the id, or the place of its name when the high bit is set, and the place of the node, which is a directory when the
high bit is set. All places are relative to the start of the first directory. Directories may nest eight deep, and none may
be met twice, so reading ends on every input.
-/
import Landmark.Image.Layout
import Landmark.Resource.Tree
import Landmark.Text.Utf16

namespace Landmark.Resource

/-- number of directories that may nest -/
def maxDepth : Nat := 8

/-- size of a header and of a data entry -/
def headerSize : Nat := 16

/-- size of an entry -/
def entrySize : Nat := 8

/-- the bit that tells names from numbers and directories from data -/
def highBit (w : UInt32) : Bool :=
  0x80000000 ≤ w

/-- the other bits -/
def lowBits (w : UInt32) : UInt32 :=
  w &&& 0x7FFFFFFF

/-- physical offset of a relative place that `size` bytes are wanted from; all must be words -/
def place (base relative : UInt32) (size : Nat) : Except Fault UInt32 :=
  if base.toNat + relative.toNat + size < UInt32.size then .ok (base + relative)
  else .error (.readPastEnd relative size)

/-- a directory as messages name it -/
def placeText (relative : UInt32) : String :=
  "resource directory +0x" ++ String.ofList (Hex.shortDigits relative)

def tooDeep (relative : UInt32) : Fault :=
  .invalidImage (placeText relative ++ " is nested deeper than " ++ toString maxDepth ++ " levels")

def metTwice (relative : UInt32) : Fault :=
  .invalidImage (placeText relative ++ " is referenced more than once")

/-- name at a relative place: a count and so many 16-bit units -/
def readName (image : Image) (base relative : UInt32) : Except Fault String := do
  let offset ← place base relative 2
  let count ← image.readBytes offset 2
  let units ← image.readBytes (offset + 2) (Word.valueOf count * 2)
  return Utf16.text units

/-- data entry at a relative place -/
def readData (image : Image) (base relative : UInt32) : Except Fault ResourceData := do
  let entry ← place base relative headerSize
  let bytes ← image.readBytes entry headerSize
  return ⟨entry, Word.ofBytes (bytes.take 4), Word.ofBytes ((bytes.drop 4).take 4), Word.ofBytes ((bytes.drop 8).take 4)⟩

/-- number of entries a header announces -/
def entryCount (header : List UInt8) : Nat :=
  Word.valueOf ((header.drop 12).take 2) + Word.valueOf ((header.drop 14).take 2)

/-- reads a directory at a relative place, given the directories met so far; gives these back with what it met -/
abbrev Descent := UInt32 → List UInt32 → Except Fault (ResourceNode × List UInt32)

/-- entry `index` of the directory at a relative place -/
def readEntry (image : Image) (base relative : UInt32) (descend : Descent) (index : Nat) (met : List UInt32) :
    Except Fault ((ResourceId × ResourceNode) × List UInt32) := do
  let start ← place base relative (headerSize + (index + 1) * entrySize)
  let entry := start + UInt32.ofNat (headerSize + index * entrySize)
  let name ← image.readWord entry
  let target ← image.readWord (entry + 4)
  let id ← if highBit name then (readName image base (lowBits name)).map ResourceId.name else .ok (.number name)
  if highBit target then
    let (node, met) ← descend (lowBits target) met
    return ((id, node), met)
  else
    let data ← readData image base target
    return ((id, .data data), met)

/-- the `count` entries from `index` on -/
def readEntries (image : Image) (base relative : UInt32) (descend : Descent) (index : Nat) :
    (count : Nat) → List UInt32 → Except Fault (List (ResourceId × ResourceNode) × List UInt32)
  | 0, met => .ok ([], met)
  | count + 1, met => do
    let (entry, met) ← readEntry image base relative descend index met
    let (entries, met) ← readEntries image base relative descend (index + 1) count met
    return (entry :: entries, met)

/-- directory at a relative place, `levels` more directories being allowed to nest -/
def readDirectory (image : Image) (base : UInt32) : (levels : Nat) → Descent
  | 0, relative, _ => .error (tooDeep relative)
  | levels + 1, relative, met =>
    if met.contains relative then .error (metTwice relative)
    else do
      let offset ← place base relative headerSize
      let header ← image.readBytes offset headerSize
      let (entries, met) ←
        readEntries image base relative (readDirectory image base levels) 0 (entryCount header) (relative :: met)
      return (.directory offset entries, met)

/-- the tree whose first directory is at a physical offset -/
def readTree (image : Image) (base : UInt32) : Except Fault ResourceNode :=
  (readDirectory image base maxDepth 0 []).map (·.1)

end Landmark.Resource
