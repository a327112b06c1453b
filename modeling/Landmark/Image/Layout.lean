/-
Images and the checks that accept them.

A `Draft` is what a loader hands over. `Draft.fault?` is the first thing wrong with its section table: a raw range outside
the file or a mapped part outside the 32-bit spaces, section by section, and then two sections whose mapped parts meet. An
`Image` is a draft nothing is wrong with, so every image has been checked.
-/
import Landmark.Fault
import Landmark.Image.Metadata
import Landmark.Image.Section

namespace Landmark

/-- file bytes, section table, import slots and metadata, as yet unchecked -/
structure Draft where
  bytes : Array UInt8
  sections : List Section
  imports : List ImportSlot
  metadata : Metadata

namespace Draft

/-- what is wrong with one section of a file of `size` bytes -/
def sectionFault? (size : Nat) (s : Section) : Option Fault :=
  if size < s.rawOffset.toNat + s.rawSize.toNat then some (.readPastEnd s.rawOffset s.rawSize.toNat)
  else if s.fits then none
  else some (.outOfRange s.virtualAddress .virtual)

/-- the first two sections that overlap, earlier ones first -/
def overlapping? : List Section → Option (Section × Section)
  | [] => none
  | s :: rest =>
    match rest.find? s.overlaps with
    | some t => some (s, t)
    | none => overlapping? rest

/-- the first thing wrong with the section table -/
def fault? (d : Draft) : Option Fault :=
  match d.sections.findSome? (sectionFault? d.bytes.size) with
  | some f => some f
  | none =>
    match overlapping? d.sections with
    | some (s, t) => some (.invalidImage ("sections " ++ s.name ++ " and " ++ t.name ++ " overlap"))
    | none => none

end Draft

/-- a draft with a sound section table -/
structure Image extends Draft where
  sound : toDraft.fault? = none

/-- accepts a draft unless something is wrong with it -/
def Draft.accept (d : Draft) : Except Fault Image :=
  match h : d.fault? with
  | none => .ok ⟨d, h⟩
  | some f => .error f

namespace Image

/-- the first section with this name -/
def sectionNamed? (image : Image) (name : String) : Option Section :=
  image.sections.find? (·.name == name)

/-- address of the first import slot that serves the function -/
def importSlot? (image : Image) (function : String) (library : Option String) : Option UInt32 :=
  (image.imports.find? (·.serves function library)).map (·.address)

/-- virtual address of a physical one -/
def toVirtual (image : Image) (p : UInt32) : Except Fault UInt32 :=
  match image.sections.findSome? (·.toVirtual p) with
  | some v => .ok v
  | none => .error (.outOfRange p .physical)

/-- physical address of a virtual one -/
def toPhysical (image : Image) (v : UInt32) : Except Fault UInt32 :=
  match image.sections.findSome? (·.toPhysical v) with
  | some p => .ok p
  | none => .error (.outOfRange v .virtual)

/-- physical span of the code: the mapped part of the first executable section, or the whole file -/
def codeRange (image : Image) : UInt32 × UInt32 :=
  match image.sections.find? (·.executable) with
  | some s => (s.rawOffset, s.rawEnd)
  | none => (0, UInt32.ofNat image.bytes.size)

/-- bytes from a physical offset on -/
def readBytes (image : Image) (offset : UInt32) (size : Nat) : Except Fault (List UInt8) :=
  if offset.toNat + size ≤ image.bytes.size then
    .ok (image.bytes.extract offset.toNat (offset.toNat + size)).toList
  else .error (.readPastEnd offset size)

/-- little-endian word at a physical offset -/
def readWord (image : Image) (offset : UInt32) : Except Fault UInt32 :=
  (image.readBytes offset 4).map Word.ofBytes

/-- virtual target of the relative call at a physical offset -/
def callTarget (image : Image) (offset : UInt32) : Except Fault UInt32 :=
  match Word.addExact offset 5 with
  | none => .error (.readPastEnd offset 5)
  | some next => do
    let distance ← image.readWord (offset + 1)
    let origin ← image.toVirtual next
    return origin + distance

end Image

end Landmark
