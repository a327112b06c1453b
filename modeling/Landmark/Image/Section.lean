/-
One entry of the section table.

Only the part of a section that is backed by file bytes has both a physical and a virtual address; within that part
(`mappedSize` bytes) the two differ by a constant shift. Ends stop at the largest word, so `fits` tells whether the whole
mapped part lies below the end of both 32-bit spaces.
-/
import Landmark.Word

namespace Landmark

/-- a section; `virtualAddress` counts from zero, the image base included -/
structure Section where
  name : String
  rawOffset : UInt32
  rawSize : UInt32
  virtualAddress : UInt32
  virtualSize : UInt32
  executable : Bool
  deriving DecidableEq, Repr

namespace Section

/-- section of code that is as large in memory as in the file -/
def code (name : String) (rawOffset rawSize virtualAddress : UInt32) : Section :=
  ⟨name, rawOffset, rawSize, virtualAddress, rawSize, true⟩

/-- the same without code -/
def data (name : String) (rawOffset rawSize virtualAddress : UInt32) : Section :=
  { code name rawOffset rawSize virtualAddress with executable := false }

/-- another size in memory -/
def withVirtualSize (s : Section) (size : UInt32) : Section :=
  { s with virtualSize := size }

/-- number of bytes that exist both in the file and in memory -/
def mappedSize (s : Section) : UInt32 :=
  if s.virtualSize = 0 then s.rawSize else min s.rawSize s.virtualSize

/-- end of the mapped part in the file -/
def rawEnd (s : Section) : UInt32 :=
  Word.addSat s.rawOffset s.mappedSize

/-- end of the mapped part in memory -/
def virtualEnd (s : Section) : UInt32 :=
  Word.addSat s.virtualAddress s.mappedSize

def holdsPhysical (s : Section) (p : UInt32) : Bool :=
  s.rawOffset ≤ p && p < s.rawEnd

def holdsVirtual (s : Section) (v : UInt32) : Bool :=
  s.virtualAddress ≤ v && v < s.virtualEnd

/-- the mapped part ends inside both spaces -/
def fits (s : Section) : Bool :=
  (Word.addExact s.rawOffset s.mappedSize).isSome && (Word.addExact s.virtualAddress s.mappedSize).isSome

/-- virtual address of a physical one -/
def toVirtual (s : Section) (p : UInt32) : Option UInt32 :=
  if s.holdsPhysical p then Word.addExact s.virtualAddress (p - s.rawOffset) else none

/-- physical address of a virtual one -/
def toPhysical (s : Section) (v : UInt32) : Option UInt32 :=
  if s.holdsVirtual v then Word.addExact s.rawOffset (v - s.virtualAddress) else none

/-- the mapped parts meet in the file or in memory -/
def overlaps (a b : Section) : Bool :=
  (a.rawOffset < b.rawEnd && b.rawOffset < a.rawEnd)
    || (a.virtualAddress < b.virtualEnd && b.virtualAddress < a.virtualEnd)

end Section

end Landmark
