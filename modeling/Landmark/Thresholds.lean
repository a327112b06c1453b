/-
Dates and linker versions at which clients changed.

Each number marks the first or the last build in which a compiler setting, a string table or a feature was seen to change.
`Thresholds.standard` holds the numbers in use; a survey may be run with others.
-/
import Landmark.Image.Metadata

namespace Landmark

structure Thresholds where
  /-- builds after this date keep their data in data.grf -/
  post2010 : UInt32
  /-- builds after this date have `codeShift` bytes of extra code in front of the first function -/
  codeShiftAfter : UInt32
  codeShift : UInt32
  /-- length of the window searched for a function that sets up a frame pointer -/
  prologueWindow : UInt32
  /-- the hidden login exists after this date -/
  hiddenLoginFrom : UInt32
  /-- and before this one -/
  hiddenLoginUntil : UInt32
  /-- or before this one in clients that are not of the Zero variant -/
  hiddenLoginUntilNonZero : UInt32
  /-- first build with packet keys -/
  packetKeysFrom : UInt32
  /-- builds before this date know clientinfo.xml alone -/
  sakrayClientInfoFrom : UInt32
  /-- first major linker version of the VC14 tools -/
  vc14Major : UInt8
  /-- the linker whose builds compare some strings in parts -/
  splitCompareLinker : LinkerVersion
  deriving DecidableEq, Repr

/-- the numbers in use -/
def Thresholds.standard : Thresholds where
  post2010 := 20100000
  codeShiftAfter := 20220000
  codeShift := 0x3000
  prologueWindow := 0x500
  hiddenLoginFrom := 20100803
  hiddenLoginUntil := 20171018
  hiddenLoginUntilNonZero := 20181114
  packetKeysFrom := 20110817
  sakrayClientInfoFrom := 20081100
  vc14Major := 14
  splitCompareLinker := ⟨14, 29⟩

end Landmark
