/-
The data archive.

The archive's name is pushed for the file manager to open. VC14 builds load the manager, test a result and set a flag before
the push; that form is tried first where the linker is new enough. Otherwise the push stands right before or right after the
instruction that loads the manager, and the former goes first.
-/
import Landmark.Survey.Plan

namespace Landmark.Finder

/-- name of the manager among captured values -/
def fileManager : String := "g_fileMgr"

/-- MOV ECX, manager -/
def loadFileManager : Signature :=
  Instruction.movRegImm .ecx (.capture fileManager)

/-- PUSH of the archive's name -/
def pushName (address : UInt32) : Signature :=
  Instruction.pushImm32 (.value address)

/-- manager loaded, result tested, flag set, name pushed -/
def newArchiveCode (address : UInt32) : Signature :=
  loadFileManager ++ Instruction.testRegReg .eax .eax ++ Instruction.setneMem .any ++ pushName address

/-- offset of the code that handles the name, and the manager -/
def newArchive {κ : Type} (image : Image) (address : UInt32) : Plan κ (Option (UInt32 × UInt32)) := do
  let code := newArchiveCode address
  let found ← Plan.signature image code
  return found.bind fun m =>
    (m.capture? fileManager).map fun g => (m.stop code - UInt32.ofNat (pushName address).size, g)

/-- the same in other builds -/
def oldArchive {κ : Type} (image : Image) (address : UInt32) : Plan κ (Option (UInt32 × UInt32)) := do
  match ← Plan.signature image (pushName address ++ loadFileManager) with
  | some m => return (m.capture? fileManager).map fun g => (m.offset, g)
  | none =>
    let found ← Plan.signature image (loadFileManager ++ pushName address)
    return found.bind fun m => (m.capture? fileManager).map fun g => (m.offset, g)

/-- code of the new form where it can be, and of the old one otherwise -/
def archiveCode {κ : Type} (image : Image) (isVc14 : Bool) (address : UInt32) :
    Plan κ (Option (UInt32 × UInt32)) := do
  let found ← if isVc14 then newArchive image address else pure none
  match found with
  | some r => return some r
  | none => oldArchive image address

/-- the data archive and its manager -/
def archive {κ : Type} (image : Image) : Plan κ Archive := do
  let facts ← Plan.theFacts
  let name := if facts.post2010 then "data.grf" else "sdata.grf"
  let address ← Plan.require (.anchorMissing "'data.grf' not found") (← Plan.text (rawText name) .plain)
  let (reference, manager) ← Plan.require (.signatureMissing "'data.grf' not used")
    (← archiveCode image facts.isVc14 address)
  return ⟨name, address, reference, manager⟩

end Landmark.Finder
