/-
The service type, the flag for the client's country.

It is set right after the text america has been handled. Builds of the splitting linker may copy the text instead of pushing
it, and go on with a call that takes four arguments; or they compare it in parts and store no text.
-/
import Landmark.Finder.TypeFlag

namespace Landmark.Finder

def serviceFlag : String := "g_serviceType"

def americaNotUsed : Fault :=
  .signatureMissing "'america' not used"

/-- the text is loaded into a register and the end of its copy is cleared -/
def copyCode (anchor : UInt32) : Signature :=
  Instruction.movAnyRegMem (.value anchor) ++ Instruction.movByteFrame (.negative 2) 0

/-- the call after the copy -/
def copyCall : Signature :=
  Instruction.pushImm8 7 ++ Instruction.pushAnyReg ++ Instruction.pushAnyReg ++ Instruction.pushAnyReg
    ++ Instruction.callRel .any

/-- comparison with america in parts of four, two and one letters -/
def americaInParts : Signature :=
  Instruction.cmpAnyRegMemImm32 (letters4 "amer") ++ Instruction.jneShort
    ++ Instruction.cmpWordAnyRegDisp8 4 (letters2 "ic") ++ Instruction.jneShort
    ++ Instruction.cmpByteAnyRegDisp8 6 0x61

/-- where the code goes on after the text at `anchor` has been copied -/
def afterCopy {κ : Type} (image : Image) (anchor : UInt32) : Plan κ UInt32 := do
  let copied ← Plan.require americaNotUsed (← Plan.signature image (copyCode anchor))
  let call ← Plan.require americaNotUsed
    (← Plan.signatureIn copyCall (copied.offset + 0x40) (copied.offset + 0x100))
  return call.offset

/-- where the code goes on after the text at `anchor` has been handled -/
def afterAmerica {κ : Type} (image : Image) (anchor : UInt32) : Plan κ UInt32 := do
  let push := Instruction.pushImm32 (.value anchor)
  match ← Plan.signature image push with
  | some m => return m.stop push
  | none =>
    let facts ← Plan.theFacts
    if facts.splitsComparisons then afterCopy image anchor else .fail americaNotUsed

/-- where the code goes on when the text is not stored -/
def withoutAmerica {κ : Type} (image : Image) : Plan κ UInt32 := do
  let facts ← Plan.theFacts
  if facts.splitsComparisons then
    pastSignature image americaInParts (.anchorMissing "'america' not found in parts")
  else .fail (.anchorMissing "'america' not found")

/-- the service type -/
def serviceType {κ : Type} (image : Image) : Plan κ GlobalVariable := do
  let start ← match ← Plan.text (rawText "america") .plain with
    | some anchor => afterAmerica image anchor
    | none => withoutAmerica image
  assignedFlag image start serviceFlag

end Landmark.Finder
