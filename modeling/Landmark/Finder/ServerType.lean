/-
The server type, the flag for the kind of server.

It is set right after the text sakray has been pushed, or compared in parts in builds of the splitting linker that store no
text.
-/
import Landmark.Finder.TypeFlag

namespace Landmark.Finder

def serverFlag : String := "g_serverType"

/-- comparison with sakray in parts of four and two letters -/
def sakrayInParts : Signature :=
  Instruction.cmpAnyRegMemImm32 (letters4 "sakr") ++ Instruction.jneShort
    ++ Instruction.cmpWordAnyRegDisp8 4 (letters2 "ay") ++ Instruction.jneShort

/-- where the code goes on when the text is not stored -/
def withoutSakray {κ : Type} (image : Image) : Plan κ UInt32 := do
  let facts ← Plan.theFacts
  if facts.splitsComparisons then
    pastSignature image sakrayInParts (.anchorMissing "'sakray' not found in parts")
  else .fail (.anchorMissing "'sakray' not found")

/-- the server type -/
def serverType {κ : Type} (image : Image) : Plan κ GlobalVariable := do
  let start ← match ← Plan.text (rawText "sakray") .plain with
    | some anchor =>
      pastSignature image (Instruction.pushImm32 (.value anchor)) (.signatureMissing "'sakray' not used")
    | none => withoutSakray image
  assignedFlag image start serverFlag

end Landmark.Finder
