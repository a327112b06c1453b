/-
The window manager.

It is loaded for the call that makes the window NUMACCOUNT: manager into ECX, call, two zeros pushed, text pushed. A copy
between registers may stand between the two zeros; the form without it goes first.
-/
import Landmark.Survey.Plan

namespace Landmark.Finder

/-- name of the manager among captured values -/
def windowManagerName : String := "g_windowMgr"

/-- MOV ECX, manager; CALL backwards; PUSH 0 -/
def makeWindowHead : Signature :=
  Instruction.movRegImm .ecx (.capture windowManagerName) ++ Instruction.callRel (.negative 3)
    ++ Instruction.pushImm8 0

/-- PUSH 0; PUSH text -/
def makeWindowTail (anchor : UInt32) : Signature :=
  Instruction.pushImm8 0 ++ Instruction.pushImm32 (.value anchor)

def accountNotUsed : Fault :=
  .signatureMissing "'NUMACCOUNT' not used"

/-- the code that makes the window -/
def makeWindowCode {κ : Type} (image : Image) (anchor : UInt32) : Plan κ Sighting := do
  match ← Plan.signature image (makeWindowHead ++ makeWindowTail anchor) with
  | some m => return m
  | none =>
    Plan.require accountNotUsed
      (← Plan.signature image (makeWindowHead ++ Instruction.movAnyRegAnyReg ++ makeWindowTail anchor))

/-- the window manager and the function that makes a window -/
def windowManager {κ : Type} (image : Image) : Plan κ WindowManager := do
  let anchor ← Plan.require (.anchorMissing "'NUMACCOUNT' not found") (← Plan.text (rawText "NUMACCOUNT") .plain)
  let code ← makeWindowCode image anchor
  let address ← Plan.require accountNotUsed (code.capture? windowManagerName)
  let makeWindow ← Plan.ofExcept (image.callTarget (code.offset + 5))
  return ⟨address, makeWindow⟩

end Landmark.Finder
