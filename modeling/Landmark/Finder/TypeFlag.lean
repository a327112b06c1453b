/-
Flags that are set to 1 once a country or a server name has been handled.

The name is pushed; where it is not stored as a text, builds of one linker compare it in parts. From the place where the name
is handled on, the first instruction that stores a 1 names the flag.
-/
import Landmark.Survey.Plan

namespace Landmark.Finder

/-- MOV dword [flag], 1 -/
def flagAssignment (name : String) : Signature :=
  Instruction.movMemImm (.capture name) (.value 1)

/-- the flag of the first assignment at or after a physical offset -/
def assignedFlag {κ : Type} (image : Image) (start : UInt32) (name : String) : Plan κ GlobalVariable := do
  let found ← Plan.signatureIn (flagAssignment name) start image.codeRange.2
  let address ← Plan.require (.postconditionMissing (name ++ " not assigned"))
    (found.bind fun m => m.capture? name)
  return ⟨name, address⟩

/-- offset just past the first place in the code where a signature stands -/
def pastSignature {κ : Type} (image : Image) (sig : Signature) (missing : Fault) : Plan κ UInt32 := do
  let m ← Plan.require missing (← Plan.signature image sig)
  return m.stop sig

/-- the word and the half word that four and two letters make -/
def letters4 (s : String) : UInt32 :=
  Word.ofBytes (rawText s)

def letters2 (s : String) : UInt16 :=
  UInt16.ofNat (Word.valueOf (rawText s))

end Landmark.Finder
