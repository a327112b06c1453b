/-
The import slots that added code calls through.

Every slot is that of the first import that serves the function. All must be there; where sprintf is not imported, wsprintfA
of USER32.dll takes its place.
-/
import Landmark.Survey.Plan

namespace Landmark.Finder

def kernelLibrary : Option String := some "KERNEL32.dll"

def userLibrary : Option String := some "USER32.dll"

/-- slot of a function, or the complaint that it is missing -/
def requireSlot (image : Image) (function : String) (library : Option String) (missing : String) :
    Except Fault UInt32 :=
  match image.importSlot? function library with
  | some a => .ok a
  | none => .error (.anchorMissing missing)

/-- slot of a function that prints into a buffer -/
def printSlot (image : Image) : Except Fault UInt32 :=
  match image.importSlot? "sprintf" none with
  | some a => .ok a
  | none => requireSlot image "wsprintfA" userLibrary "No print functions found"

/-- the slots, looked for in a fixed order -/
def importSlots (image : Image) : Except Fault ImportTable := do
  let getModuleHandle ← requireSlot image "GetModuleHandleA" kernelLibrary "GetModuleHandleA not found"
  let getProcAddress ← requireSlot image "GetProcAddress" kernelLibrary "GetProcAddress not found"
  let outputDebugString ← requireSlot image "OutputDebugStringA" none "'OutputDebugStringA' function missing"
  let messageBox ← requireSlot image "MessageBoxA" userLibrary "'MessageBoxA' function missing"
  let print ← printSlot image
  let createWindow ← requireSlot image "CreateWindowExA" userLibrary "'CreateWindowExA' function missing"
  return ⟨getModuleHandle, getProcAddress, outputDebugString, messageBox, print, createWindow⟩

/-- the import table -/
def importTable {κ : Type} (image : Image) : Plan κ ImportTable :=
  Plan.ofExcept (importSlots image)

end Landmark.Finder
