/-
What finders find.

Each kind of value lists its parts as report fields (`Finding.fields`). All but the import table have one primary address,
whose little-endian hex is `Finding.hex?`. Addresses are virtual unless said otherwise.
-/
import Landmark.Machine.Instruction
import Landmark.Report

namespace Landmark

/-- the data archive and the file manager that opens it -/
structure Archive where
  /-- data.grf, or sdata.grf in early clients -/
  name : String
  /-- where the name is stored -/
  address : UInt32
  /-- physical offset of the code that handles the name -/
  reference : UInt32
  fileManager : UInt32
  deriving DecidableEq, Repr

def Archive.fields (a : Archive) : List Field := [
  .text "name" a.name,
  .address "address" (.virt a.address),
  .address "reference" (.phys a.reference),
  .address "file_mgr" (.virt a.fileManager),
  .bytes "mov_file_mgr" (Instruction.encodeMovRegImm .ecx a.fileManager)]

/-- a global variable, located through the code that sets it -/
structure GlobalVariable where
  name : String
  address : UInt32
  deriving DecidableEq, Repr

def GlobalVariable.fields (g : GlobalVariable) : List Field := [
  .text "name" g.name,
  .address "value" (.virt g.address)]

/-- the window manager and its function that makes a window -/
structure WindowManager where
  address : UInt32
  makeWindow : UInt32
  deriving DecidableEq, Repr

def WindowManager.fields (w : WindowManager) : List Field := [
  .address "value" (.virt w.address),
  .address "make_window" (.virt w.makeWindow),
  .bytes "mov_ecx" (Instruction.encodeMovRegImm .ecx w.address)]

/-- import slots that added code calls through -/
structure ImportTable where
  getModuleHandle : UInt32
  getProcAddress : UInt32
  outputDebugString : UInt32
  messageBox : UInt32
  /-- sprintf, or wsprintfA where that is not imported -/
  print : UInt32
  createWindow : UInt32
  deriving DecidableEq, Repr

def ImportTable.fields (t : ImportTable) : List Field := [
  .address "GetModuleHandleA" (.virt t.getModuleHandle),
  .address "GetProcAddress" (.virt t.getProcAddress),
  .address "OutputDebugStringA" (.virt t.outputDebugString),
  .address "MessageBoxA" (.virt t.messageBox),
  .address "sprintf" (.virt t.print),
  .address "CreateWindowExA" (.virt t.createWindow)]

/-- value of a finder -/
inductive Finding where
  | archive (a : Archive)
  | global (g : GlobalVariable)
  | windowManager (w : WindowManager)
  | imports (t : ImportTable)
  /-- fields collected step by step, and the last address met -/
  | collected (fields : List Field) (address : Address)
  deriving DecidableEq, Repr

namespace Finding

def fields : Finding → List Field
  | archive a => a.fields
  | global g => g.fields
  | windowManager w => w.fields
  | imports t => t.fields
  | collected fs _ => fs

/-- primary address -/
def address? : Finding → Option Address
  | archive a => some (.virt a.address)
  | global g => some (.virt g.address)
  | windowManager w => some (.virt w.address)
  | imports _ => none
  | collected _ a => some a

/-- primary address in little-endian hex -/
def hex? (f : Finding) : Option String :=
  f.address?.map Address.hex

end Finding

end Landmark
