/-
The eight general registers of a 32-bit processor and the numbers instructions use for them.
-/
namespace Landmark

/-- general register -/
inductive Register where
  | eax
  | ecx
  | edx
  | ebx
  | esp
  | ebp
  | esi
  | edi
  deriving DecidableEq, Repr

namespace Register

/-- all registers in the order of their numbers -/
def all : List Register := [eax, ecx, edx, ebx, esp, ebp, esi, edi]

/-- three-bit number -/
def code : Register → UInt8
  | eax => 0
  | ecx => 1
  | edx => 2
  | ebx => 3
  | esp => 4
  | ebp => 5
  | esi => 6
  | edi => 7

/-- name in upper case, as in assembly -/
def text : Register → String
  | eax => "EAX"
  | ecx => "ECX"
  | edx => "EDX"
  | ebx => "EBX"
  | esp => "ESP"
  | ebp => "EBP"
  | esi => "ESI"
  | edi => "EDI"

/-- name in stored files -/
def storedName : Register → String
  | eax => "Eax"
  | ecx => "Ecx"
  | edx => "Edx"
  | ebx => "Ebx"
  | esp => "Esp"
  | ebp => "Ebp"
  | esi => "Esi"
  | edi => "Edi"

/-- the register with this upper-case name -/
def ofText? (s : String) : Option Register :=
  all.find? (·.text == s)

end Register

end Landmark
