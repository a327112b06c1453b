/-
What can go wrong, and how it is told.

`Fault` is the cause, `Fault.message` its text and `Fault.kind` the coarse class reports use. A `Failure` is the lasting
failure of one finder; a finder that needs another one's value fails with the other's failure inside
(`Fault.dependency`), so that failures form chains, and `Failure.root` is the end of the chain.
-/
import Landmark.Address

namespace Landmark

/-- coarse class of a fault -/
inductive FaultKind where
  | anchorNotFound
  | patternNotFound
  | postconditionMissing
  | dependencyFailure
  | outOfRange
  | cyclicDependency
  | other
  deriving DecidableEq, Repr

/-- name of a kind in reports and stored files -/
def FaultKind.name : FaultKind → String
  | .anchorNotFound => "AnchorNotFound"
  | .patternNotFound => "PatternNotFound"
  | .postconditionMissing => "PostconditionMissing"
  | .dependencyFailure => "DependencyFailure"
  | .outOfRange => "OutOfRange"
  | .cyclicDependency => "CyclicDependency"
  | .other => "Other"

/-- one cause of failure -/
inductive Fault where
  /-- an address that no section maps -/
  | outOfRange (address : UInt32) (space : Space)
  /-- a read that leaves the file -/
  | readPastEnd (offset : UInt32) (size : Nat)
  | invalidImage (detail : String)
  | invalidSignature (detail : String)
  | invalidHex (detail : String)
  /-- the text or import everything else starts from is absent -/
  | anchorMissing (detail : String)
  /-- no code has the expected form -/
  | signatureMissing (detail : String)
  /-- the code found does not end as it should -/
  | postconditionMissing (detail : String)
  /-- another finder, `finder`, failed with `cause` -/
  | dependency (finder : String) (cause : Fault)
  /-- the finder is at work already -/
  | cyclic (finder : String)
  | file (detail : String) (absent : Bool)
  | json (detail : String)
  deriving DecidableEq, Repr

namespace Fault

def kind : Fault → FaultKind
  | anchorMissing _ => .anchorNotFound
  | signatureMissing _ => .patternNotFound
  | postconditionMissing _ => .postconditionMissing
  | dependency _ _ => .dependencyFailure
  | outOfRange _ _ => .outOfRange
  | readPastEnd _ _ => .outOfRange
  | cyclic _ => .cyclicDependency
  | invalidImage _ => .other
  | invalidSignature _ => .other
  | invalidHex _ => .other
  | file _ _ => .other
  | json _ => .other

/-- offset without leading zeros, lower-case digits after 0x -/
def offsetText (w : UInt32) : String :=
  "0x" ++ String.ofList ((Hex.shortDigits w).map Char.toLower)

def message : Fault → String
  | outOfRange a s => s.name ++ " address " ++ offsetText a ++ " is outside all mapped sections"
  | readPastEnd o n =>
    "Read of " ++ toString n ++ " bytes at physical offset " ++ offsetText o ++ " exceeds the image"
  | invalidImage d => "Invalid image: " ++ d
  | invalidSignature d => "Invalid pattern: " ++ d
  | invalidHex d => "Invalid hex: " ++ d
  | anchorMissing d => d
  | signatureMissing d => d
  | postconditionMissing d => d
  | dependency r f => "dependency failed: " ++ (r ++ " - " ++ f.message)
  | cyclic r => r ++ " is already being resolved (dependency cycle)"
  | file d _ => "IO error: " ++ d
  | json d => "JSON error: " ++ d

/-- a file that is not there -/
def isAbsentFile : Fault → Bool
  | file _ absent => absent
  | _ => false

/-- the fault was met outside: by the file system or in JSON text -/
def isExternal : Fault → Bool
  | file _ _ => true
  | json _ => true
  | _ => false

/-- number of failures of other finders on the way to the root -/
def depth : Fault → Nat
  | dependency _ f => f.depth + 1
  | _ => 0

end Fault

/-- the number whose little-endian bytes a text gives in hex -/
def Address.readHex (text : String) : Except Fault UInt32 :=
  match Hex.decodeWord text with
  | .ok w => .ok w
  | .error f => .error (.invalidHex (f.message text))

/-- the lasting failure of one finder -/
structure Failure where
  finder : String
  fault : Fault
  deriving DecidableEq, Repr

namespace Failure

def kind (e : Failure) : FaultKind :=
  e.fault.kind

def message (e : Failure) : String :=
  e.finder ++ " - " ++ e.fault.message

/-- the failure at the end of the chain that starts at finder `r` -/
def rootFrom (r : String) : Fault → Failure
  | .dependency r' f => rootFrom r' f
  | f => ⟨r, f⟩

/-- the failure that started the chain -/
def root (e : Failure) : Failure :=
  rootFrom e.finder e.fault

/-- the fault of a finder that needed this one's value -/
def asDependency (e : Failure) : Fault :=
  .dependency e.finder e.fault

end Failure

end Landmark
