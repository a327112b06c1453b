/-
Reports: what a finder found, as named fields, or why it failed.

`Field` constructors keep the written forms of a value beside it; `FieldValue.text` and `Report.text` are the forms shown to
a reader.
-/
import Landmark.Fault

namespace Landmark

/-- a value as a report keeps it -/
inductive FieldValue where
  | address (value : UInt32) (space : Space) (hex : String)
  | missing
  | text (text : String)
  | bytes (hex : String)
  | flag (set : Bool)
  deriving DecidableEq, Repr

def FieldValue.display : FieldValue → String
  | address v s _ => (Address.mk v s).text ++ " (" ++ s.name ++ ")"
  | missing => "-"
  | text t => t
  | bytes h => h
  | flag true => "true"
  | flag false => "false"

/-- a named value -/
structure Field where
  name : String
  value : FieldValue
  deriving DecidableEq, Repr

namespace Field

def address (name : String) (a : Address) : Field :=
  ⟨name, .address a.value a.space a.hex⟩

/-- an address that may be absent -/
def optionalAddress (name : String) : Option Address → Field
  | some a => address name a
  | none => ⟨name, .missing⟩

def text (name text : String) : Field :=
  ⟨name, .text text⟩

def bytes (name : String) (bs : List UInt8) : Field :=
  ⟨name, .bytes (Hex.encode bs)⟩

def flag (name : String) (set : Bool) : Field :=
  ⟨name, .flag set⟩

end Field

inductive Outcome where
  | resolved (fields : List Field)
  | failed (kind : FaultKind) (message : String)
  deriving DecidableEq, Repr

/-- what became of one finder -/
structure Report where
  name : String
  outcome : Outcome
  deriving DecidableEq, Repr

namespace Report

def resolved (name : String) (fields : List Field) : Report :=
  ⟨name, .resolved fields⟩

def failed (name : String) (e : Failure) : Report :=
  ⟨name, .failed e.kind e.message⟩

def isResolved (r : Report) : Bool :=
  match r.outcome with
  | .resolved _ => true
  | .failed _ _ => false

/-- value of the first field of that name -/
def field? (r : Report) (name : String) : Option FieldValue :=
  match r.outcome with
  | .resolved fields => (fields.find? (·.name == name)).map (·.value)
  | .failed _ _ => none

def display (r : Report) : String :=
  match r.outcome with
  | .resolved fields =>
    r.name ++ " = \x7b\n" ++ String.join (fields.map fun f => "\t" ++ f.name ++ " => " ++ f.value.display ++ "\n") ++ "\x7d"
  | .failed kind message => r.name ++ " failed (" ++ kind.name ++ "): " ++ message

end Report

end Landmark
