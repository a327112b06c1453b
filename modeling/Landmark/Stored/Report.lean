/-
Report files: a list of reports.

Field values are tagged by their type and outcomes by their status.
-/
import Landmark.Json.Print
import Landmark.Report
import Landmark.Stored.File
import Landmark.Stored.Image

namespace Landmark

namespace FaultKind

/-- all kinds in order -/
def all : List FaultKind :=
  [anchorNotFound, patternNotFound, postconditionMissing, dependencyFailure, outOfRange, cyclicDependency, other]

def toJson (k : FaultKind) : Json :=
  .ofString k.name

def ofJson? (p : Json.Place) : Json → Option FaultKind :=
  Json.choice? (all.map fun k => (k.name, k)) p

end FaultKind

namespace FieldValue

def toJson : FieldValue → Json
  | address v s h =>
    .ofMembers [("type", .ofString "address"), ("value", .ofNat v.toNat), ("space", s.toJson), ("hex", .ofString h)]
  | missing => .ofMembers [("type", .ofString "missing")]
  | text t => .ofMembers [("type", .ofString "text"), ("text", .ofString t)]
  | bytes h => .ofMembers [("type", .ofString "bytes"), ("hex", .ofString h)]
  | flag b => .ofMembers [("type", .ofString "flag"), ("set", .bool b)]

/-- the content of a missing value may be anything in an object, and nothing in an array -/
def missingContent : Json → Bool
  | .object _ => true
  | .array vs => vs.isEmpty
  | _ => false

/-- content of one variant -/
def ofContent? (variant : String) (v : Json) : Option FieldValue :=
  if variant = "address" then
    match v.record? ["value", "space", "hex"] with
    | some [some value, some space, some hex] => do
      return address (← value.word?) (← Space.ofJson? .memory space) (← hex.text?)
    | _ => none
  else if variant = "missing" then if missingContent v then some missing else none
  else if variant = "text" then
    match v.record? ["text"] with
    | some [some t] => t.text?.map text
    | _ => none
  else if variant = "bytes" then
    match v.record? ["hex"] with
    | some [some h] => h.text?.map bytes
    | _ => none
  else
    match v.record? ["set"] with
    | some [some b] => b.flag?.map flag
    | _ => none

def ofJson? (p : Json.Place) (v : Json) : Option FieldValue :=
  match v.tagged? "type" ["address", "missing", "text", "bytes", "flag"] p with
  | some (variant, content) => ofContent? variant content
  | none => none

end FieldValue

namespace Field

def toJson (f : Field) : Json :=
  .ofMembers [("name", .ofString f.name), ("value", f.value.toJson)]

def ofJson? (p : Json.Place) (v : Json) : Option Field :=
  match v.record? ["name", "value"] with
  | some [some name, some value] => do
    return ⟨← name.text?, ← FieldValue.ofJson? p.inside value⟩
  | _ => none

end Field

namespace Outcome

def toJson : Outcome → Json
  | resolved fields => .ofMembers [("status", .ofString "resolved"), ("fields", .array (fields.map Field.toJson))]
  | failed kind message =>
    .ofMembers [("status", .ofString "failed"), ("kind", kind.toJson), ("message", .ofString message)]

/-- content of one variant -/
def ofContent? (variant : String) (v : Json) : Option Outcome :=
  if variant = "resolved" then
    match v.record? ["fields"] with
    | some [some fields] => do
      return resolved (← (← fields.items?).mapM (Field.ofJson? .memory))
    | _ => none
  else
    match v.record? ["kind", "message"] with
    | some [some kind, some message] => do
      return failed (← FaultKind.ofJson? .memory kind) (← message.text?)
    | _ => none

def ofJson? (p : Json.Place) (v : Json) : Option Outcome :=
  match v.tagged? "status" ["resolved", "failed"] p with
  | some (variant, content) => ofContent? variant content
  | none => none

end Outcome

namespace Report

def toJson (r : Report) : Json :=
  .ofMembers [("name", .ofString r.name), ("outcome", r.outcome.toJson)]

def ofJson? (p : Json.Place) (v : Json) : Option Report :=
  match v.record? ["name", "outcome"] with
  | some [some name, some outcome] => do
    return ⟨← name.text?, ← Outcome.ofJson? p.inside outcome⟩
  | _ => none

/-- a list of reports -/
def listOfJson? (p : Json.Place) (v : Json) : Option (List Report) :=
  v.items?.bind fun vs => vs.mapM (ofJson? p.inside)

/-- content of a file of reports -/
def saveAll (rs : List Report) : String :=
  (Json.array (rs.map toJson)).pretty

/-- reports of a file -/
def loadAll (content : Option ByteArray) : Except Fault (List Report) :=
  Stored.load (listOfJson? (.document 0)) content

end Report

end Landmark
