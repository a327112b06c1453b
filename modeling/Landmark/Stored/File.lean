/-
Files that hold one JSON value.

A file is its bytes, or nothing when it is absent. Reading it needs valid UTF-8 and then exactly one JSON value of the type
asked for.
-/
import Landmark.Fault
import Landmark.Json.Parse

namespace Landmark.Stored

/-- text of a file -/
def fileText (content : Option ByteArray) : Except Fault String :=
  match content with
  | none => .error (.file "no such file" true)
  | some bytes =>
    match String.fromUTF8? bytes with
    | some text => .ok text
    | none => .error (.file "the file is not UTF-8 text" false)

/-- the value a text holds -/
def fromText {α : Type} (read? : Json → Option α) (text : String) : Except Fault α :=
  match (Json.parse? text).bind read? with
  | some a => .ok a
  | none => .error (.json "not a value of the expected form")

/-- the value a file holds -/
def load {α : Type} (read? : Json → Option α) (content : Option ByteArray) : Except Fault α :=
  match fileText content with
  | .error f => .error f
  | .ok text => fromText read? text

end Landmark.Stored
