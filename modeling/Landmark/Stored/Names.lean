/-
Stored forms of registers and of the status of a finder: their names.
-/
import Landmark.Json.Decode
import Landmark.Machine.Register
import Landmark.Survey.Plan

namespace Landmark

def Register.toJson (r : Register) : Json :=
  .ofString r.storedName

def Register.ofJson? (p : Json.Place) : Json → Option Register :=
  Json.choice? (Register.all.map fun r => (r.storedName, r)) p

namespace Status

/-- all of them in order -/
def all : List Status := [unresolved, resolving, resolved, failed]

def toJson (s : Status) : Json :=
  .ofString s.name

def ofJson? (p : Json.Place) : Json → Option Status :=
  Json.choice? (all.map fun s => (s.name, s)) p

end Status

end Landmark
