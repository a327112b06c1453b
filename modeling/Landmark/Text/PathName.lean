/-
The last name in a path.

Names are separated by slashes; empty names and lone dots count for nothing. `baseName` is the last name, and empty when
the path has none or ends with a step upwards.
-/
namespace Landmark.Text

/-- the pieces between slashes that count, in order -/
def pathNames (path : String) : List (List Char) :=
  (path.toList.splitOn '/').filter fun p => !(p.isEmpty || p == ['.'])

/-- the last name in a path -/
def baseName (path : String) : String :=
  match (pathNames path).getLast? with
  | none => ""
  | some p => if p == ['.', '.'] then "" else String.ofList p

end Landmark.Text
