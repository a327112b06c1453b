/-
The finders of a survey: five built-in ones, and any number that run scripts.

`Survey.standard` is a survey with these finders. The finder of script `n` is named U and its number.
-/
import Landmark.Finder.Archive
import Landmark.Finder.ImportTable
import Landmark.Finder.Script
import Landmark.Finder.ServerType
import Landmark.Finder.ServiceType
import Landmark.Finder.WindowManager
import Landmark.Survey.Operation

namespace Landmark

/-- a finder of a survey with so many scripts -/
inductive FinderKey (scripts : Nat) where
  | archive
  | serviceType
  | serverType
  | windowManager
  | imports
  | script (n : Fin scripts)
  deriving DecidableEq, Repr

namespace FinderKey

variable {scripts : Nat}

/-- name in messages and reports -/
def name : FinderKey scripts → String
  | archive => "DGRF"
  | serviceType => "LANGTYPE"
  | serverType => "SRVRTYPE"
  | windowManager => "WINMGR"
  | imports => "IMPORTS"
  | script n => "U" ++ toString n.val

/-- the built-in finders in the order of their reports -/
def builtIn : List (FinderKey scripts) :=
  [archive, serviceType, serverType, windowManager, imports]

/-- all finders -/
def all : List (FinderKey scripts) :=
  builtIn ++ (List.finRange scripts).map script

theorem mem_all (k : FinderKey scripts) : k ∈ all := by
  cases k <;> simp [all, builtIn]

/-- the finder of that name -/
def ofName? (s : String) : Option (FinderKey scripts) :=
  all.find? (·.name == s)

/-- plan of a finder, given the scripts -/
def plan (image : Image) (steps : Fin scripts → List (Finder.Step (FinderKey scripts))) :
    FinderKey scripts → Plan (FinderKey scripts) Finding
  | archive => return .archive (← Finder.archive image)
  | serviceType => return .global (← Finder.serviceType image)
  | serverType => return .global (← Finder.serverType image)
  | windowManager => return .windowManager (← Finder.windowManager image)
  | imports => return .imports (← Finder.importTable image)
  | script n => Finder.Step.plan image name (steps n)

end FinderKey

/-- survey of an image with the built-in finders and scripts given by their steps -/
def Survey.standard {scripts : Nat} (image : Image) (t : Thresholds)
    (steps : Fin scripts → List (Finder.Step (FinderKey scripts))) : Survey (FinderKey scripts) where
  image := image
  thresholds := t
  name := FinderKey.name
  plan := FinderKey.plan image steps
  keys := FinderKey.all
  mem_keys := FinderKey.mem_all

end Landmark
