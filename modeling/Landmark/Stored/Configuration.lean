/-
The thresholds a survey is made with.

They are set by a list of settings, each of which gives thresholds or names a file of them. The last one counts; a file that
cannot be read ends the list.
-/
import Landmark.Stored.Thresholds

namespace Landmark

/-- thresholds, or the content of a file of thresholds, if there is one -/
inductive Setting where
  | thresholds (t : Thresholds)
  | file (content : Option ByteArray)

namespace Setting

/-- thresholds a setting gives -/
def read : Setting → Except Fault Thresholds
  | thresholds t => .ok t
  | file content => Thresholds.load content

/-- thresholds after a list of settings, `t` before it -/
def applyAll (t : Thresholds) : List Setting → Except Fault Thresholds
  | [] => .ok t
  | s :: rest =>
    match s.read with
    | .ok t => applyAll t rest
    | .error f => .error f

end Setting

end Landmark
