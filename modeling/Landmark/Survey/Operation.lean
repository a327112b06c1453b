/-
What can be asked of a survey.

Every operation gives an answer and the state after it. `describe` loads a finder and reports what came of it; `rootOf` says
in which finder's slot, and how deep inside it, the failure that started a chain was kept first.
-/
import Landmark.Survey.Load

namespace Landmark

namespace State

variable {κ : Type}

def status (st : State κ) (key : κ) : Status :=
  (st.slots key).status

/-- follows failures taken over from other finders, at most `n` of them -/
def rootWithin (st : State κ) : Nat → κ → κ × Nat
  | 0, key =>
    match st.slots key with
    | .failed e _ => (key, e.fault.depth)
    | _ => (key, 0)
  | n + 1, key =>
    match st.slots key with
    | .failed _ (some other) => st.rootWithin n other
    | .failed e none => (key, e.fault.depth)
    | _ => (key, 0)

/-- finder that first kept the failure at the root of this one's, and its depth in that finder's own failure -/
def rootOf (st : State κ) (key : κ) : κ × Nat :=
  match st.slots key with
  | .failed e _ => st.rootWithin e.fault.depth key
  | _ => (key, 0)

end State

namespace Survey

variable {κ : Type} [DecidableEq κ] (S : Survey κ)

/-- value of a finder, or the fault of whoever needs it -/
def depend (key : κ) (st : State κ) : Except Fault Finding × State κ :=
  let (r, st) := S.load key st
  (r.mapError Failure.asDependency, st)

/-- report on one finder -/
def describe (key : κ) (st : State κ) : Report × State κ :=
  match S.load key st with
  | (.ok v, st) => (.resolved (S.name key) v.fields, st)
  | (.error e, st) => (.failed (S.name key) e, st)

/-- reports on several finders in order -/
def describeEach (st : State κ) : List κ → List Report × State κ
  | [] => ([], st)
  | key :: keys =>
    let (r, st) := S.describe key st
    let (rs, st) := describeEach st keys
    (r :: rs, st)

omit [DecidableEq κ] in
/-- the facts as a report -/
def describeFacts (st : State κ) : Report × State κ :=
  let (f, st) := S.facts st
  (.resolved "FACTS" f.fields, st)

/-- reports on the facts and then on several finders -/
def describeAll (keys : List κ) (st : State κ) : List Report × State κ :=
  let (r, st) := S.describeFacts st
  let (rs, st) := S.describeEach st keys
  (r :: rs, st)

end Survey

end Landmark
