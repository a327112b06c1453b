/-
The state of a survey, and plans run on it.

Every finder has a slot. A failed slot also says whether the failure is that of another finder, taken over as it stands
(`heir`). `exec` runs a plan, given a way to load other finders; it may run out of what `load` is allowed and then has no
answer.
-/
import Landmark.Resource.Directory
import Landmark.Survey.Plan
import Landmark.Survey.Store

namespace Landmark

/-- what is known of one finder -/
inductive Slot (κ : Type) where
  | unresolved
  | resolving
  | resolved (value : Finding)
  | failed (failure : Failure) (source : Option κ)

namespace Slot

variable {κ : Type}

def status : Slot κ → Status
  | unresolved => .unresolved
  | resolving => .resolving
  | resolved _ => .resolved
  | failed _ _ => .failed

def isUnresolved : Slot κ → Bool
  | unresolved => true
  | _ => false

end Slot

/-- everything a survey has learnt -/
structure State (κ : Type) where
  slots : κ → Slot κ
  facts : Option ClientFacts
  store : Store
  log : ScanLog

namespace State

variable {κ : Type}

/-- nothing learnt yet -/
def start : State κ := ⟨fun _ => .unresolved, none, .empty, .empty⟩

def setSlot [DecidableEq κ] (st : State κ) (key : κ) (s : Slot κ) : State κ :=
  { st with slots := fun k => if k = key then s else st.slots k }

/-- runs searches on record -/
def scan {α : Type} (st : State κ) (s : Scan α) : α × State κ :=
  let (a, log) := s.run st.log
  (a, { st with log })

end State

/-- a survey of one image: the thresholds it is made with, and its finders with their names and plans -/
structure Survey (κ : Type) where
  image : Image
  thresholds : Thresholds
  name : κ → String
  plan : κ → Plan κ Finding
  /-- all finders -/
  keys : List κ
  mem_keys : ∀ k, k ∈ keys

/-- how a plan ends: with a value, or with a fault, which may be the failure of another finder taken over -/
inductive Ending (κ α : Type) where
  | ok (a : α)
  | fail (f : Fault) (source : Option κ)

namespace Survey

variable {κ : Type} (S : Survey κ)

/-- the facts, computed the first time they are asked for -/
def facts (st : State κ) : ClientFacts × State κ :=
  match st.facts with
  | some f => (f, st)
  | none =>
    let (f, st) := st.scan (ClientFacts.survey S.image S.thresholds)
    (f, { st with facts := some f })

/-- key of the resource tree in the store -/
def treeKey : String := "RsrcTree"

/-- reads the resource tree the metadata name -/
def readTree : Except Fault ResourceNode :=
  match S.image.metadata.resourceDirectory with
  | none => .error (.anchorMissing "resource directory not found")
  | some base => Resource.readTree S.image base

/-- the resource tree, read until that succeeds once -/
def tree (st : State κ) : Except Fault (Handle ResourceNode) × State κ :=
  let ((_, r), store) := st.store.obtain treeKey .tree fun store => (((), S.readTree), store)
  (r, { st with store })

/-- a way to load finders -/
abbrev Loader (κ : Type) := κ → State κ → Option (Except Failure Finding × State κ)

/-- the finder whose stored failure a failed load has just repeated -/
def sourceOf (key : κ) (st : State κ) : Option κ :=
  match st.slots key with
  | .failed _ _ => some key
  | _ => none

/-- runs a plan -/
def exec (load : Loader κ) {α : Type} : Plan κ α → State κ → Option (Ending κ α × State κ)
  | .done a, st => some (.ok a, st)
  | .fail f, st => some (.fail f none, st)
  | .findText needle q next, st =>
    let (r, st) := st.scan (Scan.text S.image needle q)
    exec load (next r) st
  | .findSignature sig a b next, st =>
    let (r, st) := st.scan (Scan.signatureIn S.image sig a b)
    exec load (next r) st
  | .facts next, st =>
    let (f, st) := S.facts st
    exec load (next f) st
  | .tree next, st =>
    let (r, st) := S.tree st
    exec load (next (r.map Handle.value)) st
  | .status key next, st => exec load (next (st.slots key).status) st
  | .attempt key next, st =>
    match load key st with
    | none => none
    | some (r, st) => exec load (next r) st
  | .depend key next, st =>
    match load key st with
    | none => none
    | some (.ok v, st) => exec load (next v) st
    | some (.error e, st) => some (.fail e.asDependency (sourceOf key st), st)

end Survey

end Landmark
