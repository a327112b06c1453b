/-
Plans: what a finder does, step by step.

A plan searches the image, asks for the facts, for the resource tree, for the status or the value of other finders, and ends
with a value or a fault. It cannot touch the state of a survey in any other way. `depend` ends the plan with the other
finder's failure where there is no value; `attempt` hands the failure over. Every plan is finite, since it is a tree of steps.
-/
import Landmark.ClientFacts
import Landmark.Resource.Tree
import Landmark.Survey.Finding

namespace Landmark

/-- how far a finder has come -/
inductive Status where
  | unresolved
  | resolving
  | resolved
  | failed
  deriving DecidableEq, Repr

def Status.name : Status → String
  | .unresolved => "Unresolved"
  | .resolving => "Resolving"
  | .resolved => "Resolved"
  | .failed => "Failed"

/-- steps towards an `α`, among finders named by `κ` -/
inductive Plan (κ : Type) (α : Type) where
  | done (a : α)
  | fail (f : Fault)
  | findText (needle : List UInt8) (q : TextQuery) (next : Option UInt32 → Plan κ α)
  | findSignature (sig : Signature) (start stop : UInt32) (next : Option Sighting → Plan κ α)
  | facts (next : ClientFacts → Plan κ α)
  | tree (next : Except Fault ResourceNode → Plan κ α)
  | status (key : κ) (next : Status → Plan κ α)
  | attempt (key : κ) (next : Except Failure Finding → Plan κ α)
  | depend (key : κ) (next : Finding → Plan κ α)

namespace Plan

/-- one plan after the other -/
def bind {κ α β : Type} : Plan κ α → (α → Plan κ β) → Plan κ β
  | done a, g => g a
  | fail f, _ => fail f
  | findText n q next, g => findText n q fun r => (next r).bind g
  | findSignature s a b next, g => findSignature s a b fun r => (next r).bind g
  | facts next, g => facts fun r => (next r).bind g
  | tree next, g => tree fun r => (next r).bind g
  | status k next, g => status k fun r => (next r).bind g
  | attempt k next, g => attempt k fun r => (next r).bind g
  | depend k next, g => depend k fun r => (next r).bind g

instance {κ : Type} : Monad (Plan κ) where
  pure := done
  bind := bind

/-- text search -/
def text {κ : Type} (needle : List UInt8) (q : TextQuery) : Plan κ (Option UInt32) :=
  findText needle q done

/-- signature search in a window -/
def signatureIn {κ : Type} (sig : Signature) (start stop : UInt32) : Plan κ (Option Sighting) :=
  findSignature sig start stop done

/-- signature search in the code -/
def signature {κ : Type} (image : Image) (sig : Signature) : Plan κ (Option Sighting) :=
  signatureIn sig image.codeRange.1 image.codeRange.2

def theFacts {κ : Type} : Plan κ ClientFacts :=
  facts done

/-- a result that is there, or the fault -/
def ofExcept {κ α : Type} : Except Fault α → Plan κ α
  | .ok a => done a
  | .error f => fail f

/-- a result that must be there -/
def require {κ α : Type} (f : Fault) : Option α → Plan κ α
  | some a => done a
  | none => fail f

end Plan

end Landmark
