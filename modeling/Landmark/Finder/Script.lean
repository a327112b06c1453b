/-
Finders given as a list of steps.

A script collects fields and remembers the last address it met. A step that fails ends the script with its fault; only
`attempt` goes on after a failure, and writes down what it says.
-/
import Landmark.Survey.Plan

namespace Landmark.Finder

/-- one step of a script, other finders being named by `κ` -/
inductive Step (κ : Type) where
  /-- needs the value of another finder -/
  | depend (key : κ)
  /-- asks for the value of another finder, and does without it -/
  | attempt (key : κ)
  | status (key : κ)
  /-- finds a text in the mapped bytes -/
  | text (s : String)
  /-- finds a signature, given in its written form, in the code -/
  | signature (s : String)
  /-- reads a word at a physical offset -/
  | read (offset : UInt32)
  /-- looks up the virtual address of a physical offset -/
  | virtual (offset : UInt32)
  | field (f : Field)
  | fail (f : Fault)
  | facts
  | tree

/-- what a script has collected -/
structure Collected where
  fields : List Field
  address : Address
  deriving DecidableEq, Repr

namespace Collected

def start : Collected := ⟨[], .virt 0⟩

def add (c : Collected) (f : Field) : Collected :=
  { c with fields := c.fields ++ [f] }

/-- adds a field with an address, which becomes the last one met -/
def addAddress (c : Collected) (name : String) (a : Address) : Collected :=
  ⟨c.fields ++ [.address name a], a⟩

end Collected

namespace Step

variable {κ : Type}

/-- what an attempt writes down -/
def outcomeText : Except Failure Finding → String
  | .ok _ => "ok"
  | .error e => e.message

/-- one step -/
def run (image : Image) (name : κ → String) (c : Collected) : Step κ → Plan κ Collected
  | depend key => do
    let _ ← Plan.depend key Plan.done
    return c.add (.text (name key) "ok")
  | attempt key => do
    let r ← Plan.attempt key Plan.done
    return c.add (.text (name key) (outcomeText r))
  | status key => do
    let s ← Plan.status key Plan.done
    return c.add (.text (name key) s.name)
  | text s => do
    let v ← Plan.require (.anchorMissing ("'" ++ s ++ "' not found")) (← Plan.text (rawText s) .plain)
    return c.addAddress s (.virt v)
  | signature s => do
    let sig ← Plan.ofExcept (Signature.read s)
    let m ← Plan.require (.signatureMissing ("'" ++ sig.text ++ "' not used")) (← Plan.signature image sig)
    return c.addAddress "pattern" (.phys m.offset)
  | read offset => do
    let w ← Plan.ofExcept (image.readWord offset)
    return c.addAddress "read" (.virt w)
  | virtual offset => do
    let v ← Plan.ofExcept (image.toVirtual offset)
    return c.addAddress "virtual" (.virt v)
  | field f => return c.add f
  | fail f => .fail f
  | facts => do
    let f ← Plan.theFacts
    return c.add (.text "variant" f.variant.name)
  | tree => do
    let root ← Plan.ofExcept (← Plan.tree Plan.done)
    return c.add (.text "tree" (toString root.entries.length))

/-- steps in order -/
def runAll (image : Image) (name : κ → String) (c : Collected) : List (Step κ) → Plan κ Collected
  | [] => return c
  | s :: steps => do
    let c ← s.run image name c
    runAll image name c steps

/-- the finder a script describes -/
def plan (image : Image) (name : κ → String) (steps : List (Step κ)) : Plan κ Finding := do
  let c ← runAll image name .start steps
  return .collected c.fields c.address

end Step

end Landmark.Finder
