/-
Typed data out of JSON values.

A record is an object with known keys, or an array of its fields in order. An object may hold other keys as well, but none
of the known ones twice. A choice is the name of an option. A tagged value is an object one of whose members names its
variant, or an array that starts with that name; since the tag may come last, such a value is held in memory as a whole
before it is understood, and so must be sound and not nest too deep. `Place` tells the two situations apart: what is held in
memory already may also give the number of its variant, and an empty object for the content of an option.
-/
import Landmark.Json.Value

namespace Landmark

namespace Json

/-- where a value is read from: a document, so many containers deep, or memory -/
inductive Place where
  | document (depth : Nat)
  | memory
  deriving DecidableEq, Repr

namespace Place

/-- one container deeper -/
def inside : Place → Place
  | document d => document (d + 1)
  | memory => memory

/-- number of containers that may nest in a document held in memory -/
def levels : Nat := 127

end Place

def text? : Json → Option String
  | string t => t
  | _ => none

def flag? : Json → Option Bool
  | bool b => some b
  | _ => none

/-- a natural number written with digits alone, below a limit -/
def natBelow? (limit : Nat) : Json → Option Nat
  | number n =>
    match n.nat? with
    | some n => if n < limit then some n else none
    | none => none
  | _ => none

def word? (v : Json) : Option UInt32 :=
  (v.natBelow? UInt32.size).map UInt32.ofNat

def byte? (v : Json) : Option UInt8 :=
  (v.natBelow? UInt8.size).map UInt8.ofNat

/-- a value, or null for none -/
def optional? {α : Type} (read? : Json → Option α) : Json → Option (Option α)
  | null => some none
  | v => (read? v).map some

def items? : Json → Option (List Json)
  | array vs => some vs
  | _ => none

/-- members of the object with this key -/
def withKey (key : String) (ms : List (Option String × Json)) : List (Option String × Json) :=
  ms.filter (·.1 == some key)

/-- values of the known keys; none if one of them stands twice or a key has no text -/
def memberValues? (names : List String) (ms : List (Option String × Json)) : Option (List (Option Json)) :=
  if ms.all (·.1.isSome) && names.all (fun n => (withKey n ms).length ≤ 1) then
    some (names.map fun n => (withKey n ms).head?.map (·.2))
  else none

/-- fields of a record by name, or all of them by position -/
def record? (names : List String) : Json → Option (List (Option Json))
  | array vs => if vs.length = names.length then some (vs.map some) else none
  | object ms => memberValues? names ms
  | _ => none

/-- fields of a record that may leave fields out, by position too -/
def openRecord? (names : List String) : Json → Option (List (Option Json))
  | array vs =>
    if vs.length ≤ names.length then some (vs.map some ++ List.replicate (names.length - vs.length) none) else none
  | object ms => memberValues? names ms
  | _ => none

/-- content of an option that has none -/
def isNothing (p : Place) : Json → Bool
  | null => true
  | object [] => p == .memory
  | _ => false

/-- one of several named options -/
def choice? {α : Type} (options : List (String × α)) (p : Place) : Json → Option α
  | string (some s) => options.lookup s
  | object [(some s, v)] => if v.isNothing p then options.lookup s else none
  | _ => none

/-- the variant a tag names -/
def variant? (names : List String) (p : Place) : Json → Option String
  | string (some s) => if names.contains s then some s else none
  | number n =>
    match p, n.nat? with
    | .memory, some i => names[i]?
    | _, _ => none
  | _ => none

/-- the value may be held in memory -/
def holdable (p : Place) (v : Json) : Bool :=
  match p with
  | .document d => v.soundWithin (Place.levels - d)
  | .memory => true

/-- variant and content of a tagged value -/
def tagged? (tag : String) (names : List String) (p : Place) (v : Json) : Option (String × Json) :=
  if v.holdable p then
    match v with
    | object ms =>
      match withKey tag ms with
      | [(_, t)] => (variant? names p t).map fun n => (n, object (ms.filter (·.1 != some tag)))
      | _ => none
    | array (t :: vs) => (variant? names p t).map fun n => (n, array vs)
    | _ => none
  else none

end Json

end Landmark
