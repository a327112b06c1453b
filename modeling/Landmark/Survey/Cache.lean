/-
A cache of derived values, by key and kind.

A key holds one value at a time. A lookup that asks for another kind than the one held is a miss. Every value put in gets
the next serial number, so two answers with one serial are the very same value. `obtain` looks a value up and builds it where
it is missing; a build that fails leaves no trace of its own, whatever else it did to the cache while it ran.
-/
namespace Landmark

/-- a value and its serial number -/
structure Handle (α : Type) where
  serial : Nat
  value : α
  deriving Repr

/-- a value of some kind -/
structure Held (τ : Type) (carrier : τ → Type) where
  kind : τ
  handle : Handle (carrier kind)

structure Cache (τ : Type) (carrier : τ → Type) where
  /-- what each key holds -/
  held : String → Option (Held τ carrier)
  /-- number of values put in so far -/
  count : Nat

namespace Cache

variable {τ : Type} {carrier : τ → Type}

def empty : Cache τ carrier := ⟨fun _ => none, 0⟩

/-- the key holds a value of some kind -/
def contains (c : Cache τ carrier) (key : String) : Bool :=
  (c.held key).isSome

/-- the value held, if it is of this kind -/
def get? [DecidableEq τ] (c : Cache τ carrier) (key : String) (kind : τ) : Option (Handle (carrier kind)) :=
  match c.held key with
  | some h => if e : h.kind = kind then some (e ▸ h.handle) else none
  | none => none

/-- handle the next value put in will have -/
def nextHandle (c : Cache τ carrier) {kind : τ} (v : carrier kind) : Handle (carrier kind) :=
  ⟨c.count, v⟩

/-- puts a value in, in place of what the key held -/
def put (c : Cache τ carrier) (key : String) (kind : τ) (v : carrier kind) : Cache τ carrier :=
  ⟨fun k => if k = key then some ⟨kind, c.nextHandle v⟩ else c.held k, c.count + 1⟩

/-- looks a value up, or builds it and puts it in; `build` may use the cache and leaves a trace, which is given back when it
ran -/
def obtain [DecidableEq τ] {ε β : Type} (c : Cache τ carrier) (key : String) (kind : τ)
    (build : Cache τ carrier → (β × Except ε (carrier kind)) × Cache τ carrier) :
    (Option β × Except ε (Handle (carrier kind))) × Cache τ carrier :=
  match c.get? key kind with
  | some h => ((none, .ok h), c)
  | none =>
    match build c with
    | ((trace, .error e), c) => ((some trace, .error e), c)
    | ((trace, .ok v), c) => ((some trace, .ok (c.nextHandle v)), c.put key kind v)

end Cache

end Landmark
