/-
The cache of a survey, and requests to it.

A survey keeps numbers, texts and resource trees in its cache. A request may carry further requests that are made while its
value is being built, and a refusal, in which case nothing is built.
-/
import Landmark.Resource.Tree
import Landmark.Survey.Cache

namespace Landmark

/-- kind of a cached value -/
inductive ItemKind where
  | number
  | text
  | tree
  deriving DecidableEq, Repr

/-- values of a kind -/
abbrev ItemKind.Carrier : ItemKind → Type
  | number => UInt32
  | text => String
  | tree => ResourceNode

/-- cache of a survey -/
abbrev Store := Cache ItemKind ItemKind.Carrier

inductive StoreRequest where
  | contains (key : String)
  | get (key : String) (kind : ItemKind)
  /-- look up or build; `during` is asked for while building, and a refusal ends the build -/
  | obtain (key : String) (kind : ItemKind) (value : kind.Carrier) (during : List StoreRequest) (refusal : Option String)

inductive StoreAnswer where
  | contained (yes : Bool)
  | got (value : Option (Held ItemKind ItemKind.Carrier))
  /-- what building answered, if the value was built, and the value or the refusal -/
  | obtained (during : Option (List StoreAnswer)) (value : Except String (Held ItemKind ItemKind.Carrier))

namespace StoreRequest

mutual

/-- one request -/
def run (store : Store) : StoreRequest → StoreAnswer × Store
  | contains key => (.contained (store.contains key), store)
  | get key kind => (.got ((store.get? key kind).map fun h => ⟨kind, h⟩), store)
  | obtain key kind value during refusal =>
    let ((trace, result), store) := store.obtain key kind fun store =>
      let (answers, store) := runAll store during
      match refusal with
      | some message => ((answers, .error message), store)
      | none => ((answers, .ok value), store)
    (.obtained trace (result.map fun h => ⟨kind, h⟩), store)

/-- several requests in order -/
def runAll (store : Store) : List StoreRequest → List StoreAnswer × Store
  | [] => ([], store)
  | r :: rs =>
    let (answer, store) := r.run store
    let (answers, store) := runAll store rs
    (answer :: answers, store)

end

end StoreRequest

end Landmark
