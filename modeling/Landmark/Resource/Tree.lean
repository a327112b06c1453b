/-
Resource trees: directories of numbered or named entries down to the data entries.

`find` walks a path of ids from a node. At each level it takes the first entry with the id asked for and never goes back.
-/

namespace Landmark

/-- number or name of an entry; the two are never the same -/
inductive ResourceId where
  | number (n : UInt32)
  | name (s : String)
  deriving DecidableEq, Repr

/-- a number after a hash sign, or the name -/
def ResourceId.text : ResourceId → String
  | number n => "#" ++ toString n.toNat
  | name s => s

/-- a leaf: physical offset of the data entry and what it says -/
structure ResourceData where
  entry : UInt32
  rva : UInt32
  size : UInt32
  codePage : UInt32
  deriving DecidableEq, Repr

/-- a directory at a physical offset, with its entries in file order, or a leaf -/
inductive ResourceNode where
  | directory (offset : UInt32) (entries : List (ResourceId × ResourceNode))
  | data (d : ResourceData)
  deriving Repr, Inhabited

namespace ResourceNode

/-- entries of a directory; a leaf has none -/
def entries : ResourceNode → List (ResourceId × ResourceNode)
  | directory _ es => es
  | data _ => []

/-- node of the first entry with this id -/
def child? (node : ResourceNode) (id : ResourceId) : Option ResourceNode :=
  (node.entries.find? (·.1 == id)).map (·.2)

/-- node at the end of a path -/
def find? (node : ResourceNode) : List ResourceId → Option ResourceNode
  | [] => some node
  | id :: path =>
    match node.child? id with
    | some n => n.find? path
    | none => none

def isData : ResourceNode → Bool
  | directory _ _ => false
  | data _ => true

end ResourceNode

end Landmark
