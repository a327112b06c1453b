/-
What a path of ids leads to in a resource tree.

Siblings may share an id. The lookup takes the first of them and does not come back, so an entry with a namesake before it is
shadowed together with everything below it.
- `Walk`: a path leads from a node to another one, the first entry with the id asked for being taken at each level.
- `PlacedAt`: a node stands in a tree at a line of positions, whatever the ids on the way.
- `Unshadowed`: each entry on the way is the first of its siblings with its id.
- `lookup_exact`: the lookup finds what a walk leads to, which is what stands unshadowed at the end of a path.
-/
import Landmark.Resource.Tree
import Mathlib.Data.List.Basic

namespace Landmark.ResourceNode

variable {root node child n : ResourceNode} {id : ResourceId} {path : List ResourceId} {i : Nat} {is : List Nat}

/-! ## Walks -/

/-- the path leads from one node to another, the first entry with the id being taken at each level -/
inductive Walk : ResourceNode → List ResourceId → ResourceNode → Prop where
  | stay (node : ResourceNode) : Walk node [] node
  | enter {offset : UInt32} {before after : List (ResourceId × ResourceNode)} {id : ResourceId} {child n : ResourceNode}
      {path : List ResourceId} (hfirst : ∀ e ∈ before, e.1 ≠ id) (h : Walk child path n) :
      Walk (.directory offset (before ++ (id, child) :: after)) (id :: path) n

theorem child?_eq_some_iff : node.child? id = some child ↔
    ∃ before after, node.entries = before ++ (id, child) :: after ∧ ∀ e ∈ before, e.1 ≠ id := by
  unfold child?
  rw [Option.map_eq_some_iff]
  constructor
  · rintro ⟨e, he, rfl⟩
    obtain ⟨hid, before, after, hentries, hfirst⟩ := List.find?_eq_some_iff_append.1 he
    obtain rfl := beq_iff_eq.1 hid
    exact ⟨before, after, hentries, fun e he => by simpa using hfirst e he⟩
  · rintro ⟨before, after, hentries, hfirst⟩
    refine ⟨(id, child), List.find?_eq_some_iff_append.2 ⟨beq_self_eq_true id, before, after, hentries, ?_⟩, rfl⟩
    intro e he
    simpa using hfirst e he

theorem find?_cons (node : ResourceNode) (id : ResourceId) (path : List ResourceId) :
    node.find? (id :: path) = (node.child? id).bind (·.find? path) := by
  rw [find?]
  cases node.child? id <;> rfl

/-- **The lookup finds what a walk leads to.** -/
theorem find?_eq_some_iff_walk : node.find? path = some n ↔ Walk node path n := by
  induction path generalizing node with
  | nil =>
    constructor
    · intro h
      obtain rfl := Option.some.inj h
      exact .stay node
    · rintro ⟨⟩
      rfl
  | cons id path ih =>
    rw [find?_cons, Option.bind_eq_some_iff]
    constructor
    · rintro ⟨child, hchild, hfind⟩
      obtain ⟨before, after, hentries, hfirst⟩ := child?_eq_some_iff.1 hchild
      cases node with
      | directory offset entries =>
        obtain rfl : entries = before ++ (id, child) :: after := hentries
        exact .enter hfirst (ih.1 hfind)
      | data d => exact absurd hentries (by simp [entries])
    · rintro (_ | ⟨hfirst, h⟩)
      exact ⟨_, child?_eq_some_iff.2 ⟨_, _, rfl, hfirst⟩, ih.2 h⟩

/-- a path in two parts is walked in two parts -/
theorem find?_append (node : ResourceNode) (p q : List ResourceId) :
    node.find? (p ++ q) = (node.find? p).bind (·.find? q) := by
  induction p generalizing node with
  | nil => rfl
  | cons id p ih =>
    rw [List.cons_append, find?_cons, find?_cons, Option.bind_assoc]
    exact congrArg (Option.bind (node.child? id)) (funext ih)

/-- nothing is below a leaf -/
theorem find?_data (d : ResourceData) (id : ResourceId) (path : List ResourceId) :
    (ResourceNode.data d).find? (id :: path) = none := rfl

/-! ## Places -/

/-- the node at the end of a line of positions -/
def nodeAt? (node : ResourceNode) : List Nat → Option ResourceNode
  | [] => some node
  | i :: is => (node.entries[i]?).bind (·.2.nodeAt? is)

/-- in the tree of `node`, the node `n` stands at this line of positions, and the ids on the way make up this path -/
inductive PlacedAt : ResourceNode → List Nat → List ResourceId → ResourceNode → Prop where
  | root (node : ResourceNode) : PlacedAt node [] [] node
  | entry {node child n : ResourceNode} {i : Nat} {is : List Nat} {id : ResourceId} {path : List ResourceId}
      (hentry : node.entries[i]? = some (id, child)) (h : PlacedAt child is path n) :
      PlacedAt node (i :: is) (id :: path) n

/-- no entry before position `i` has the id of the one there -/
def FirstOfItsId (entries : List (ResourceId × ResourceNode)) (i : Nat) : Prop :=
  ∀ j < i, entries[j]?.map (·.1) ≠ entries[i]?.map (·.1)

/-- at this line of positions, the node and all those above it are the first of their siblings with their id -/
def Unshadowed (root : ResourceNode) (is : List Nat) : Prop :=
  ∀ up i down, is = up ++ i :: down → ∀ parent, root.nodeAt? up = some parent → FirstOfItsId parent.entries i

theorem unshadowed_nil (root : ResourceNode) : root.Unshadowed [] := by
  intro up i down h
  exact absurd h (List.append_ne_nil_of_right_ne_nil up (List.cons_ne_nil i down)).symm

/-- the topmost entry is the first with its id, and nothing is shadowed below it -/
theorem unshadowed_cons (hentry : root.entries[i]? = some (id, child)) :
    root.Unshadowed (i :: is) ↔ FirstOfItsId root.entries i ∧ child.Unshadowed is := by
  have hbelow : ∀ up, root.nodeAt? (i :: up) = child.nodeAt? up := by
    intro up
    rw [nodeAt?, hentry]
    rfl
  constructor
  · intro h
    refine ⟨h [] i is rfl root rfl, ?_⟩
    rintro up j down rfl parent hparent
    exact h (i :: up) j down rfl parent ((hbelow up).trans hparent)
  · rintro ⟨hfirst, hrest⟩ up j down heq parent hparent
    cases up with
    | nil =>
      obtain ⟨rfl, rfl⟩ := List.cons_eq_cons.1 heq
      obtain rfl := Option.some.inj hparent
      exact hfirst
    | cons k up =>
      obtain ⟨rfl, rfl⟩ := List.cons_eq_cons.1 heq
      exact hrest up j down rfl parent ((hbelow up).symm.trans hparent)

/-- the first entry with an id, told by its position -/
theorem child?_eq_some_iff_position : node.child? id = some child ↔
    ∃ i, node.entries[i]? = some (id, child) ∧ FirstOfItsId node.entries i := by
  unfold child?
  rw [Option.map_eq_some_iff]
  constructor
  · rintro ⟨e, he, rfl⟩
    obtain ⟨hid, i, hi, rfl, hfirst⟩ := List.find?_eq_some_iff_getElem.1 he
    obtain rfl := beq_iff_eq.1 hid
    refine ⟨i, List.getElem?_eq_getElem hi, ?_⟩
    intro j hj
    rw [List.getElem?_eq_getElem hi, List.getElem?_eq_getElem (Nat.lt_trans hj hi)]
    simpa using hfirst j hj
  · rintro ⟨i, hentry, hfirst⟩
    obtain ⟨hi, hget⟩ := List.getElem?_eq_some_iff.1 hentry
    refine ⟨(id, child), List.find?_eq_some_iff_getElem.2 ⟨beq_self_eq_true id, i, hi, hget, ?_⟩, rfl⟩
    intro j hj
    have hne := hfirst j hj
    rw [hentry, List.getElem?_eq_getElem (Nat.lt_trans hj hi)] at hne
    simpa using hne

/-- **The lookup finds what stands unshadowed at the end of a path.** -/
theorem find?_eq_some_iff_placed : root.find? path = some n ↔ ∃ is, root.PlacedAt is path n ∧ root.Unshadowed is := by
  induction path generalizing root with
  | nil =>
    constructor
    · intro h
      obtain rfl := Option.some.inj h
      exact ⟨[], .root root, unshadowed_nil root⟩
    · rintro ⟨is, ⟨⟩, -⟩
      rfl
  | cons id path ih =>
    rw [find?_cons, Option.bind_eq_some_iff]
    constructor
    · rintro ⟨child, hchild, hfind⟩
      obtain ⟨i, hentry, hfirst⟩ := child?_eq_some_iff_position.1 hchild
      obtain ⟨is, hplaced, hrest⟩ := ih.1 hfind
      exact ⟨i :: is, .entry hentry hplaced, (unshadowed_cons hentry).2 ⟨hfirst, hrest⟩⟩
    · rintro ⟨_, _ | ⟨hentry, hplaced⟩, hunshadowed⟩
      obtain ⟨hfirst, hrest⟩ := (unshadowed_cons hentry).1 hunshadowed
      exact ⟨_, child?_eq_some_iff_position.2 ⟨_, hentry, hfirst⟩, ih.2 ⟨_, hplaced, hrest⟩⟩

/-- no two unshadowed places have the same path -/
theorem PlacedAt.unique {n n' : ResourceNode} {is is' : List Nat} (h : root.PlacedAt is path n) (hu : root.Unshadowed is)
    (h' : root.PlacedAt is' path n') (hu' : root.Unshadowed is') : is = is' := by
  induction h generalizing is' with
  | root node =>
    cases h'
    rfl
  | @entry node child n i is id path hentry hplaced ih =>
    cases h' with
    | @entry _ child' _ j js _ _ hentry' hplaced' =>
      obtain ⟨hfirst, hrest⟩ := (unshadowed_cons hentry).1 hu
      obtain ⟨hfirst', hrest'⟩ := (unshadowed_cons hentry').1 hu'
      -- of two entries with one id, the later one is not the first
      have hposition : i = j := by
        rcases Nat.lt_trichotomy i j with hlt | heq | hgt
        · exact absurd (by rw [hentry, hentry']; rfl) (hfirst' i hlt)
        · exact heq
        · exact absurd (by rw [hentry, hentry']; rfl) (hfirst j hgt)
      subst hposition
      obtain rfl : child = child' := congrArg Prod.snd (Option.some.inj (hentry.symm.trans hentry'))
      rw [ih hrest hplaced' hrest']

/-! ## The lookup -/

/-- **The lookup of a path is exact.** It finds a node if and only if a walk along the path leads there, numbers and names
being told apart. That is the node that stands at the end of the path with nothing shadowed on the way, and there is one
such place at most. A path that goes on below a leaf finds nothing, and a path in two parts is looked up in two parts. -/
theorem lookup_exact (root : ResourceNode) (path : List ResourceId) :
    (∀ n, root.find? path = some n ↔ Walk root path n) ∧ (∀ k s, ResourceId.number k ≠ .name s) ∧
    (∀ is n, root.PlacedAt is path n → root.Unshadowed is → root.find? path = some n) ∧
    (∀ n, root.find? path = some n → ∃! is, root.PlacedAt is path n ∧ root.Unshadowed is) ∧
    (∀ d id rest, root.find? path = some (.data d) → root.find? (path ++ id :: rest) = none) ∧
    ∀ rest, root.find? (path ++ rest) = (root.find? path).bind (·.find? rest) := by
  refine ⟨fun n => find?_eq_some_iff_walk, nofun, ?_, ?_, ?_, root.find?_append path⟩
  · intro is n hplaced hunshadowed
    exact find?_eq_some_iff_placed.2 ⟨is, hplaced, hunshadowed⟩
  · intro n hfind
    obtain ⟨is, hplaced, hunshadowed⟩ := find?_eq_some_iff_placed.1 hfind
    refine ⟨is, ⟨hplaced, hunshadowed⟩, ?_⟩
    rintro is' ⟨hplaced', hunshadowed'⟩
    exact hplaced'.unique hunshadowed' hplaced hunshadowed
  · intro d id rest hfind
    rw [find?_append, hfind, Option.bind_some, find?_data]

/-- a leaf in a named directory, and another one in a directory whose number a leaf before it has too -/
def namesakes : ResourceNode :=
  .directory 0 [
    (.number 1, .data ⟨0x50, 0x6000, 4, 0⟩),
    (.name "1", .directory 0x20 [(.number 7, .data ⟨0x60, 0x6100, 4, 0⟩)]),
    (.number 1, .directory 0x38 [(.number 7, .data ⟨0x70, 0x6200, 4, 0⟩)])]

/-- the leaf under the name is found; the one under the number is there, but the lookup does not come back to it -/
theorem namesakes_found :
    Walk namesakes [.name "1", .number 7] (.data ⟨0x60, 0x6100, 4, 0⟩) ∧
      namesakes.find? [.number 1] = some (.data ⟨0x50, 0x6000, 4, 0⟩) ∧
      namesakes.PlacedAt [2, 0] [.number 1, .number 7] (.data ⟨0x70, 0x6200, 4, 0⟩) ∧
      namesakes.find? [.number 1, .number 7] = none ∧ ¬ namesakes.Unshadowed [2, 0] := by
  have hnamed : namesakes.find? [.name "1", .number 7] = some (.data ⟨0x60, 0x6100, 4, 0⟩) := rfl
  have hfirst : namesakes.find? [.number 1] = some (.data ⟨0x50, 0x6000, 4, 0⟩) := rfl
  have hplaced : namesakes.PlacedAt [2, 0] [.number 1, .number 7] (.data ⟨0x70, 0x6200, 4, 0⟩) :=
    .entry rfl (.entry rfl (.root _))
  obtain ⟨hwalk, -⟩ := lookup_exact namesakes [.name "1", .number 7]
  obtain ⟨-, -, -, -, hleaf, -⟩ := lookup_exact namesakes [.number 1]
  obtain ⟨-, -, hfound, -⟩ := lookup_exact namesakes [.number 1, .number 7]
  have hnone : namesakes.find? [.number 1, .number 7] = none := hleaf _ _ _ hfirst
  refine ⟨(hwalk _).1 hnamed, hfirst, hplaced, hnone, ?_⟩
  intro hunshadowed
  have hsome := hfound _ _ hplaced hunshadowed
  rw [hnone] at hsome
  contradiction

end Landmark.ResourceNode
