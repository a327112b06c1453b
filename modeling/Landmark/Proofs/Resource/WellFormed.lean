/-
Resource trees as the bytes of an image say them.

`DirectoryAt image base r node` says that the directory at relative place `r` is stored in the image as `node`: its header
and entries have room, and every entry's id and node are what the entry's two words refer to. It is about bytes alone; no
depth and no memory of places occur in it, and since it is inductive, only finite trees are stored. A word from 2³¹ on refers
to a name or a directory so much further on, and a name is what the units there stand for (`Utf16.Decodes`).
`WellFormed` adds what is asked of a whole tree: no path with more than eight directories in it, and no directory twice.
-/
import Landmark.Proofs.Image.Reading
import Landmark.Proofs.Text.Utf16
import Landmark.Resource.Directory

namespace Landmark

/-! ## Trees -/

namespace ResourceNode

mutual

/-- number of directories on the longest path down -/
def depth : ResourceNode → Nat
  | directory _ es => depthAll es + 1
  | data _ => 0

def depthAll : List (ResourceId × ResourceNode) → Nat
  | [] => 0
  | e :: es => max (depthEntry e) (depthAll es)

def depthEntry : ResourceId × ResourceNode → Nat
  | (_, node) => depth node

end

mutual

/-- physical offsets of all directories, a directory before those inside it -/
def directories : ResourceNode → List UInt32
  | directory offset es => offset :: directoriesAll es
  | data _ => []

def directoriesAll : List (ResourceId × ResourceNode) → List UInt32
  | [] => []
  | e :: es => directoriesEntry e ++ directoriesAll es

def directoriesEntry : ResourceId × ResourceNode → List UInt32
  | (_, node) => directories node

end

end ResourceNode

namespace Resource

/-! ## Bytes -/

section

variable (image : Image) (base : UInt32)

/-- `size` bytes at a relative place lie in the file and end at a word -/
structure HasRoom (relative : UInt32) (size : Nat) : Prop where
  word : base.toNat + relative.toNat + size < UInt32.size
  file : base.toNat + relative.toNat + size ≤ image.bytes.size

/-- physical offset of entry `k` of the directory at a relative place -/
def entryOffset (relative : UInt32) (k : Nat) : Nat :=
  base.toNat + relative.toNat + (16 + k * 8)

/-- a count and so many 16-bit units, which stand for the characters of the name -/
structure NameAt (relative : UInt32) (s : String) : Prop where
  room : HasRoom image base relative 2
  units : base.toNat + relative.toNat + 2 + image.halfAt (base.toNat + relative.toNat) * 2 ≤ image.bytes.size
  decodes : Utf16.Decodes (image.halvesAt (base.toNat + relative.toNat + 2) (image.halfAt (base.toNat + relative.toNat)))
    s.toList

/-- the word refers to a relative place: its highest bit is set, and the others are the place -/
def RefersTo (word relative : UInt32) : Prop :=
  word.toNat = 0x80000000 + relative.toNat

/-- the id that the first word of an entry refers to -/
def IdAt (word : UInt32) : ResourceId → Prop
  | .number n => word.toNat < 0x80000000 ∧ n = word
  | .name s => ∃ relative, RefersTo word relative ∧ NameAt image base relative s

/-- a data entry -/
structure DataAt (relative : UInt32) (d : ResourceData) : Prop where
  room : HasRoom image base relative 16
  entry : d.entry.toNat = base.toNat + relative.toNat
  rva : d.rva = image.wordAt (base.toNat + relative.toNat)
  size : d.size = image.wordAt (base.toNat + relative.toNat + 4)
  codePage : d.codePage = image.wordAt (base.toNat + relative.toNat + 8)

/-- the directory at a relative place: after a header, which ends with two counts, come that many entries of two words -/
inductive DirectoryAt : UInt32 → ResourceNode → Prop where
  | intro {relative offset : UInt32} {entries : List (ResourceId × ResourceNode)}
      (room : HasRoom image base relative (16 + entries.length * 8))
      (offset_eq : offset.toNat = base.toNat + relative.toNat)
      (count : entries.length = image.halfAt (offset.toNat + 12) + image.halfAt (offset.toNat + 14))
      (ids : ∀ k (h : k < entries.length), IdAt image base (image.wordAt (entryOffset base relative k)) entries[k].1)
      (data : ∀ k (h : k < entries.length), (image.wordAt (entryOffset base relative k + 4)).toNat < 0x80000000 →
        ∃ d, entries[k].2 = .data d ∧ DataAt image base (image.wordAt (entryOffset base relative k + 4)) d)
      (directories : ∀ k (h : k < entries.length) inner, RefersTo (image.wordAt (entryOffset base relative k + 4)) inner →
        DirectoryAt inner entries[k].2) :
      DirectoryAt relative (.directory offset entries)

/-- the node that the second word of an entry refers to -/
structure NodeAt (word : UInt32) (node : ResourceNode) : Prop where
  data : word.toNat < 0x80000000 → ∃ d, node = .data d ∧ DataAt image base word d
  directory : ∀ inner, RefersTo word inner → DirectoryAt image base inner node

/-- entry `k` of the directory at a relative place -/
structure EntryAt (relative : UInt32) (k : Nat) (e : ResourceId × ResourceNode) : Prop where
  room : HasRoom image base relative (16 + (k + 1) * 8)
  id : IdAt image base (image.wordAt (entryOffset base relative k)) e.1
  node : NodeAt image base (image.wordAt (entryOffset base relative k + 4)) e.2

/-- a whole tree: stored from the base on, not too deep, and without a directory that occurs twice -/
structure WellFormed (root : ResourceNode) : Prop where
  stored : DirectoryAt image base 0 root
  shallow : root.depth ≤ 8
  distinct : root.directories.Nodup

variable {image base}

theorem HasRoom.mono {relative : UInt32} {m n : Nat} (h : HasRoom image base relative n) (hmn : m ≤ n) :
    HasRoom image base relative m :=
  ⟨Nat.lt_of_le_of_lt (Nat.add_le_add_left hmn _) h.word, Nat.le_trans (Nat.add_le_add_left hmn _) h.file⟩

/-- a directory is its header and its entries, one by one -/
theorem directoryAt_iff {relative offset : UInt32} {entries : List (ResourceId × ResourceNode)} :
    DirectoryAt image base relative (.directory offset entries) ↔
      HasRoom image base relative 16 ∧ offset.toNat = base.toNat + relative.toNat ∧
      entries.length = image.halfAt (offset.toNat + 12) + image.halfAt (offset.toNat + 14) ∧
      ∀ k (h : k < entries.length), EntryAt image base relative k entries[k] := by
  constructor
  · rintro ⟨room, offset_eq, count, ids, data, directories⟩
    exact ⟨room.mono (Nat.le_add_right _ _), offset_eq, count,
      fun k hk => ⟨room.mono (by omega), ids k hk, data k hk, directories k hk⟩⟩
  · rintro ⟨room, offset_eq, count, hentries⟩
    refine .intro ?_ offset_eq count (fun k hk => (hentries k hk).id) (fun k hk => (hentries k hk).node.data)
      fun k hk => (hentries k hk).node.directory
    cases hn : entries.length with
    | zero => simpa using room
    | succ n => exact (hentries n (by omega)).room

/-- only directories are stored as directories -/
theorem DirectoryAt.exists_eq {relative : UInt32} {node : ResourceNode} (h : DirectoryAt image base relative node) :
    ∃ offset entries, node = .directory offset entries := by
  cases h
  exact ⟨_, _, rfl⟩

end

end Resource

end Landmark
