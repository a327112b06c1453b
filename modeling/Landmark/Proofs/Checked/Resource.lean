/-
The resource reader takes every step in range.

`Checked.readTree` reads a tree as `Resource.readTree` does, but with every byte it looks at and every sum and product of
words as a checked step, and it leaves a `Trail`: the parts of the file it has read, the directories it has entered and how
deep it went. `Follows` says of a reader that it meets no hazard, keeps the trail sound and ends with the answer or the fault
that the reader without checks ends with. It holds of the parts of a directory, by induction on their number of its entries
(`follows_entries`) and by induction on the levels left of all directories (`follows_directory`), whence `readTree_safe`.
-/
import Landmark.Proofs.Checked.Basic
import Landmark.Proofs.Resource.Reading

namespace Landmark.Checked

open Landmark.Resource (maxDepth headerSize entrySize highBit lowBits)

/-- what a reader has done -/
structure Trail where
  /-- start and size of the parts of the file read, the last one first -/
  reads : List (Nat × Nat)
  /-- places of the directories entered, the last one first -/
  entered : List UInt32
  /-- number of directories being read -/
  nesting : Nat
  /-- the most directories that were being read at a time -/
  deepest : Nat

namespace Trail

def start : Trail := ⟨[], [], 0, 0⟩

def read (t : Trail) (offset size : Nat) : Trail :=
  { t with reads := (offset, size) :: t.reads }

def enter (t : Trail) (relative : UInt32) : Trail :=
  { t with entered := relative :: t.entered, nesting := t.nesting + 1, deepest := max t.deepest (t.nesting + 1) }

def leave (t : Trail) : Trail :=
  { t with nesting := t.nesting - 1 }

/-- reads stay in a file of `size` bytes, no directory is entered twice and not too many at a time -/
structure Sound (size : Nat) (t : Trail) : Prop where
  reads : ∀ r ∈ t.reads, r.1 + r.2 ≤ size
  entered : t.entered.Nodup
  deepest : t.deepest ≤ maxDepth

end Trail

/-- checked programs that may fail and leave a trail, also where they fail -/
abbrev Reading := ExceptT Fault (StateT Trail Checked)

/-- bytes from a physical offset on -/
def take (image : Image) (offset : UInt32) (size : Nat) : Reading (List UInt8) :=
  if offset.toNat + size ≤ image.bytes.size then do
    modify (·.read offset.toNat size)
    let bytes ← part image.bytes offset.toNat (offset.toNat + size)
    return bytes.toList
  else throw (.readPastEnd offset size)

/-- physical offset of a relative place that `size` bytes are wanted from -/
def readPlace (base relative size : UInt32) : Reading UInt32 :=
  match (Word.addExact base relative).filter fun start => (Word.addExact start size).isSome with
  | some start => return start
  | none => throw (.readPastEnd relative size.toNat)

def readWord (image : Image) (offset : UInt32) : Reading UInt32 := do
  let bytes ← take image offset 4
  word bytes 0

def readName (image : Image) (base relative : UInt32) : Reading String := do
  let offset ← readPlace base relative 2
  let count ← half (← take image offset 2) 0
  let units ← take image (← add offset 2) (count * 2)
  return Utf16.text units

def readId (image : Image) (base word : UInt32) : Reading ResourceId :=
  if highBit word then return .name (← readName image base (lowBits word)) else return .number word

def readData (image : Image) (base relative : UInt32) : Reading ResourceData := do
  let entry ← readPlace base relative 16
  let bytes ← take image entry headerSize
  return ⟨entry, ← word bytes 0, ← word bytes 4, ← word bytes 8⟩

def readNode (image : Image) (base : UInt32) (descend : UInt32 → Reading ResourceNode) (word : UInt32) :
    Reading ResourceNode :=
  if highBit word then descend (lowBits word) else return .data (← readData image base word)

/-- size of a directory up to the end of an entry -/
def sizeThrough (index : UInt32) : Checked UInt32 := do
  let next ← add index 1
  add 16 (← mul next 8)

/-- first byte of an entry of the directory at a physical offset -/
def entryStart (start index : UInt32) : Checked UInt32 := do
  let first ← add start 16
  add first (← mul index 8)

def readEntry (image : Image) (base relative : UInt32) (descend : UInt32 → Reading ResourceNode) (index : UInt32) :
    Reading (ResourceId × ResourceNode) := do
  let start ← readPlace base relative (← sizeThrough index)
  let entry ← entryStart start index
  let name ← readWord image entry
  let target ← readWord image (← add entry 4)
  let id ← readId image base name
  let node ← readNode image base descend target
  return (id, node)

def readEntries (image : Image) (base relative : UInt32) (descend : UInt32 → Reading ResourceNode) (index : Nat) :
    (count : Nat) → Reading (List (ResourceId × ResourceNode))
  | 0 => return []
  | count + 1 => do
    let entry ← readEntry image base relative descend (UInt32.ofNat index)
    let entries ← readEntries image base relative descend (index + 1) count
    return entry :: entries

/-- enters a directory, unless this was done before, and leaves it after its contents -/
def inside {α : Type} (relative : UInt32) (contents : Reading α) : Reading α := do
  if (← get).entered.contains relative then throw (Resource.metTwice relative)
  else do
    modify (·.enter relative)
    let a ← contents
    modify Trail.leave
    return a

def readDirectory (image : Image) (base : UInt32) : (levels : Nat) → UInt32 → Reading ResourceNode
  | 0, relative => throw (Resource.tooDeep relative)
  | levels + 1, relative => inside relative do
    let offset ← readPlace base relative 16
    let header ← take image offset headerSize
    let count ← add (UInt32.ofNat (← half header 12)) (UInt32.ofNat (← half header 14))
    let entries ← readEntries image base relative (readDirectory image base levels) 0 count.toNat
    return .directory offset entries

def readTree (image : Image) (base : UInt32) : Reading ResourceNode :=
  readDirectory image base maxDepth 0

/-! ## Following a reader -/

/-- faults of reading: a read that leaves the file or words, and a tree that is none -/
def IsReadingFault (f : Fault) : Prop :=
  (∃ offset size, f = .readPastEnd offset size) ∨ ∃ detail, f = .invalidImage detail

/-- reads that a directory can ask for by itself: its header and five for each of its entries -/
def readsPerDirectory : Nat := 1 + 5 * 131070

/-- With `nesting` directories open, a reader takes every step in range, keeps its trail sound and ends as `told`, which is
given the directories entered. It makes `budget` reads at most, and those of the directories it enters. -/
def Follows {α : Type} (image : Image) (nesting budget : Nat) (x : Reading α)
    (told : List UInt32 → Except Fault (α × List UInt32)) : Prop :=
  ∀ t : Trail, t.Sound image.bytes.size → t.nesting = nesting → ∃ r t', x.run.run t = .ok (r, t') ∧
    t'.Sound image.bytes.size ∧
    t'.reads.length + readsPerDirectory * t.entered.length ≤
      t.reads.length + readsPerDirectory * t'.entered.length + budget ∧
    match r with
    | .ok a => told t.entered = .ok (a, t'.entered) ∧ t'.nesting = nesting
    | .error f => told t.entered = .error f ∧ IsReadingFault f

/-- what is told by one reader and then another one -/
def thread {α β : Type} (told : List UInt32 → Except Fault (α × List UInt32))
    (next : α → List UInt32 → Except Fault (β × List UInt32)) (met : List UInt32) : Except Fault (β × List UInt32) := do
  let (a, met) ← told met
  next a met

/-- a reader that enters no directory ends as `y` does -/
def Reads {α : Type} (image : Image) (budget : Nat) (x : Reading α) (y : Except Fault α) : Prop :=
  ∀ nesting, Follows image nesting budget x fun met => y.map fun a => (a, met)

section

variable {α β : Type} {image : Image} {nesting cost budget : Nat} {x : Reading α} {f : α → Reading β}
  {y : Except Fault α} {g : α → Except Fault β} {z : Except Fault β}
  {told : List UInt32 → Except Fault (α × List UInt32)} {next : α → List UInt32 → Except Fault (β × List UInt32)}
  {rest : List UInt32 → Except Fault (β × List UInt32)}

theorem run_bind (x : Reading α) (f : α → Reading β) (t : Trail) : (x >>= f).run.run t = (x.run.run t).bind fun
    | (.ok a, t') => (f a).run.run t'
    | (.error e, t') => .ok (.error e, t') := by
  show Except.bind _ _ = _
  congr 1
  funext ⟨r, t'⟩
  cases r <;> rfl

theorem Follows.pure (a : α) : Follows image nesting budget (Pure.pure a) fun met => .ok (a, met) :=
  fun t ht hn => ⟨.ok a, t, rfl, ht, Nat.le_add_right _ _, rfl, hn⟩

theorem Follows.throw {e : Fault} (he : IsReadingFault e) :
    Follows image nesting budget (throw e : Reading α) fun _ => .error e :=
  fun t ht _ => ⟨.error e, t, rfl, ht, Nat.le_add_right _ _, rfl, he⟩

theorem Follows.mono (h : Follows image nesting cost x told) (hle : cost ≤ budget) : Follows image nesting budget x told := by
  intro t ht hn
  obtain ⟨r, t', hrun, hsound, hreads, hr⟩ := h t ht hn
  exact ⟨r, t', hrun, hsound, Nat.le_trans hreads (Nat.add_le_add_left hle _), hr⟩

/-- a reader and then another one, which may rely on what the first one was told -/
theorem Follows.bind (hx : Follows image nesting cost x told) (hcost : cost ≤ budget)
    (hf : ∀ a met met', told met = .ok (a, met') → Follows image nesting (budget - cost) (f a) (next a)) :
    Follows image nesting budget (x >>= f) (thread told next) := by
  intro t ht hn
  obtain ⟨r, t', hrun, hsound, hreads, hr⟩ := hx t ht hn
  cases r with
  | error e =>
    obtain ⟨htold, he⟩ := hr
    refine ⟨.error e, t', ?_, hsound, by omega, ?_, he⟩
    · rw [run_bind, hrun]; rfl
    · rw [thread, htold]; rfl
  | ok a =>
    obtain ⟨htold, hn'⟩ := hr
    obtain ⟨r, t'', hrun', hsound', hreads', hr'⟩ := hf a _ _ htold t' hsound hn'
    refine ⟨r, t'', ?_, hsound', by omega, ?_⟩
    · rw [run_bind, hrun]; exact hrun'
    · rw [thread, htold]; exact hr'

/-- a reader that enters no directory, and then any other one -/
theorem Follows.read (hx : Reads image cost x y) (hcost : cost ≤ budget)
    (hf : ∀ a, y = .ok a → Follows image nesting (budget - cost) (f a) (next a)) :
    Follows image nesting budget (x >>= f) fun met => y >>= fun a => next a met := by
  have h := (hx nesting).bind hcost fun a met met' htold => hf a (by
    obtain ⟨b, hb, heq⟩ := map_eq_ok_iff.1 htold
    cases heq
    exact hb)
  cases y <;> exact h

/-- a checked step in range, and then a reader -/
theorem Follows.step {c : Checked α} {a : α} (hc : c = .ok a) (hf : Follows image nesting budget (f a) rest) :
    Follows image nesting budget (liftM c >>= f) rest := by
  subst hc
  exact hf

theorem Reads.pure (a : α) : Reads image budget (Pure.pure a) (.ok a) :=
  fun _ => .pure a

theorem Reads.throw {e : Fault} (he : IsReadingFault e) : Reads image budget (throw e : Reading α) (.error e) :=
  fun _ => .throw he

theorem Reads.answer {c : Checked α} {a : α} (hc : c = .ok a) : Reads image budget (liftM c) (.ok a) := by
  subst hc
  exact .pure a

theorem Reads.bind (hx : Reads image cost x y) (hcost : cost ≤ budget)
    (hf : ∀ a, y = .ok a → Reads image (budget - cost) (f a) (g a)) : Reads image budget (x >>= f) (y >>= g) := by
  intro nesting
  have h := Follows.read hx hcost fun a ha => hf a ha nesting
  cases y <;> exact h

theorem Reads.step {c : Checked α} {a : α} (hc : c = .ok a) (hf : Reads image budget (f a) z) :
    Reads image budget (liftM c >>= f) z :=
  fun nesting => .step hc (hf nesting)

end

/-! ## Parts of a directory -/

variable {image : Image} {base : UInt32}

theorem length_of_readBytes {offset : UInt32} {size : Nat} {bytes : List UInt8}
    (h : image.readBytes offset size = .ok bytes) : bytes.length = size := by
  obtain ⟨hfile, rfl⟩ := Image.readBytes_eq_ok_iff.1 h
  rw [Array.length_toList, Array.size_extract]
  omega

theorem reads_take (offset : UInt32) (size : Nat) : Reads image 1 (take image offset size) (image.readBytes offset size) := by
  intro nesting t ht hn
  unfold take Image.readBytes
  split
  · next h =>
    have hpart := part_eq (Nat.le_add_right offset.toNat size) h
    refine ⟨.ok _, t.read offset.toNat size, ?_, ⟨?_, ht.entered, ht.deepest⟩, ?_, rfl, hn⟩
    · rw [hpart]; rfl
    · intro r hr
      rcases List.mem_cons.1 hr with rfl | hr
      · exact h
      · exact ht.reads r hr
    · show t.reads.length + 1 + _ ≤ _
      rw [Nat.add_right_comm]
      exact Nat.le_refl _
  · exact ⟨.error _, t, rfl, ht, Nat.le_succ _, rfl, .inl ⟨offset, size, rfl⟩⟩

theorem reads_place (relative : UInt32) {size : UInt32} {n : Nat} (hsize : size.toNat = n) :
    Reads image 0 (readPlace base relative size) (Resource.place base relative n) := by
  subst hsize
  have hplace : Resource.place base relative size.toNat =
      match (Word.addExact base relative).filter fun start => (Word.addExact start size).isSome with
      | some start => .ok start
      | none => .error (.readPastEnd relative size.toNat) := by
    unfold Resource.place
    by_cases hstart : base.toNat + relative.toNat < UInt32.size
    · rw [Word.addExact, if_pos hstart]
      simp only [Option.filter_some, Word.isSome_addExact, Word.toNat_add_of_lt hstart]
      split <;> rfl
    · rw [Word.addExact, if_neg hstart, if_neg (by omega)]
      rfl
  rw [hplace, readPlace]
  split
  · exact .pure _
  · exact .throw (.inl ⟨_, _, rfl⟩)

theorem reads_word (offset : UInt32) : Reads image 1 (readWord image offset) (image.readWord offset) := by
  have hmap : image.readWord offset = image.readBytes offset 4 >>= fun bytes => .ok (Word.ofBytes bytes) := rfl
  rw [hmap]
  refine .bind (reads_take offset 4) (Nat.le_refl _) fun bytes hbytes => .answer ?_
  have hlength := length_of_readBytes hbytes
  rw [word_eq (by omega), List.drop_zero, List.take_of_length_le (by omega)]

theorem reads_name (relative : UInt32) :
    Reads image 2 (readName image base relative) (Resource.readName image base relative) := by
  refine .bind (reads_place relative rfl) (Nat.zero_le _) fun offset hoffset => ?_
  obtain ⟨hplace, rfl⟩ := Resource.place_eq_ok_iff.1 hoffset
  refine .bind (reads_take _ 2) (by decide) fun count hcount => ?_
  have hlength := length_of_readBytes hcount
  have hhalf : half count 0 = .ok (Word.valueOf count) := by
    rw [half_eq (by omega), List.drop_zero, List.take_of_length_le (by omega)]
  have hpast : add (base + relative) 2 = .ok (base + relative + 2) := add_eq (by
    rw [Word.toNat_add_of_lt (by omega)]
    exact hplace)
  exact .step hhalf (.step hpast (.bind (reads_take _ _) (by decide) fun units _ => .pure _))

theorem reads_id (word : UInt32) : Reads image 2 (readId image base word) (Resource.readId image base word) := by
  unfold readId Resource.readId
  split
  · exact .bind (reads_name _) (Nat.le_refl _) fun name _ => .pure _
  · exact .pure _

theorem reads_data (relative : UInt32) :
    Reads image 1 (readData image base relative) (Resource.readData image base relative) := by
  refine .bind (reads_place relative rfl) (Nat.zero_le _) fun entry _ => ?_
  refine .bind (reads_take entry headerSize) (by decide) fun bytes hbytes => ?_
  have hlength : bytes.length = 16 := length_of_readBytes hbytes
  exact .step (word_eq (by omega)) (.step (word_eq (by omega)) (.step (word_eq (by omega)) (.pure _)))

/-! ## Directories -/

section

variable {nesting : Nat} {descend : UInt32 → Reading ResourceNode} {told : Resource.Descent}

theorem follows_node (hd : ∀ relative, Follows image nesting 0 (descend relative) (told relative)) (word : UInt32) :
    Follows image nesting 1 (readNode image base descend word) (Resource.readNode image base told word) := by
  unfold readNode Resource.readNode
  split
  · exact (hd _).mono (Nat.zero_le _)
  · exact .read (reads_data word) (Nat.le_refl _) fun data _ => .pure _

theorem sizeThrough_eq {k : Nat} (hk : k < 131070) :
    sizeThrough (.ofNat k) = .ok (.ofNat (headerSize + (k + 1) * entrySize)) := by
  have hsize : UInt32.size = 0x100000000 := rfl
  have hnext : add (.ofNat k) 1 = .ok (.ofNat (k + 1)) := add_ofNat k 1 (by omega)
  have hpast : mul (.ofNat (k + 1)) 8 = .ok (.ofNat ((k + 1) * 8)) := mul_ofNat _ 8 (by omega) (by decide) (by omega)
  have hend : add 16 (.ofNat ((k + 1) * 8)) = .ok (.ofNat (16 + (k + 1) * 8)) := add_ofNat 16 _ (by omega)
  simp only [sizeThrough, hnext, ok_bind, hpast, hend, headerSize, entrySize]

theorem entryStart_eq {k : Nat} (hk : k < 131070) {start : UInt32}
    (h : start.toNat + (headerSize + (k + 1) * entrySize) < UInt32.size) :
    entryStart start (.ofNat k) = .ok (start + .ofNat (headerSize + k * entrySize)) := by
  have hsize : UInt32.size = 0x100000000 := rfl
  rw [headerSize, entrySize] at h
  have hfirst : add (.ofNat start.toNat) 16 = .ok (.ofNat (start.toNat + 16)) := add_ofNat _ 16 (by omega)
  have hskipped : mul (.ofNat k) 8 = .ok (.ofNat (k * 8)) := mul_ofNat _ 8 (by omega) (by decide) (by omega)
  have hentry : add (.ofNat (start.toNat + 16)) (.ofNat (k * 8)) = .ok (.ofNat (start.toNat + 16 + k * 8)) :=
    add_ofNat _ _ (by omega)
  have hsum : UInt32.ofNat (start.toNat + 16 + k * 8) = start + .ofNat (16 + k * 8) := by
    rw [Nat.add_assoc, UInt32.ofNat_add, UInt32.ofNat_toNat]
  rw [UInt32.ofNat_toNat] at hfirst
  rw [hsum] at hentry
  simp only [entryStart, hfirst, ok_bind, hskipped, hentry, headerSize, entrySize]

/-- the end of an entry is a word, and so are the places of its two words -/
theorem follows_entry (hd : ∀ relative, Follows image nesting 0 (descend relative) (told relative)) (relative : UInt32)
    {k : Nat} (hk : k < 131070) : Follows image nesting 5 (readEntry image base relative descend (.ofNat k))
      (Resource.readEntry image base relative told k) := by
  rw [funext (Resource.readEntry_eq relative told k)]
  have hsize : UInt32.size = 0x100000000 := rfl
  have hthrough : (UInt32.ofNat (headerSize + (k + 1) * entrySize)).toNat = headerSize + (k + 1) * entrySize :=
    UInt32.toNat_ofNat_of_lt' (by rw [headerSize, entrySize]; omega)
  refine .step (sizeThrough_eq hk) (.read (reads_place relative hthrough) (Nat.zero_le _) fun start hstart => ?_)
  obtain ⟨hplace, rfl⟩ := Resource.place_eq_ok_iff.1 hstart
  have hsum : (base + relative).toNat = base.toNat + relative.toNat := Word.toNat_add_of_lt (by omega)
  have hentry : (base + relative + .ofNat (headerSize + k * entrySize)).toNat =
      base.toNat + relative.toNat + (headerSize + k * entrySize) := by
    rw [headerSize, entrySize] at hplace ⊢
    have hskipped : (UInt32.ofNat (16 + k * 8)).toNat = 16 + k * 8 := UInt32.toNat_ofNat_of_lt' (by omega)
    rw [Word.toNat_add_of_lt (by omega), hsum, hskipped]
  have hfour : add (base + relative + .ofNat (headerSize + k * entrySize)) 4 =
      .ok (base + relative + .ofNat (headerSize + k * entrySize) + 4) := add_eq (by
    have hfour : (4 : UInt32).toNat = 4 := rfl
    rw [headerSize, entrySize] at hplace hentry ⊢
    omega)
  refine .step (entryStart_eq hk (by rw [hsum]; exact hplace)) ?_
  refine .read (reads_word _) (by decide) fun name _ => .step hfour ?_
  refine .read (reads_word _) (by decide) fun target _ => .read (reads_id name) (by decide) fun id _ => ?_
  exact .bind (follows_node hd target) (by decide) fun node met met' _ => .pure _

theorem readEntries_succ (relative : UInt32) (k n : Nat) :
    Resource.readEntries image base relative told k (n + 1) =
      thread (Resource.readEntry image base relative told k) fun entry =>
        thread (Resource.readEntries image base relative told (k + 1) n) fun entries met => .ok (entry :: entries, met) :=
  rfl

/-- a directory has 131070 entries at most, the sum of two half words -/
theorem follows_entries (hd : ∀ relative, Follows image nesting 0 (descend relative) (told relative)) (relative : UInt32)
    {k n : Nat} (hk : k + n ≤ 131070) : Follows image nesting (5 * n) (readEntries image base relative descend k n)
      (Resource.readEntries image base relative told k n) := by
  induction n generalizing k with
  | zero => exact .pure _
  | succ n ih =>
    have hfirst : k < 131070 := by omega
    have hrest : k + 1 + n ≤ 131070 := by omega
    rw [readEntries, readEntries_succ]
    refine .bind (follows_entry hd relative hfirst) (by omega) fun entry _ _ _ => ?_
    exact .bind (ih hrest) (by omega) fun entries _ _ _ => .pure _

end

theorem run_inside {α : Type} (relative : UInt32) (contents : Reading α) (t : Trail) :
    (inside relative contents).run.run t =
      if t.entered.contains relative then .ok (.error (Resource.metTwice relative), t)
      else (contents.run.run (t.enter relative)).bind fun
        | (.ok a, t') => .ok (.ok a, t'.leave)
        | (.error e, t') => .ok (.error e, t') := by
  show (if t.entered.contains relative then throw (Resource.metTwice relative)
    else do modify (·.enter relative); let a ← contents; modify Trail.leave; return a : Reading α).run.run t = _
  split
  · rfl
  · show (contents >>= fun a => modify Trail.leave >>= fun _ => pure a).run.run (t.enter relative) = _
    rw [run_bind]
    rfl

/-- **Entering a directory.** It is entered for the first time, and the reads it asks for are charged to it. -/
theorem follows_inside {α : Type} {nesting : Nat} {relative : UInt32} {contents : Reading α}
    {told : List UInt32 → Except Fault (α × List UInt32)} (hlevel : nesting < maxDepth)
    (h : Follows image (nesting + 1) readsPerDirectory contents told) :
    Follows image nesting 0 (inside relative contents) fun met =>
      if met.contains relative then .error (Resource.metTwice relative) else told (relative :: met) := by
  intro t ht hnesting
  rw [run_inside]
  dsimp only
  split
  · next hmet => exact ⟨.error _, t, rfl, ht, Nat.le_refl _, rfl, .inr ⟨_, rfl⟩⟩
  · next hmet =>
    have hmet : relative ∉ t.entered := fun hm => hmet (List.contains_iff_mem.2 hm)
    have hentered : (t.enter relative).Sound image.bytes.size :=
      ⟨ht.reads, List.nodup_cons.2 ⟨hmet, ht.entered⟩, Nat.max_le.2 ⟨ht.deepest, by rw [hnesting]; exact hlevel⟩⟩
    obtain ⟨r, t', hrun, hsound, hreads, hr⟩ := h (t.enter relative) hentered (congrArg (· + 1) hnesting)
    have hcharged : t'.reads.length + readsPerDirectory * t.entered.length ≤
        t.reads.length + readsPerDirectory * t'.entered.length + 0 := by
      have hlength : readsPerDirectory * (t.enter relative).entered.length =
          readsPerDirectory * t.entered.length + readsPerDirectory := Nat.mul_succ _ _
      have hsame : (t.enter relative).reads.length = t.reads.length := rfl
      omega
    rw [hrun]
    cases r with
    | error e => exact ⟨.error e, t', rfl, hsound, hcharged, hr⟩
    | ok a =>
      obtain ⟨htold, hnesting'⟩ := hr
      refine ⟨.ok a, t'.leave, rfl, ⟨hsound.reads, hsound.entered, hsound.deepest⟩, hcharged, htold, ?_⟩
      rw [Trail.leave, hnesting']
      rfl

/-- reading a directory that has just been entered -/
def readEntered (image : Image) (base : UInt32) (descend : Resource.Descent) (relative : UInt32) (met : List UInt32) :
    Except Fault (ResourceNode × List UInt32) := do
  let offset ← Resource.place base relative headerSize
  let header ← image.readBytes offset headerSize
  let (entries, met) ← Resource.readEntries image base relative descend 0 (Resource.entryCount header) met
  return (.directory offset entries, met)

theorem readDirectory_succ (levels : Nat) (relative : UInt32) :
    Resource.readDirectory image base (levels + 1) relative = fun met =>
      if met.contains relative then .error (Resource.metTwice relative)
      else readEntered image base (Resource.readDirectory image base levels) relative (relative :: met) :=
  rfl

/-- induction on the levels left; with these the open directories make up the levels allowed -/
theorem follows_directory {levels nesting : Nat} (hlevels : nesting + levels = maxDepth) (relative : UInt32) :
    Follows image nesting 0 (readDirectory image base levels relative) (Resource.readDirectory image base levels relative) := by
  induction levels generalizing nesting relative with
  | zero => exact .throw (.inr ⟨_, rfl⟩)
  | succ levels ih =>
    have hdescend := ih (show nesting + 1 + levels = maxDepth by omega)
    rw [readDirectory, readDirectory_succ]
    refine follows_inside (show nesting < maxDepth by omega) ?_
    refine .read (reads_place relative rfl) (Nat.zero_le _) fun offset _ => ?_
    refine .read (reads_take offset headerSize) (by decide) fun header hheader => ?_
    have hlength : header.length = 16 := length_of_readBytes hheader
    have hcount : ∀ i, Word.valueOf ((header.drop i).take 2) ≤ 0xFFFF := fun i =>
      Word.valueOf_le_of_length_le_two (List.length_take_le ..)
    have hnamed := hcount 12
    have hnumbered := hcount 14
    have hentries : Resource.entryCount header ≤ 131070 := Nat.add_le_add hnamed hnumbered
    have hsize : UInt32.size = 0x100000000 := rfl
    have hsum : add (.ofNat (Word.valueOf ((header.drop 12).take 2))) (.ofNat (Word.valueOf ((header.drop 14).take 2))) =
        .ok (.ofNat (Resource.entryCount header)) := add_ofNat _ _ (by omega)
    refine .step (half_eq (by omega)) (.step (half_eq (by omega)) (.step hsum ?_))
    rw [UInt32.toNat_ofNat_of_lt' (show Resource.entryCount header < UInt32.size by omega)]
    refine .bind (follows_entries hdescend relative ?_) ?_ fun entries _ _ _ => .pure _
    · omega
    · unfold readsPerDirectory; omega

/-- **The resource reader is safe on every file.** Whatever the bytes and wherever the first directory is looked for, the
reader takes all of its steps in range and ends, with the tree or the fault of `readTree`. What it has read by then lies in
the file, its number of reads is bounded by the number of directories entered, no directory is entered twice, no more than
eight are open at a time, and the fault, if any, is one of reading. -/
theorem readTree_safe (image : Image) (base : UInt32) : ∃ trail : Trail,
    (readTree image base).run.run .start = .ok (Resource.readTree image base, trail) ∧
      (∀ r ∈ trail.reads, r.1 + r.2 ≤ image.bytes.size) ∧
      trail.reads.length ≤ readsPerDirectory * trail.entered.length ∧
      trail.entered.Nodup ∧ trail.deepest ≤ 8 ∧
      ∀ f, Resource.readTree image base = .error f → IsReadingFault f := by
  have hstart : Trail.start.Sound image.bytes.size := ⟨nofun, List.nodup_nil, Nat.zero_le _⟩
  have hfollows : Follows image 0 0 (readDirectory image base maxDepth 0) (Resource.readDirectory image base maxDepth 0) :=
    follows_directory (Nat.zero_add maxDepth) 0
  obtain ⟨r, t, hrun, hsound, hreads, hr⟩ := hfollows .start hstart rfl
  have hbound : t.reads.length ≤ readsPerDirectory * t.entered.length := by
    simpa [Trail.start] using hreads
  obtain ⟨htold, hfault⟩ : Resource.readTree image base = r ∧ ∀ f, r = .error f → IsReadingFault f := by
    cases r with
    | ok node => exact ⟨congrArg (Except.map Prod.fst) hr.1, nofun⟩
    | error e => exact ⟨congrArg (Except.map Prod.fst) hr.1, fun f hf => Except.error.inj hf ▸ hr.2⟩
  exact ⟨t, htold ▸ hrun, hsound.reads, hbound, hsound.entered, hsound.deepest, htold ▸ hfault⟩

end Landmark.Checked
