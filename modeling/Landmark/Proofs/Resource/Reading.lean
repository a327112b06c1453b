/-
The resource reader accepts exactly the well-formed trees.

A directory is read with the list of directories met so far, and what it meets is put in front of that list. `Descends` says
what this amounts to for one directory: success exactly on a stored tree that is not too deep and whose directories are met
for the first time, one after the other (`Fresh`), and then the list has grown by these. A step for entries
(`readEntry_eq_ok_iff`), an induction over their number (`readEntries_eq_ok_iff`) and one over the levels left
(`readDirectory_descends`) give `readTree_exact`.
-/
import Landmark.Proofs.Resource.WellFormed
import Landmark.Proofs.Word

namespace Landmark.Resource

open ResourceNode

variable {image : Image} {base : UInt32}

/-! ## Parts of a directory -/

theorem place_eq_ok_iff {relative p : UInt32} {size : Nat} : place base relative size = .ok p ↔
    base.toNat + relative.toNat + size < UInt32.size ∧ p = base + relative := by
  unfold place
  split
  · next h => rw [Except.ok.injEq, and_iff_right h, eq_comm]
  · next h => simp only [reduceCtorEq, false_iff, not_and]; exact fun h' => absurd h' h

/-- a word with its highest bit clear is no reference -/
theorem highBit_eq_false_iff {word : UInt32} : highBit word = false ↔ word.toNat < 0x80000000 := by
  rw [highBit, decide_eq_false_iff_not, UInt32.le_iff_toNat_le]
  exact Nat.not_le

/-- a word with its highest bit set refers to the place that its other bits are -/
theorem refersTo_iff {word relative : UInt32} : RefersTo word relative ↔ highBit word = true ∧ lowBits word = relative := by
  have hword := word.toNat_lt
  have hlow : (lowBits word).toNat = word.toNat % 0x80000000 := by
    rw [lowBits, UInt32.toNat_and]
    exact Nat.and_two_pow_sub_one_eq_mod word.toNat 31
  have hhigh : highBit word = true ↔ 0x80000000 ≤ word.toNat := by
    rw [highBit, decide_eq_true_iff, UInt32.le_iff_toNat_le]
    rfl
  rw [hhigh, ← UInt32.toNat_inj, hlow, RefersTo]
  omega

/-- the units read are the half words that stand there -/
theorem units_extract {i n : Nat} (h : i + n * 2 ≤ image.bytes.size) :
    Utf16.units (image.bytes.extract i (i + n * 2)).toList = image.halvesAt i n := by
  induction n generalizing i with
  | zero => simp [Utf16.units, Image.halvesAt]
  | succ n ih =>
    have hpair : (image.bytes.extract i (i + 2)).toList = [image.bytes[i], image.bytes[i + 1]] := by
      rw [Array.toList_extract, List.extract_eq_take_drop, Nat.add_sub_cancel_left, List.drop_eq_getElem_cons (by simp; omega),
        List.drop_eq_getElem_cons (by simp; omega)]
      rfl
    have hsplit : (image.bytes.extract i (i + (n + 1) * 2)).toList =
        (image.bytes.extract i (i + 2)).toList ++ (image.bytes.extract (i + 2) (i + 2 + n * 2)).toList := by
      rw [← Array.toList_append, Array.extract_append_extract]
      congr 2 <;> omega
    rw [hsplit, Image.halvesAt_succ, Image.halfAt, hpair, ← ih (by omega)]
    simp [Utf16.units, Word.valueOf]

theorem text_eq_iff {i n : Nat} (h : i + n * 2 ≤ image.bytes.size) {s : String} :
    Utf16.text (image.bytes.extract i (i + n * 2)).toList = s ↔ Utf16.Decodes (image.halvesAt i n) s.toList := by
  have hunits : ∀ u ∈ image.halvesAt i n, u < 0x10000 := by
    intro u hu
    obtain ⟨k, -, rfl⟩ := List.mem_map.1 hu
    exact Image.halfAt_lt _
  rw [Utf16.text, units_extract h, Utf16.decodes_iff hunits, ← String.toList_inj, String.toList_ofList]
  exact eq_comm

theorem readName_eq_ok_iff {relative : UInt32} {s : String} :
    readName image base relative = .ok s ↔ NameAt image base relative s := by
  -- addresses of the count and of the first unit, once the end of the count is known to be a word
  have haddr : base.toNat + relative.toNat + 2 < UInt32.size →
      (base + relative).toNat = base.toNat + relative.toNat ∧
      (base + relative + 2).toNat = base.toNat + relative.toNat + 2 := by
    intro hw
    have hp : (base + relative).toNat = base.toNat + relative.toNat := Word.toNat_add_of_lt (by omega)
    refine ⟨hp, ?_⟩
    rw [Word.toNat_add_of_lt (by rw [hp]; exact hw), hp]; rfl
  simp only [readName, bind_eq_ok_iff, place_eq_ok_iff, Image.readBytes_eq_ok_iff]
  constructor
  · rintro ⟨_, ⟨hw, rfl⟩, _, ⟨hf, rfl⟩, _, ⟨hu, rfl⟩, hs⟩
    obtain ⟨hp, hp2⟩ := haddr hw
    rw [hp] at hf
    rw [hp, hp2] at hu hs
    exact ⟨⟨hw, hf⟩, hu, (text_eq_iff hu).1 (Except.ok.inj hs)⟩
  · rintro ⟨⟨hw, hf⟩, hu, hs⟩
    obtain ⟨hp, hp2⟩ := haddr hw
    refine ⟨_, ⟨hw, rfl⟩, _, ⟨?_, rfl⟩, _, ⟨?_, rfl⟩, ?_⟩
    · rw [hp]; exact hf
    · rw [hp, hp2]; exact hu
    · rw [hp, hp2]; exact congrArg Except.ok ((text_eq_iff hu).2 hs)

theorem readData_eq_ok_iff {relative : UInt32} {d : ResourceData} :
    readData image base relative = .ok d ↔ DataAt image base relative d := by
  simp only [readData, bind_eq_ok_iff, place_eq_ok_iff, Image.readBytes_eq_ok_iff, headerSize]
  constructor
  · rintro ⟨_, ⟨hw, rfl⟩, _, ⟨hf, rfl⟩, hd⟩
    have hp : (base + relative).toNat = base.toNat + relative.toNat := Word.toNat_add_of_lt (by omega)
    obtain rfl := Except.ok.inj hd
    rw [hp] at hf
    refine ⟨⟨hw, hf⟩, hp, ?_, ?_, ?_⟩
    · rw [hp]; exact Image.ofBytes_slice (k := 0) (by omega)
    · rw [hp]; exact Image.ofBytes_slice (by omega)
    · rw [hp]; exact Image.ofBytes_slice (by omega)
  · obtain ⟨entry, rva, size, codePage⟩ := d
    rintro ⟨⟨hw, hf⟩, he, hr, hs, hc⟩
    have hp : (base + relative).toNat = base.toNat + relative.toNat := Word.toNat_add_of_lt (by omega)
    refine ⟨_, ⟨hw, rfl⟩, _, ⟨by rw [hp]; exact hf, rfl⟩, congrArg Except.ok ?_⟩
    dsimp only at he hr hs hc
    subst hr hs hc
    rw [hp, Image.ofBytes_slice (by omega), Image.ofBytes_slice (by omega)]
    have hrva : Word.ofBytes ((image.bytes.extract (base.toNat + relative.toNat)
        (base.toNat + relative.toNat + 16)).toList.take 4) = image.wordAt (base.toNat + relative.toNat) :=
      Image.ofBytes_slice (k := 0) (by omega)
    rw [hrva, UInt32.toNat_inj.1 (hp.trans he.symm)]

/-- the id of an entry, given its first word -/
def readId (image : Image) (base word : UInt32) : Except Fault ResourceId :=
  if highBit word then (readName image base (lowBits word)).map .name else .ok (.number word)

/-- the node of an entry, given its second word -/
def readNode (image : Image) (base : UInt32) (descend : Descent) (word : UInt32) (met : List UInt32) :
    Except Fault (ResourceNode × List UInt32) :=
  if highBit word then descend (lowBits word) met else (readData image base word).map fun d => (.data d, met)

theorem readEntry_eq (relative : UInt32) (descend : Descent) (k : Nat) (met : List UInt32) :
    readEntry image base relative descend k met = do
      let start ← place base relative (headerSize + (k + 1) * entrySize)
      let entry := start + UInt32.ofNat (headerSize + k * entrySize)
      let name ← image.readWord entry
      let target ← image.readWord (entry + 4)
      let id ← readId image base name
      let (node, met) ← readNode image base descend target met
      return ((id, node), met) := by
  have hdata : ∀ (id : ResourceId) (target : UInt32), (do
      let data ← readData image base target
      return ((id, ResourceNode.data data), met)) = do
      let (node, met) ← (readData image base target).map fun d => (ResourceNode.data d, met)
      return ((id, node), met) := by
    intro id target
    cases readData image base target <;> rfl
  unfold readEntry
  refine bind_congr fun start => bind_congr fun name => bind_congr fun target => ?_
  cases hn : highBit name <;> cases ht : highBit target <;>
    simp only [readId, readNode, hn, ht, if_true, if_false, Bool.false_eq_true, hdata]

theorem readId_eq_ok_iff {word : UInt32} {id : ResourceId} :
    readId image base word = .ok id ↔ IdAt image base word id := by
  unfold readId
  cases id with
  | number n => cases h : highBit word <;> simp [IdAt, ← highBit_eq_false_iff, h, map_eq_ok_iff, eq_comm]
  | name s => cases h : highBit word <;> simp [IdAt, refersTo_iff, h, map_eq_ok_iff, readName_eq_ok_iff]

/-! ## Places met for the first time -/

/-- none of the places has been met before, nor does one of them come twice -/
def Fresh (met : List UInt32) : List UInt32 → Prop
  | [] => True
  | r :: rs => r ∉ met ∧ Fresh (r :: met) rs

theorem fresh_append {met a b : List UInt32} : Fresh met (a ++ b) ↔ Fresh met a ∧ Fresh (a.reverse ++ met) b := by
  induction a generalizing met with
  | nil => exact (iff_of_eq (true_and _)).symm
  | cons r a ih => rw [List.cons_append, Fresh, Fresh, ih, and_assoc, List.reverse_cons, List.append_assoc]; rfl

theorem fresh_iff {met l : List UInt32} : Fresh met l ↔ l.Nodup ∧ ∀ r ∈ l, r ∉ met := by
  induction l generalizing met with
  | nil => simp [Fresh]
  | cons r l ih =>
    rw [Fresh, ih, List.nodup_cons]
    constructor
    · rintro ⟨hr, hl, hrest⟩
      refine ⟨⟨fun hm => hrest r hm (List.mem_cons_self ..), hl⟩, ?_⟩
      intro x hx
      rcases List.mem_cons.1 hx with rfl | hx
      · exact hr
      · exact fun hm => hrest x hx (List.mem_cons_of_mem _ hm)
    · rintro ⟨⟨hr, hl⟩, hrest⟩
      refine ⟨hrest r (List.mem_cons_self ..), hl, ?_⟩
      intro x hx hm
      rcases List.mem_cons.1 hm with rfl | hm
      · exact hr hx
      · exact hrest x (List.mem_cons_of_mem _ hx) hm

/-- relative places of directories, given their physical offsets -/
def places (base : UInt32) (offsets : List UInt32) : List UInt32 :=
  offsets.map (· - base)

theorem nodup_places {offsets : List UInt32} : (places base offsets).Nodup ↔ offsets.Nodup := by
  have hinj : Function.Injective (· - base : UInt32 → UInt32) := fun a b h => by
    rw [← UInt32.sub_add_cancel a base, ← UInt32.sub_add_cancel b base]; exact congrArg (· + base) h
  exact List.pairwise_map.trans (List.Pairwise.iff fun a b => not_congr hinj.eq_iff)

theorem places_append (a b : List UInt32) : places base (a ++ b) = places base a ++ places base b :=
  List.map_append

/-- the physical offset of a directory tells its relative place, which comes first -/
theorem places_directory {relative offset : UInt32} (h : offset.toNat = base.toNat + relative.toNat)
    (entries : List (ResourceId × ResourceNode)) :
    places base (directory offset entries).directories = relative :: places base (directoriesAll entries) := by
  have hrel : offset - base = relative := by
    rw [← UInt32.toNat_inj, Word.toNat_sub_of_le (by omega)]; omega
  rw [directories, places, List.map_cons, hrel]; rfl

/-! ## Reading directories -/

/-- a way to read directories that accepts what is stored, up to so many levels deep, and keeps account of what it met -/
def Descends (image : Image) (base : UInt32) (levels : Nat) (descend : Descent) : Prop :=
  ∀ relative met node met', descend relative met = .ok (node, met') ↔
    DirectoryAt image base relative node ∧ node.depth ≤ levels ∧ Fresh met (places base node.directories) ∧
      met' = (places base node.directories).reverse ++ met

section

variable {levels : Nat} {descend : Descent}

theorem readNode_eq_ok_iff (hd : Descends image base levels descend) {word : UInt32} {met met' : List UInt32}
    {node : ResourceNode} : readNode image base descend word met = .ok (node, met') ↔
      NodeAt image base word node ∧ node.depth ≤ levels ∧ Fresh met (places base node.directories) ∧
        met' = (places base node.directories).reverse ++ met := by
  unfold readNode
  split
  · next h =>
    rw [hd]
    refine and_congr_left fun _ => ⟨fun hn => ⟨fun hlt => ?_, ?_⟩, fun hn => ?_⟩
    · rw [highBit_eq_false_iff.2 hlt] at h
      contradiction
    · intro inner hinner
      exact (refersTo_iff.1 hinner).2 ▸ hn
    · exact hn.directory _ (refersTo_iff.2 ⟨h, rfl⟩)
  · next h =>
    simp only [map_eq_ok_iff, readData_eq_ok_iff, Prod.mk.injEq]
    constructor
    · rintro ⟨d, hdata, rfl, rfl⟩
      refine ⟨⟨fun _ => ⟨d, rfl, hdata⟩, ?_⟩, Nat.zero_le _, trivial, rfl⟩
      intro inner hinner
      exact absurd (refersTo_iff.1 hinner).1 h
    · rintro ⟨hn, _, _, rfl⟩
      obtain ⟨d, rfl, hdata⟩ := hn.data (highBit_eq_false_iff.1 (Bool.not_eq_true _ ▸ h))
      exact ⟨d, hdata, rfl, rfl⟩

theorem readEntry_eq_ok_iff (hd : Descends image base levels descend) {relative : UInt32} {k : Nat}
    {met met' : List UInt32} {e : ResourceId × ResourceNode} :
    readEntry image base relative descend k met = .ok (e, met') ↔
      EntryAt image base relative k e ∧ e.2.depth ≤ levels ∧ Fresh met (places base e.2.directories) ∧
        met' = (places base e.2.directories).reverse ++ met := by
  obtain ⟨id, node⟩ := e
  -- addresses of the two words of the entry, once the end of the entry is known to be a word
  have haddr : base.toNat + relative.toNat + (16 + (k + 1) * 8) < UInt32.size →
      (base + relative + UInt32.ofNat (16 + k * 8)).toNat = entryOffset base relative k ∧
      (base + relative + UInt32.ofNat (16 + k * 8) + 4).toNat = entryOffset base relative k + 4 := by
    intro hw
    have hk : (UInt32.ofNat (16 + k * 8)).toNat = 16 + k * 8 := UInt32.toNat_ofNat_of_lt' (by omega)
    have h4 : (4 : UInt32).toNat = 4 := rfl
    have hp : (base + relative).toNat = base.toNat + relative.toNat := Word.toNat_add_of_lt (by omega)
    have he : (base + relative + UInt32.ofNat (16 + k * 8)).toNat = entryOffset base relative k := by
      rw [Word.toNat_add_of_lt (by omega), hp, hk]; rfl
    refine ⟨he, ?_⟩
    unfold entryOffset at he
    rw [Word.toNat_add_of_lt (by omega), he]; rfl
  rw [readEntry_eq]
  simp only [bind_eq_ok_iff, place_eq_ok_iff, Image.readWord_eq_ok_iff, readId_eq_ok_iff, Prod.exists,
    readNode_eq_ok_iff hd, headerSize, entrySize]
  constructor
  · rintro ⟨_, ⟨hw, rfl⟩, _, ⟨_, rfl⟩, _, ⟨hf, rfl⟩, id', hid, node', met'', ⟨hnode, hrest⟩, heq⟩
    obtain ⟨he, he4⟩ := haddr hw
    cases heq
    rw [he] at hid
    rw [he4] at hf hnode
    refine ⟨⟨⟨hw, ?_⟩, hid, hnode⟩, hrest⟩
    unfold entryOffset at hf; omega
  · rintro ⟨⟨⟨hw, hf⟩, hid, hnode⟩, hrest⟩
    obtain ⟨he, he4⟩ := haddr hw
    have hoff : entryOffset base relative k + 8 ≤ image.bytes.size := by unfold entryOffset; omega
    refine ⟨_, ⟨hw, rfl⟩, _, ⟨?_, rfl⟩, _, ⟨?_, rfl⟩, id, ?_, node, met', ⟨?_, hrest⟩, rfl⟩
    · rw [he]; omega
    · rw [he4]; omega
    · rw [he]; exact hid
    · rw [he4]; exact hnode

theorem readEntries_eq_ok_iff (hd : Descends image base levels descend) {relative : UInt32} {k n : Nat}
    {met met' : List UInt32} {es : List (ResourceId × ResourceNode)} :
    readEntries image base relative descend k n met = .ok (es, met') ↔
      es.length = n ∧ (∀ j (h : j < es.length), EntryAt image base relative (k + j) es[j]) ∧ depthAll es ≤ levels ∧
        Fresh met (places base (directoriesAll es)) ∧ met' = (places base (directoriesAll es)).reverse ++ met := by
  induction n generalizing k met met' es with
  | zero =>
    simp only [readEntries, Except.ok.injEq, Prod.mk.injEq]
    constructor
    · rintro ⟨rfl, rfl⟩
      exact ⟨rfl, fun j hj => absurd hj (Nat.not_lt_zero j), Nat.zero_le _, trivial, rfl⟩
    · rintro ⟨hlen, _, _, _, rfl⟩
      obtain rfl := List.length_eq_zero_iff.1 hlen
      exact ⟨rfl, rfl⟩
  | succ n ih =>
    simp only [readEntries, bind_eq_ok_iff, Prod.exists, readEntry_eq_ok_iff hd, ih]
    constructor
    · rintro ⟨id, node, _, ⟨hentry, hdepth, hfresh, rfl⟩, es', _, ⟨hlen, hentries, hdepths, hfreshs, rfl⟩, heq⟩
      cases heq
      refine ⟨congrArg Nat.succ hlen, ?_, Nat.max_le.2 ⟨hdepth, hdepths⟩, ?_, ?_⟩
      · intro j hj
        cases j with
        | zero => exact hentry
        | succ j =>
          have h := hentries j (Nat.lt_of_succ_lt_succ hj)
          rwa [Nat.add_right_comm] at h
      · exact (places_append ..).symm ▸ fresh_append.2 ⟨hfresh, hfreshs⟩
      · rw [directoriesAll, places_append, List.reverse_append, List.append_assoc]; rfl
    · rintro ⟨hlen, hentries, hdepth, hfresh, rfl⟩
      obtain ⟨⟨id, node⟩, es, rfl⟩ := List.exists_cons_of_length_eq_add_one hlen
      rw [directoriesAll, places_append] at hfresh ⊢
      obtain ⟨hfresh, hfreshs⟩ := fresh_append.1 hfresh
      obtain ⟨hdepth, hdepths⟩ := Nat.max_le.1 hdepth
      refine ⟨id, node, _, ⟨hentries 0 (Nat.succ_pos _), hdepth, hfresh, rfl⟩, es, _,
        ⟨Nat.succ.inj hlen, ?_, hdepths, hfreshs, rfl⟩, ?_⟩
      · intro j hj
        have h := hentries (j + 1) (Nat.succ_lt_succ hj)
        rwa [← Nat.add_assoc, Nat.add_right_comm] at h
      · rw [List.reverse_append, List.append_assoc]; rfl

end

/-- **A directory is accepted exactly if it is stored, shallow enough and met for the first time.** Induction on the levels
left; the entries of a directory are read with one level less. -/
theorem readDirectory_descends (levels : Nat) : Descends image base levels (readDirectory image base levels) := by
  induction levels with
  | zero =>
    intro relative met node met'
    simp only [readDirectory, reduceCtorEq, false_iff]
    rintro ⟨hstored, hdepth, _⟩
    obtain ⟨offset, entries, rfl⟩ := hstored.exists_eq
    exact Nat.not_succ_le_zero _ hdepth
  | succ levels ih =>
    intro relative met node met'
    rw [readDirectory]
    split
    · next hmet =>
      simp only [reduceCtorEq, false_iff]
      rintro ⟨hstored, _, hfresh, _⟩
      obtain ⟨offset, entries, rfl⟩ := hstored.exists_eq
      rw [places_directory (directoryAt_iff.1 hstored).2.1] at hfresh
      exact hfresh.1 (List.contains_iff_mem.1 hmet)
    · next hmet =>
      have hmet : relative ∉ met := fun hm => hmet (List.contains_iff_mem.2 hm)
      simp only [bind_eq_ok_iff, place_eq_ok_iff, Image.readBytes_eq_ok_iff, Prod.exists, readEntries_eq_ok_iff ih,
        headerSize, entryCount]
      constructor
      · rintro ⟨_, ⟨hw, rfl⟩, _, ⟨hf, rfl⟩, entries, _, ⟨hlen, hentries, hdepth, hfresh, rfl⟩, heq⟩
        have hp : (base + relative).toNat = base.toNat + relative.toNat := Word.toNat_add_of_lt (by omega)
        cases heq
        rw [Image.valueOf_slice (by omega), Image.valueOf_slice (by omega)] at hlen
        rw [hp] at hf
        simp only [Nat.zero_add] at hentries
        rw [places_directory hp, List.reverse_cons, List.append_assoc]
        exact ⟨directoryAt_iff.2 ⟨⟨hw, hf⟩, hp, hlen, hentries⟩, Nat.succ_le_succ hdepth, ⟨hmet, hfresh⟩, rfl⟩
      · rintro ⟨hstored, hdepth, hfresh, rfl⟩
        obtain ⟨offset, entries, rfl⟩ := hstored.exists_eq
        obtain ⟨room, hoffset, hlen, hentries⟩ := directoryAt_iff.1 hstored
        rw [places_directory hoffset] at hfresh ⊢
        have hbound := Nat.lt_of_le_of_lt (Nat.le_add_right _ _) room.word
        obtain rfl : offset = base + relative := UInt32.toNat_inj.1 (hoffset.trans (Word.toNat_add_of_lt hbound).symm)
        refine ⟨_, ⟨room.word, rfl⟩, _, ⟨by rw [hoffset]; exact room.file, rfl⟩, entries, _,
          ⟨?_, ?_, Nat.le_of_succ_le_succ hdepth, hfresh.2, rfl⟩, ?_⟩
        · rw [Image.valueOf_slice (by omega), Image.valueOf_slice (by omega)]; exact hlen
        · simpa only [Nat.zero_add] using hentries
        · rw [List.reverse_cons, List.append_assoc]; rfl

/-! ## Whole trees -/

theorem readTree_eq_ok_iff {root : ResourceNode} : readTree image base = .ok root ↔ WellFormed image base root := by
  have hdesc : Descends image base maxDepth (readDirectory image base maxDepth) := readDirectory_descends maxDepth
  simp only [readTree, map_eq_ok_iff, Prod.exists, hdesc _ _ _ _, exists_and_right, exists_eq_right]
  constructor
  · rintro ⟨_, hstored, hdepth, hfresh, _⟩
    exact ⟨hstored, hdepth, nodup_places.1 (fresh_iff.1 hfresh).1⟩
  · rintro ⟨hstored, hdepth, hdistinct⟩
    exact ⟨_, hstored, hdepth, fresh_iff.2 ⟨nodup_places.2 hdistinct, fun r _ => List.not_mem_nil⟩, rfl⟩

/-- **The resource reader accepts exactly the well-formed trees** and returns the one the bytes say; on everything else it
ends with a fault. -/
theorem readTree_exact (image : Image) (base : UInt32) :
    (∀ root, readTree image base = .ok root ↔ WellFormed image base root) ∧
    ((∃ f, readTree image base = .error f) ↔ ∀ root, ¬ WellFormed image base root) := by
  refine ⟨fun root => readTree_eq_ok_iff, ?_⟩
  simp only [← readTree_eq_ok_iff]
  cases readTree image base <;> simp

/-- a directory with one named entry, which refers to a directory with one numbered entry; the units of the name are a letter,
a pair, a low surrogate and a high one -/
def namedImage : Image where
  bytes := #[0, 0, 0, 0, 0, 0, 0, 0, 0, 0, 0, 0, 1, 0, 0, 0, 64, 0, 0, 0x80, 24, 0, 0, 0x80,
    0, 0, 0, 0, 0, 0, 0, 0, 0, 0, 0, 0, 0, 0, 1, 0, 3, 0, 0, 0, 48, 0, 0, 0,
    0, 0x10, 0x40, 0, 7, 1, 0, 0, 0, 2, 0, 0, 0, 0, 0, 0,
    5, 0, 0x4D, 0, 0x3D, 0xD8, 0x00, 0xDE, 0x01, 0xDC, 0x02, 0xD8]
  sections := []
  imports := []
  metadata := .unknown
  sound := rfl

/-- what is stored in it -/
def namedTree : ResourceNode :=
  .directory 0 [(.name (String.ofList ['M', Char.ofNat 0x1F600, '\ufffd', '\ufffd']),
    .directory 24 [(.number 3, .data ⟨48, 0x401000, 0x107, 0x200⟩)])]

theorem namedTree_wellFormed : readTree namedImage 0 = .ok namedTree ∧ WellFormed namedImage 0 namedTree := by
  have hread : readTree namedImage 0 = .ok namedTree := by rfl
  exact ⟨hread, ((readTree_exact namedImage 0).1 namedTree).1 hread⟩

end Landmark.Resource
