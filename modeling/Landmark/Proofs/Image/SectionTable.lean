/-
What an accepted section table is like.

The mapped range of a section is `mappedCount` bytes from `rawOffset` in the file and from `virtualAddress` in memory;
`InFile` and `InMemory` are membership in it, in `Nat`, so no end of a range stops at the largest word.
- `Draft.fault?_eq_none_iff`: a draft is accepted exactly if it is `Sound`: every raw range ends inside the file, every
  mapped range ends inside both 32-bit spaces, and no two sections overlap.
- `not_inFile_of_apart`, `not_inMemory_of_apart`: sections that do not overlap share no address.
- `toVirtual_eq_some_iff`, `toPhysical_eq_some_iff`: within a section that fits the two maps are the shift and its inverse.
-/
import Landmark.Image.Layout
import Landmark.Proofs.Word

namespace Landmark

namespace Section

/-- number of bytes of the mapped range -/
def mappedCount (s : Section) : Nat :=
  if s.virtualSize = 0 then s.rawSize.toNat else min s.rawSize.toNat s.virtualSize.toNat

/-- the file offset lies in the mapped range -/
def InFile (s : Section) (p : UInt32) : Prop :=
  s.rawOffset.toNat ≤ p.toNat ∧ p.toNat < s.rawOffset.toNat + s.mappedCount

/-- the virtual address lies in the mapped range -/
def InMemory (s : Section) (v : UInt32) : Prop :=
  s.virtualAddress.toNat ≤ v.toNat ∧ v.toNat < s.virtualAddress.toNat + s.mappedCount

/-! ## One section -/

theorem toNat_mappedSize (s : Section) : s.mappedSize.toNat = s.mappedCount := by
  unfold mappedSize mappedCount
  split
  · rfl
  · exact apply_ite UInt32.toNat .. |>.trans (by simp only [UInt32.le_iff_toNat_le, Nat.min_def])

theorem mappedCount_le_rawSize (s : Section) : s.mappedCount ≤ s.rawSize.toNat := by
  unfold mappedCount
  split
  · exact Nat.le_refl _
  · exact Nat.min_le_left _ _

theorem fits_iff (s : Section) : s.fits = true ↔
    s.rawOffset.toNat + s.mappedCount < UInt32.size ∧ s.virtualAddress.toNat + s.mappedCount < UInt32.size := by
  simp only [fits, Bool.and_eq_true, Word.isSome_addExact, toNat_mappedSize]

theorem toNat_rawEnd {s : Section} (h : s.fits = true) : s.rawEnd.toNat = s.rawOffset.toNat + s.mappedCount := by
  have hs : UInt32.size = 0x100000000 := rfl
  have := s.fits_iff.1 h
  rw [rawEnd, Word.toNat_addSat, toNat_mappedSize]; omega

theorem toNat_virtualEnd {s : Section} (h : s.fits = true) :
    s.virtualEnd.toNat = s.virtualAddress.toNat + s.mappedCount := by
  have hs : UInt32.size = 0x100000000 := rfl
  have := s.fits_iff.1 h
  rw [virtualEnd, Word.toNat_addSat, toNat_mappedSize]; omega

theorem holdsPhysical_iff {s : Section} (h : s.fits = true) {p : UInt32} : s.holdsPhysical p = true ↔ s.InFile p := by
  simp only [holdsPhysical, Bool.and_eq_true, decide_eq_true_eq, UInt32.le_iff_toNat_le, UInt32.lt_iff_toNat_lt,
    toNat_rawEnd h, InFile]

theorem holdsVirtual_iff {s : Section} (h : s.fits = true) {v : UInt32} : s.holdsVirtual v = true ↔ s.InMemory v := by
  simp only [holdsVirtual, Bool.and_eq_true, decide_eq_true_eq, UInt32.le_iff_toNat_le, UInt32.lt_iff_toNat_lt,
    toNat_virtualEnd h, InMemory]

theorem toVirtual_eq_some_iff {s : Section} (h : s.fits = true) {p v : UInt32} : s.toVirtual p = some v ↔
    s.InFile p ∧ v.toNat = s.virtualAddress.toNat + (p.toNat - s.rawOffset.toNat) := by
  unfold toVirtual
  by_cases hp : s.InFile p
  · rw [if_pos ((holdsPhysical_iff h).2 hp), Word.addExact_eq_some_iff, Word.toNat_sub_of_le hp.1]
    exact ⟨fun e => ⟨hp, e⟩, fun e => e.2⟩
  · rw [if_neg (mt (holdsPhysical_iff h).1 hp)]
    simp only [reduceCtorEq, false_iff]
    exact fun e => hp e.1

theorem toPhysical_eq_some_iff {s : Section} (h : s.fits = true) {p v : UInt32} : s.toPhysical v = some p ↔
    s.InMemory v ∧ p.toNat = s.rawOffset.toNat + (v.toNat - s.virtualAddress.toNat) := by
  unfold toPhysical
  by_cases hv : s.InMemory v
  · rw [if_pos ((holdsVirtual_iff h).2 hv), Word.addExact_eq_some_iff, Word.toNat_sub_of_le hv.1]
    exact ⟨fun e => ⟨hv, e⟩, fun e => e.2⟩
  · rw [if_neg (mt (holdsVirtual_iff h).1 hv)]
    simp only [reduceCtorEq, false_iff]
    exact fun e => hv e.1

/-- within one section the two maps undo each other -/
theorem toVirtual_eq_some_iff_toPhysical {s : Section} (h : s.fits = true) {p v : UInt32} :
    s.toVirtual p = some v ↔ s.toPhysical v = some p := by
  rw [toVirtual_eq_some_iff h, toPhysical_eq_some_iff h]
  unfold InFile InMemory
  constructor
  · rintro ⟨hp, hv⟩; omega
  · rintro ⟨hv, hp⟩; omega

theorem toVirtual_eq_none_iff {s : Section} (h : s.fits = true) {p : UInt32} : s.toVirtual p = none ↔ ¬ s.InFile p := by
  have hs : UInt32.size = 0x100000000 := rfl
  have hf := s.fits_iff.1 h
  rw [Option.eq_none_iff_forall_ne_some]
  constructor
  · intro hn hp
    refine hn (UInt32.ofNat (s.virtualAddress.toNat + (p.toNat - s.rawOffset.toNat)))
      ((toVirtual_eq_some_iff h).2 ⟨hp, UInt32.toNat_ofNat_of_lt' ?_⟩)
    unfold InFile at hp; omega
  · intro hp v hv
    exact hp ((toVirtual_eq_some_iff h).1 hv).1

theorem toPhysical_eq_none_iff {s : Section} (h : s.fits = true) {v : UInt32} :
    s.toPhysical v = none ↔ ¬ s.InMemory v := by
  have hs : UInt32.size = 0x100000000 := rfl
  have hf := s.fits_iff.1 h
  rw [Option.eq_none_iff_forall_ne_some]
  constructor
  · intro hn hv
    refine hn (UInt32.ofNat (s.rawOffset.toNat + (v.toNat - s.virtualAddress.toNat)))
      ((toPhysical_eq_some_iff h).2 ⟨hv, UInt32.toNat_ofNat_of_lt' ?_⟩)
    unfold InMemory at hv; omega
  · intro hv p hp
    exact hv ((toPhysical_eq_some_iff h).1 hp).1

/-! ## Two sections -/

theorem overlaps_comm (s t : Section) : s.overlaps t = t.overlaps s := by
  unfold overlaps
  rw [Bool.and_comm (decide (s.rawOffset < t.rawEnd)), Bool.and_comm (decide (s.virtualAddress < t.virtualEnd))]

theorem not_inFile_of_apart {s t : Section} (hs : s.fits = true) (ht : t.fits = true) (h : s.overlaps t = false)
    {p : UInt32} : ¬ (s.InFile p ∧ t.InFile p) := by
  have he := toNat_rawEnd hs
  have he' := toNat_rawEnd ht
  simp only [overlaps, Bool.or_eq_false_iff, Bool.and_eq_false_iff, decide_eq_false_iff_not,
    UInt32.lt_iff_toNat_lt] at h
  rintro ⟨hp, hp'⟩
  unfold InFile at hp hp'; omega

theorem not_inMemory_of_apart {s t : Section} (hs : s.fits = true) (ht : t.fits = true) (h : s.overlaps t = false)
    {v : UInt32} : ¬ (s.InMemory v ∧ t.InMemory v) := by
  have he := toNat_virtualEnd hs
  have he' := toNat_virtualEnd ht
  simp only [overlaps, Bool.or_eq_false_iff, Bool.and_eq_false_iff, decide_eq_false_iff_not,
    UInt32.lt_iff_toNat_lt] at h
  rintro ⟨hv, hv'⟩
  unfold InMemory at hv hv'; omega

end Section

/-! ## The whole table -/

namespace Draft

/-- nothing is wrong with the section table -/
structure Sound (d : Draft) : Prop where
  inside : ∀ s ∈ d.sections, s.rawOffset.toNat + s.rawSize.toNat ≤ d.bytes.size
  fits : ∀ s ∈ d.sections, s.fits = true
  apart : d.sections.Pairwise fun s t => s.overlaps t = false

theorem sectionFault?_eq_none_iff {size : Nat} {s : Section} :
    sectionFault? size s = none ↔ s.rawOffset.toNat + s.rawSize.toNat ≤ size ∧ s.fits = true := by
  unfold sectionFault?
  split
  · simp only [reduceCtorEq, false_iff]; omega
  · split <;> simp_all

theorem overlapping?_eq_none_iff {l : List Section} :
    overlapping? l = none ↔ l.Pairwise fun s t => s.overlaps t = false := by
  induction l with
  | nil => exact ⟨fun _ => .nil, fun _ => rfl⟩
  | cons s rest ih =>
    rw [List.pairwise_cons, ← ih, overlapping?]
    cases hf : rest.find? s.overlaps with
    | some t =>
      have ht := List.find?_some hf
      have hm := List.mem_of_find?_eq_some hf
      simp only [reduceCtorEq, false_iff, not_and]
      intro h
      rw [h t hm] at ht; contradiction
    | none =>
      rw [List.find?_eq_none] at hf
      simp only [iff_and_self]
      intro _ t ht
      exact Bool.eq_false_iff.2 (hf t ht)

theorem fault?_eq_none_iff (d : Draft) : d.fault? = none ↔ d.Sound := by
  have hsec : d.sections.findSome? (sectionFault? d.bytes.size) = none ↔
      ∀ s ∈ d.sections, s.rawOffset.toNat + s.rawSize.toNat ≤ d.bytes.size ∧ s.fits = true := by
    simp only [List.findSome?_eq_none_iff, sectionFault?_eq_none_iff]
  unfold fault?
  constructor
  · intro h
    split at h
    · contradiction
    · next hn =>
      split at h
      · contradiction
      · next ho =>
        exact ⟨fun s hs => (hsec.1 hn s hs).1, fun s hs => (hsec.1 hn s hs).2, overlapping?_eq_none_iff.1 ho⟩
  · intro h
    rw [hsec.2 fun s hs => ⟨h.inside s hs, h.fits s hs⟩, overlapping?_eq_none_iff.2 h.apart]

/-- soundness does not depend on the order of the table -/
theorem Sound.of_perm {d e : Draft} (h : d.Sound) (hb : e.bytes = d.bytes) (hp : e.sections.Perm d.sections) :
    e.Sound where
  inside s hs := hb ▸ h.inside s (hp.mem_iff.1 hs)
  fits s hs := h.fits s (hp.mem_iff.1 hs)
  apart := (hp.pairwise_iff fun hst => by rwa [Section.overlaps_comm]).2 h.apart

/-- a sound draft is accepted as it stands -/
theorem accept_of_sound {d : Draft} (h : d.Sound) : ∃ image : Image, d.accept = .ok image ∧ image.toDraft = d := by
  have hd := d.fault?_eq_none_iff.2 h
  unfold accept
  split
  · exact ⟨_, rfl, rfl⟩
  · next f hf => rw [hd] at hf; contradiction

end Draft

theorem Image.isSound (image : Image) : image.toDraft.Sound :=
  image.toDraft.fault?_eq_none_iff.1 image.sound

/-- the mapped bytes of a section are in the file -/
theorem Image.mapped_le_size {image : Image} {s : Section} (hs : s ∈ image.sections) :
    s.rawOffset.toNat + s.mappedCount ≤ image.bytes.size :=
  Nat.le_trans (Nat.add_le_add_left s.mappedCount_le_rawSize _) (image.isSound.inside s hs)

end Landmark
