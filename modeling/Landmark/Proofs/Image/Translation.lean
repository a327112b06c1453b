/-
Address translation of an accepted image.

Both maps look for the first section that holds an address. The section table is sound, so at most one section does, and
the first one is the only one.
- `toVirtual_eq_ok_iff`, `toPhysical_eq_ok_iff`: an answer is the answer of some section, whichever comes first.
- `toVirtual_eq_error_iff`, `toPhysical_eq_error_iff`: there is none exactly outside all mapped ranges.
- `translation_bijective`: the two maps are inverse to each other between the mapped file offsets and the mapped virtual
  addresses, by the shift of the section that holds the address, whatever the order of the table, and never leave the file.
-/
import Landmark.Proofs.Image.SectionTable

namespace Landmark

/-- where at most one element has an answer, that answer is found -/
theorem findSome?_eq_some_iff_of_apart {α β : Type} {f : α → Option β} {l : List α} {b : β}
    (h : l.Pairwise fun a c => f a = none ∨ f c = none) : l.findSome? f = some b ↔ ∃ a ∈ l, f a = some b := by
  constructor
  · exact List.exists_of_findSome?_eq_some
  · rintro ⟨a, ha, hb⟩
    obtain ⟨before, after, rfl⟩ := List.append_of_mem ha
    refine List.findSome?_eq_some_iff.2 ⟨before, a, after, rfl, hb, ?_⟩
    intro c hc
    rcases (List.pairwise_append.1 h).2.2 c hc a (by simp) with hn | hn
    · exact hn
    · rw [hn] at hb; contradiction

namespace Image

variable (image : Image)

theorem toVirtual_apart (p : UInt32) :
    image.sections.Pairwise fun s t => s.toVirtual p = none ∨ t.toVirtual p = none := by
  refine image.isSound.apart.imp_of_mem ?_
  intro s t hs ht hst
  have hfs := image.isSound.fits s hs
  have hft := image.isSound.fits t ht
  rw [Section.toVirtual_eq_none_iff hfs, Section.toVirtual_eq_none_iff hft]
  exact Classical.not_and_iff_not_or_not.1 (Section.not_inFile_of_apart hfs hft hst)

theorem toPhysical_apart (v : UInt32) :
    image.sections.Pairwise fun s t => s.toPhysical v = none ∨ t.toPhysical v = none := by
  refine image.isSound.apart.imp_of_mem ?_
  intro s t hs ht hst
  have hfs := image.isSound.fits s hs
  have hft := image.isSound.fits t ht
  rw [Section.toPhysical_eq_none_iff hfs, Section.toPhysical_eq_none_iff hft]
  exact Classical.not_and_iff_not_or_not.1 (Section.not_inMemory_of_apart hfs hft hst)

variable {image}

theorem toVirtual_eq_ok_iff {p v : UInt32} :
    image.toVirtual p = .ok v ↔ ∃ s ∈ image.sections, s.toVirtual p = some v := by
  rw [← findSome?_eq_some_iff_of_apart (image.toVirtual_apart p), toVirtual]
  cases image.sections.findSome? (·.toVirtual p) <;> simp

theorem toPhysical_eq_ok_iff {v p : UInt32} :
    image.toPhysical v = .ok p ↔ ∃ s ∈ image.sections, s.toPhysical v = some p := by
  rw [← findSome?_eq_some_iff_of_apart (image.toPhysical_apart v), toPhysical]
  cases image.sections.findSome? (·.toPhysical v) <;> simp

/-- an answer is the address shifted as the section that holds it is -/
theorem toVirtual_eq_ok_iff_shift {p v : UInt32} : image.toVirtual p = .ok v ↔
    ∃ s ∈ image.sections, s.InFile p ∧ v.toNat = s.virtualAddress.toNat + (p.toNat - s.rawOffset.toNat) := by
  rw [toVirtual_eq_ok_iff]
  exact exists_congr fun s => and_congr_right fun hs => Section.toVirtual_eq_some_iff (image.isSound.fits s hs)

theorem toVirtual_eq_error_iff {p : UInt32} {f : Fault} :
    image.toVirtual p = .error f ↔ f = .outOfRange p .physical ∧ ∀ s ∈ image.sections, ¬ s.InFile p := by
  have hn : image.sections.findSome? (·.toVirtual p) = none ↔ ∀ s ∈ image.sections, ¬ s.InFile p := by
    rw [List.findSome?_eq_none_iff]
    exact forall₂_congr fun s hs => Section.toVirtual_eq_none_iff (image.isSound.fits s hs)
  rw [← hn, toVirtual]
  cases image.sections.findSome? (·.toVirtual p) <;> simp [eq_comm]

theorem toPhysical_eq_error_iff {v : UInt32} {f : Fault} :
    image.toPhysical v = .error f ↔ f = .outOfRange v .virtual ∧ ∀ s ∈ image.sections, ¬ s.InMemory v := by
  have hn : image.sections.findSome? (·.toPhysical v) = none ↔ ∀ s ∈ image.sections, ¬ s.InMemory v := by
    rw [List.findSome?_eq_none_iff]
    exact forall₂_congr fun s hs => Section.toPhysical_eq_none_iff (image.isSound.fits s hs)
  rw [← hn, toPhysical]
  cases image.sections.findSome? (·.toPhysical v) <;> simp [eq_comm]

theorem toVirtual_eq_ok_iff_toPhysical {p v : UInt32} : image.toVirtual p = .ok v ↔ image.toPhysical v = .ok p := by
  rw [toVirtual_eq_ok_iff, toPhysical_eq_ok_iff]
  exact exists_congr fun s => and_congr_right fun hs =>
    Section.toVirtual_eq_some_iff_toPhysical (image.isSound.fits s hs)

/-- a file offset of a mapped range lies in the file -/
theorem lt_size_of_inFile {s : Section} (hs : s ∈ image.sections) {p : UInt32} (h : s.InFile p) :
    p.toNat < image.bytes.size := by
  have hmapped := mapped_le_size hs
  have hlt := h.2
  omega

theorem lt_size_of_toVirtual {p v : UInt32} (h : image.toVirtual p = .ok v) : p.toNat < image.bytes.size := by
  obtain ⟨s, hs, hp, _⟩ := toVirtual_eq_ok_iff_shift.1 h
  exact lt_size_of_inFile hs hp

/-- **The order of the section table does not matter.** -/
theorem toVirtual_perm {other : Image} (h : other.sections.Perm image.sections) (p : UInt32) :
    other.toVirtual p = image.toVirtual p := by
  cases hp : image.toVirtual p with
  | ok v =>
    rw [toVirtual_eq_ok_iff] at hp ⊢
    simpa only [h.mem_iff] using hp
  | error f =>
    rw [toVirtual_eq_error_iff] at hp ⊢
    simpa only [h.mem_iff] using hp

theorem toPhysical_perm {other : Image} (h : other.sections.Perm image.sections) (v : UInt32) :
    other.toPhysical v = image.toPhysical v := by
  cases hv : image.toPhysical v with
  | ok p =>
    rw [toPhysical_eq_ok_iff] at hv ⊢
    simpa only [h.mem_iff] using hv
  | error f =>
    rw [toPhysical_eq_error_iff] at hv ⊢
    simpa only [h.mem_iff] using hv

/-- **Translation is a bijection.** Of an accepted image, the virtual address of a file offset is that offset shifted as
the section that holds it is; the two maps are inverse to each other; each fails exactly outside all mapped ranges, and says
so; no address is in the mapped ranges of two sections; the same sections in another order are accepted too and translate
alike; and what translates lies in the file. -/
theorem translation_bijective (image : Image) :
    (∀ p v, image.toVirtual p = .ok v ↔
      ∃ s ∈ image.sections, s.InFile p ∧ v.toNat = s.virtualAddress.toNat + (p.toNat - s.rawOffset.toNat)) ∧
    (∀ p v, image.toVirtual p = .ok v ↔ image.toPhysical v = .ok p) ∧
    (∀ p f, image.toVirtual p = .error f ↔ f = .outOfRange p .physical ∧ ∀ s ∈ image.sections, ¬ s.InFile p) ∧
    (∀ v f, image.toPhysical v = .error f ↔ f = .outOfRange v .virtual ∧ ∀ s ∈ image.sections, ¬ s.InMemory v) ∧
    (image.sections.Pairwise fun s t => ∀ a, ¬ (s.InFile a ∧ t.InFile a) ∧ ¬ (s.InMemory a ∧ t.InMemory a)) ∧
    (∀ d : Draft, d.bytes = image.bytes → d.sections.Perm image.sections → ∃ other : Image, d.accept = .ok other ∧
      (∀ p, other.toVirtual p = image.toVirtual p) ∧ ∀ v, other.toPhysical v = image.toPhysical v) ∧
    ∀ p v, image.toVirtual p = .ok v → p.toNat < image.bytes.size := by
  refine ⟨fun p v => toVirtual_eq_ok_iff_shift, fun p v => toVirtual_eq_ok_iff_toPhysical,
    fun p f => toVirtual_eq_error_iff, fun v f => toPhysical_eq_error_iff, ?_, ?_, fun p v => lt_size_of_toVirtual⟩
  · refine image.isSound.apart.imp_of_mem ?_
    intro s t hs ht hst a
    have hfs := image.isSound.fits s hs
    have hft := image.isSound.fits t ht
    exact ⟨Section.not_inFile_of_apart hfs hft hst, Section.not_inMemory_of_apart hfs hft hst⟩
  · intro d hb hp
    obtain ⟨other, ho, rfl⟩ := Draft.accept_of_sound (image.isSound.of_perm hb hp)
    exact ⟨other, ho, toVirtual_perm hp, toPhysical_perm hp⟩

/-- code that ends where padded data begin, and data whose last bytes have no address -/
def paddedImage : Image where
  bytes := Array.replicate 12 0
  sections := [(Section.data ".data" 8 4 0x402000).withVirtualSize 2, .code ".text" 4 4 0x401000]
  imports := []
  metadata := .unknown
  sound := by decide

theorem paddedImage_translates : paddedImage.toVirtual 9 = .ok 0x402001 ∧ paddedImage.toPhysical 0x402001 = .ok 9 ∧
    (9 : UInt32).toNat < paddedImage.bytes.size := by
  have h := translation_bijective paddedImage
  have h9 : paddedImage.toVirtual 9 = .ok 0x402001 := rfl
  exact ⟨h9, (h.2.1 9 0x402001).1 h9, h.2.2.2.2.2.2 9 0x402001 h9⟩

end Image

end Landmark
