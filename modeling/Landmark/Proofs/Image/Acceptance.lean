/-
Which section tables are accepted.

`Draft.Valid` is what a section table owes to the file and to the two spaces: raw ranges inside the file, mapped ranges
inside both 32-bit spaces, and no address in two of them. Acceptance compares the ends of ranges, and for ranges that are
not empty that is the same. An empty range has no address, but the comparison still sees where it stands
(`StandsInside`): in the middle of another range it counts as an overlap, at either end of it or outside it does not.
- `overlaps_eq_false_iff`: what the comparison of two sections tells.
- `accept_exact`: a draft is accepted, as it stands, exactly if it is valid and no empty range is inside another one.
- `emptyInside_refused`: a valid draft that is refused.
-/
import Landmark.Proofs.Image.SectionTable

namespace Landmark

namespace Section

/-- no address is in the mapped ranges of both, neither in the file nor in memory -/
def SharesNone (s t : Section) : Prop :=
  ∀ a, ¬ (s.InFile a ∧ t.InFile a) ∧ ¬ (s.InMemory a ∧ t.InMemory a)

/-- the mapped range of `s` is empty, and in the file or in memory it stands between two bytes of the other one -/
def StandsInside (s t : Section) : Prop :=
  s.mappedCount = 0 ∧
    ((t.rawOffset.toNat < s.rawOffset.toNat ∧ s.rawOffset.toNat < t.rawOffset.toNat + t.mappedCount) ∨
      (t.virtualAddress.toNat < s.virtualAddress.toNat ∧
        s.virtualAddress.toNat < t.virtualAddress.toNat + t.mappedCount))

variable {s t : Section}

/-- the comparison of ends, in `Nat` -/
theorem overlaps_iff (hs : s.fits = true) (ht : t.fits = true) : s.overlaps t = true ↔
    (s.rawOffset.toNat < t.rawOffset.toNat + t.mappedCount ∧ t.rawOffset.toNat < s.rawOffset.toNat + s.mappedCount) ∨
      (s.virtualAddress.toNat < t.virtualAddress.toNat + t.mappedCount ∧
        t.virtualAddress.toNat < s.virtualAddress.toNat + s.mappedCount) := by
  simp only [overlaps, Bool.or_eq_true, Bool.and_eq_true, decide_eq_true_eq, UInt32.lt_iff_toNat_lt, toNat_rawEnd hs,
    toNat_rawEnd ht, toNat_virtualEnd hs, toNat_virtualEnd ht]

/-- ranges that are not empty and each start before the other one ends share the later start -/
theorem exists_shared {a b : UInt32} {m n : Nat} (hm : m ≠ 0) (hn : n ≠ 0) (hab : a.toNat < b.toNat + n)
    (hba : b.toNat < a.toNat + m) :
    ∃ c : UInt32, (a.toNat ≤ c.toNat ∧ c.toNat < a.toNat + m) ∧ b.toNat ≤ c.toNat ∧ c.toNat < b.toNat + n := by
  rcases Nat.le_total a.toNat b.toNat with h | h
  · exact ⟨b, ⟨h, hba⟩, Nat.le_refl _, by omega⟩
  · exact ⟨a, ⟨Nat.le_refl _, by omega⟩, h, hab⟩

/-- **Two sections pass the comparison** exactly if they share no address and neither is empty and inside the other. -/
theorem overlaps_eq_false_iff (hs : s.fits = true) (ht : t.fits = true) :
    s.overlaps t = false ↔ s.SharesNone t ∧ ¬ s.StandsInside t ∧ ¬ t.StandsInside s := by
  constructor
  · intro h
    refine ⟨fun a => ⟨not_inFile_of_apart hs ht h, not_inMemory_of_apart hs ht h⟩, ?_, ?_⟩
    all_goals
      have hends := mt (overlaps_iff hs ht).2 (Bool.eq_false_iff.1 h)
      unfold StandsInside
      omega
  · rintro ⟨hshare, hst, hts⟩
    unfold StandsInside at hst hts
    rw [Bool.eq_false_iff, Ne, overlaps_iff hs ht]
    rintro (⟨h, h'⟩ | ⟨h, h'⟩)
    · obtain ⟨c, hc, hc'⟩ := exists_shared (by omega) (by omega) h h'
      exact (hshare c).1 ⟨hc, hc'⟩
    · obtain ⟨c, hc, hc'⟩ := exists_shared (by omega) (by omega) h h'
      exact (hshare c).2 ⟨hc, hc'⟩

end Section

namespace Draft

/-- raw ranges end inside the file, mapped ranges inside both spaces, and no address is in two mapped ranges -/
structure Valid (d : Draft) : Prop where
  inside : ∀ s ∈ d.sections, s.rawOffset.toNat + s.rawSize.toNat ≤ d.bytes.size
  fits : ∀ s ∈ d.sections,
    s.rawOffset.toNat + s.mappedCount < UInt32.size ∧ s.virtualAddress.toNat + s.mappedCount < UInt32.size
  apart : d.sections.Pairwise Section.SharesNone

theorem sound_iff_valid {d : Draft} :
    d.Sound ↔ d.Valid ∧ d.sections.Pairwise fun s t => ¬ s.StandsInside t ∧ ¬ t.StandsInside s := by
  constructor
  · intro h
    have hboth : d.sections.Pairwise fun s t => s.SharesNone t ∧ ¬ s.StandsInside t ∧ ¬ t.StandsInside s :=
      h.apart.imp_of_mem fun hs ht hst => (Section.overlaps_eq_false_iff (h.fits _ hs) (h.fits _ ht)).1 hst
    exact ⟨⟨h.inside, fun s hs => s.fits_iff.1 (h.fits s hs), hboth.imp fun hst => hst.1⟩, hboth.imp fun hst => hst.2⟩
  · rintro ⟨hvalid, hempty⟩
    have hfits : ∀ s ∈ d.sections, s.fits = true := fun s hs => s.fits_iff.2 (hvalid.fits s hs)
    refine ⟨hvalid.inside, hfits, ?_⟩
    exact (hvalid.apart.and hempty).imp_of_mem fun hs ht hst =>
      (Section.overlaps_eq_false_iff (hfits _ hs) (hfits _ ht)).2 hst

theorem eq_of_accept {d : Draft} {image : Image} (h : d.accept = .ok image) : image.toDraft = d := by
  unfold accept at h
  split at h
  · rw [← Except.ok.inj h]
  · contradiction

theorem accept_iff_sound {d : Draft} : (∃ image : Image, d.accept = .ok image) ↔ d.Sound := by
  constructor
  · rintro ⟨image, h⟩
    exact eq_of_accept h ▸ image.isSound
  · intro h
    obtain ⟨image, himage, -⟩ := accept_of_sound h
    exact ⟨image, himage⟩

/-- **What acceptance asks for.** A draft is accepted exactly if it is valid and no section with an empty mapped range
stands inside the mapped range of another one. What is accepted is the draft as it stands. -/
theorem accept_exact (d : Draft) :
    ((∃ image : Image, d.accept = .ok image) ↔
      d.Valid ∧ d.sections.Pairwise fun s t => ¬ s.StandsInside t ∧ ¬ t.StandsInside s) ∧
    ∀ image : Image, d.accept = .ok image → image.bytes = d.bytes ∧ image.sections = d.sections ∧
      image.imports = d.imports ∧ image.metadata = d.metadata := by
  refine ⟨accept_iff_sound.trans sound_iff_valid, ?_⟩
  rintro image h
  obtain rfl := eq_of_accept h
  exact ⟨rfl, rfl, rfl, rfl⟩

/-- code, and a section of memory without file bytes whose raw offset happens to be that of a byte of the code -/
def emptyInside : Draft where
  bytes := Array.replicate 16 0
  sections := [.code ".text" 0 16 0x401000, (Section.data ".bss" 8 0 0x402000).withVirtualSize 0x1000]
  imports := []
  metadata := .unknown

theorem emptyInside_refused : emptyInside.Valid ∧
    emptyInside.accept = .error (.invalidImage "sections .text and .bss overlap") := by
  have hempty : ((Section.data ".bss" 8 0 0x402000).withVirtualSize 0x1000).mappedCount = 0 := rfl
  refine ⟨⟨by decide, by decide, List.pairwise_pair.2 fun a => ?_⟩, by rfl⟩
  unfold Section.InFile Section.InMemory
  rw [hempty]
  exact ⟨by omega, by omega⟩

end Draft

end Landmark
