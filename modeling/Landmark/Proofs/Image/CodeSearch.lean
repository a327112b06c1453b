/-
A search without bounds looks through one section of code.

The code of an image is one span: the mapped bytes of the first section of the table that is executable. A search without
bounds answers with the lowest place in them where the signature stands, wherever that section lies in the file. Executable
sections further down the table are not looked through; a search that did so would answer the same (`SearchesAllCode`) just
where the first one has the signature or none of them has.
- `codeRange_of_first`: the span of the code.
- `findInCode_exact`: what the search answers, and when that is what a search through all code would answer.
- `initImage_missed`: code that stands in the second executable section alone.
-/
import Landmark.Proofs.Image.SectionTable
import Landmark.Proofs.Signature.Search

namespace Landmark

namespace Image

/-- the signature stands at the file offset `i`, wholly inside the mapped bytes of the section -/
def StandsInSection (image : Image) (sig : Signature) (s : Section) (i : Nat) : Prop :=
  sig.StandsIn image.bytes s.rawOffset.toNat (s.rawOffset.toNat + s.mappedCount) i

/-- the first place of a signature in all code: the lowest one in the first executable section of the table that has any -/
def FirstInAllCode (image : Image) (sig : Signature) (i : Nat) : Prop :=
  ∃ before s after, image.sections = before ++ s :: after ∧
    (∀ t ∈ before, t.executable = true → ∀ k, ¬ image.StandsInSection sig t k) ∧
    s.executable = true ∧ image.StandsInSection sig s i ∧ ∀ k, image.StandsInSection sig s k → i ≤ k

/-- the search without bounds answers for all executable sections -/
def SearchesAllCode (image : Image) (sig : Signature) : Prop :=
  ((image.findInCode sig).isSome = true ↔
    ∃ s ∈ image.sections, s.executable = true ∧ ∃ i, image.StandsInSection sig s i) ∧
  ∀ m, image.findInCode sig = some m → image.FirstInAllCode sig m.offset.toNat

variable {image : Image} {sig : Signature} {before after : List Section} {s : Section}

/-! ## The span of the code -/

/-- the code is the mapped part of the first executable section -/
theorem codeRange_of_first (hfirst : image.sections.find? (·.executable) = some s) :
    image.codeRange.1.toNat = s.rawOffset.toNat ∧ image.codeRange.2.toNat = s.rawOffset.toNat + s.mappedCount := by
  have hs : s ∈ image.sections := List.mem_of_find?_eq_some hfirst
  rw [codeRange, hfirst]
  exact ⟨rfl, Section.toNat_rawEnd (image.isSound.fits s hs)⟩

theorem find?_executable (hsections : image.sections = before ++ s :: after) (hs : s.executable = true)
    (hbefore : ∀ t ∈ before, t.executable = false) : image.sections.find? (·.executable) = some s := by
  rw [List.find?_eq_some_iff_append]
  refine ⟨hs, before, after, hsections, ?_⟩
  intro t ht
  rw [hbefore t ht]
  rfl

/-- the search without bounds is a search of the mapped bytes of the first executable section -/
theorem finds_findInCode (hsig : 0 < sig.size) (hfirst : image.sections.find? (·.executable) = some s) :
    Finds (image.StandsInSection sig s) s.rawOffset.toNat ((image.findInCode sig).map fun m => m.offset.toNat) := by
  have hs : s ∈ image.sections := List.mem_of_find?_eq_some hfirst
  obtain ⟨hstart, hstop⟩ := codeRange_of_first hfirst
  have hmapped := mapped_le_size hs
  have hfinds := image.finds_findSignature sig hsig image.codeRange.1 image.codeRange.2
  rw [hstart, hstop, Nat.min_eq_left hmapped] at hfinds
  refine hfinds.congr ?_
  intro k hk
  rw [StandsInSection, Signature.StandsIn, and_iff_right hk]

/-! ## The first section and the others -/

theorem isSome_findInCode_iff (hsig : 0 < sig.size) (hfirst : image.sections.find? (·.executable) = some s) :
    (image.findInCode sig).isSome = true ↔ ∃ i, image.StandsInSection sig s i := by
  rw [← Option.isSome_map, (finds_findInCode hsig hfirst).isSome_iff]
  constructor
  · rintro ⟨k, -, hk⟩
    exact ⟨k, hk⟩
  · rintro ⟨k, hk⟩
    exact ⟨k, hk.1, hk⟩

theorem least_of_findInCode (hsig : 0 < sig.size) (hfirst : image.sections.find? (·.executable) = some s)
    {m : Sighting} (hm : image.findInCode sig = some m) :
    image.StandsInSection sig s m.offset.toNat ∧ ∀ i, image.StandsInSection sig s i → m.offset.toNat ≤ i := by
  have hfinds := finds_findInCode hsig hfirst
  rw [hm, Option.map_some] at hfinds
  refine ⟨hfinds.2.1, ?_⟩
  intro i hi
  exact hfinds.le hi.1 hi

/-- **When the search answers for all code**: the first executable section has the signature, or no other one has. -/
theorem searchesAllCode_iff (hsig : 0 < sig.size) (hsections : image.sections = before ++ s :: after)
    (hs : s.executable = true) (hbefore : ∀ t ∈ before, t.executable = false) :
    image.SearchesAllCode sig ↔ (∃ i, image.StandsInSection sig s i) ∨
      ∀ t ∈ after, t.executable = true → ∀ i, ¬ image.StandsInSection sig t i := by
  have hfirst := find?_executable hsections hs hbefore
  have hmem : s ∈ image.sections := List.mem_of_find?_eq_some hfirst
  have hfound := isSome_findInCode_iff hsig hfirst
  constructor
  · intro hall
    by_cases hstands : ∃ i, image.StandsInSection sig s i
    · exact .inl hstands
    · -- with nothing in the first section there is no answer, so no other section may have the signature
      apply Or.inr
      intro t ht hexec i hi
      have htmem : t ∈ image.sections := hsections ▸ List.mem_append_right before (List.mem_cons_of_mem s ht)
      exact hstands (hfound.1 (hall.1.2 ⟨t, htmem, hexec, i, hi⟩))
  · intro hcases
    refine ⟨⟨fun h => ⟨s, hmem, hs, hfound.1 h⟩, ?_⟩, ?_⟩
    · rintro ⟨t, ht, hexec, i, hi⟩
      rw [hfound]
      rcases hcases with hstands | hnone
      · exact hstands
      · rw [hsections, List.mem_append, List.mem_cons] at ht
        rcases ht with hearlier | rfl | hlater
        · rw [hbefore t hearlier] at hexec
          contradiction
        · exact ⟨i, hi⟩
        · exact absurd hi (hnone t hlater hexec i)
    · intro m hm
      obtain ⟨hstands, hleast⟩ := least_of_findInCode hsig hfirst hm
      refine ⟨before, s, after, hsections, ?_, hs, hstands, hleast⟩
      intro t ht hexec
      rw [hbefore t ht] at hexec
      contradiction

/-- **The search without bounds is exact for the first executable section of the table.** It finds a signature that is not
empty exactly if that section has it, wholly inside its mapped bytes, and then at the lowest such place. So it answers for
all code exactly if that section has the signature or no executable section behind it in the table has. -/
theorem findInCode_exact (hsig : 0 < sig.size) (hsections : image.sections = before ++ s :: after)
    (hs : s.executable = true) (hbefore : ∀ t ∈ before, t.executable = false) :
    ((image.findInCode sig).isSome = true ↔ ∃ i, image.StandsInSection sig s i) ∧
    (∀ m, image.findInCode sig = some m →
      image.StandsInSection sig s m.offset.toNat ∧ ∀ i, image.StandsInSection sig s i → m.offset.toNat ≤ i) ∧
    (image.SearchesAllCode sig ↔ (∃ i, image.StandsInSection sig s i) ∨
      ∀ t ∈ after, t.executable = true → ∀ i, ¬ image.StandsInSection sig t i) := by
  have hfirst := find?_executable hsections hs hbefore
  exact ⟨isSome_findInCode_iff hsig hfirst, fun m hm => least_of_findInCode hsig hfirst hm,
    searchesAllCode_iff hsig hsections hs hbefore⟩

/-- two sections of code, the second of the table being the first in the file -/
def initImage : Image where
  bytes := #[0x68, 0x6A, 0x00, 0x68]
  sections := [.data ".rdata" 2 1 0x403000, .code ".text" 3 1 0x401000, .code ".init" 0 2 0x402000]
  imports := []
  metadata := .unknown
  sound := by decide

/-- what both sections have is found in the first one of the table, though it stands earlier in the file too -/
theorem initImage_found :
    initImage.findInCode (.literal [0x68]) = some ⟨3, []⟩ ∧
      initImage.StandsInSection (.literal [0x68]) (.code ".text" 3 1 0x401000) 3 ∧
      initImage.StandsInSection (.literal [0x68]) (.code ".init" 0 2 0x402000) 0 ∧
      initImage.SearchesAllCode (.literal [0x68]) := by
  have hm : initImage.findInCode (.literal [0x68]) = some ⟨3, []⟩ := by decide
  have hsig : 0 < (Signature.literal [0x68]).size := by decide
  have hsections : initImage.sections = [.data ".rdata" 2 1 0x403000] ++ .code ".text" 3 1 0x401000 ::
      [.code ".init" 0 2 0x402000] := rfl
  obtain ⟨-, hplace, hall⟩ := findInCode_exact hsig hsections rfl (by decide)
  obtain ⟨hstands, -⟩ := hplace _ hm
  have hinit : initImage.findSignature (.literal [0x68]) 0 2 = some ⟨0, []⟩ := by decide
  have hother : initImage.StandsInSection (.literal [0x68]) (.code ".init" 0 2 0x402000) 0 :=
    (findSignature_eq_some_iff.1 hinit).2.1
  exact ⟨hm, hstands, hother, hall.2 (.inl ⟨3, hstands⟩)⟩

/-- what the second section of code alone has is not found -/
theorem initImage_missed :
    0 < (Signature.literal [0x6A]).size ∧ (∃ s ∈ initImage.sections, s.executable = true) ∧
      initImage.StandsInSection (.literal [0x6A]) (.code ".init" 0 2 0x402000) 1 ∧
      initImage.findInCode (.literal [0x6A]) = none ∧ ¬ initImage.SearchesAllCode (.literal [0x6A]) := by
  have hinit : initImage.findSignature (.literal [0x6A]) 0 2 = some ⟨1, []⟩ := by decide
  have hstands : initImage.StandsInSection (.literal [0x6A]) (.code ".init" 0 2 0x402000) 1 :=
    (findSignature_eq_some_iff.1 hinit).2.1
  have hnone : initImage.findInCode (.literal [0x6A]) = none := by decide
  refine ⟨by decide, ⟨.code ".text" 3 1 0x401000, by decide, rfl⟩, hstands, hnone, ?_⟩
  rintro ⟨hfound, -⟩
  have hsome := hfound.2 ⟨.code ".init" 0 2 0x402000, by decide, rfl, 1, hstands⟩
  rw [hnone] at hsome
  contradiction

end Image

end Landmark
