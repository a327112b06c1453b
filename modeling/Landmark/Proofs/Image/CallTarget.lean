/-
Where a call goes.

The target of a relative call counts from the address just past it. `Section.HoldsCall` says that a section maps the five
bytes of a call; `targetIn` is the target as that section places the call in memory. What is translated is the offset just
past the call, though, and at the end of the section that offset is no longer the section's.
- `callTarget_of_inside`: before the end of the section the answer is the target.
- `callTarget_at_end`, `callTarget_of_follower`: at the end there is no answer unless another section starts in the file just
  there, and then the answer counts from that section's address.
- `callTarget_eq_targetIn_iff`: so the answer is the target exactly if the call does not end the section, or what follows the
  section in the file follows it in memory too.
- `edgeImage_misled`: two calls that end their sections, one with a wrong answer and one with none.
-/
import Landmark.Proofs.Image.Reading
import Landmark.Proofs.Image.Translation

namespace Landmark

namespace Section

/-- the five bytes at a physical offset lie in the mapped range -/
structure HoldsCall (s : Section) (p : UInt32) : Prop where
  start : s.rawOffset.toNat ≤ p.toNat
  stop : p.toNat + 5 ≤ s.rawOffset.toNat + s.mappedCount

/-- virtual address just past a call, the section's shift being applied to the call itself -/
def pastCall (s : Section) (p : UInt32) : UInt32 :=
  s.virtualAddress + (p - s.rawOffset) + 5

end Section

namespace Image

/-- target of a call as the section that holds it places it in memory -/
def targetIn (image : Image) (s : Section) (p : UInt32) : UInt32 :=
  s.pastCall p + image.wordAt (p.toNat + 1)

variable {image : Image} {s t : Section} {p : UInt32}

/-! ## What is read and what is translated -/

theorem toNat_pastCall (hs : s ∈ image.sections) (h : s.HoldsCall p) :
    (s.pastCall p).toNat = s.virtualAddress.toNat + (p.toNat - s.rawOffset.toNat) + 5 := by
  have hsize : UInt32.size = 0x100000000 := rfl
  have hfive : (5 : UInt32).toNat = 5 := rfl
  have hfits := (s.fits_iff.1 (image.isSound.fits s hs)).2
  obtain ⟨hstart, hstop⟩ := h
  have hdistance : (p - s.rawOffset).toNat = p.toNat - s.rawOffset.toNat := Word.toNat_sub_of_le hstart
  have hcall : (s.virtualAddress + (p - s.rawOffset)).toNat = s.virtualAddress.toNat + (p.toNat - s.rawOffset.toNat) := by
    rw [Word.toNat_add_of_lt (by omega), hdistance]
  rw [Section.pastCall, Word.toNat_add_of_lt (by omega), hcall, hfive]

theorem toNat_add_five (hs : s ∈ image.sections) (h : s.HoldsCall p) : (p + 5).toNat = p.toNat + 5 := by
  have hfits := (s.fits_iff.1 (image.isSound.fits s hs)).1
  have hstop := h.stop
  exact Word.toNat_add_of_lt (by
    have hfive : (5 : UInt32).toNat = 5 := rfl
    omega)

/-- the answer is that of the translation of the offset just past the call, and the distance is the word in the call -/
theorem callTarget_eq (hs : s ∈ image.sections) (h : s.HoldsCall p) :
    image.callTarget p = (image.toVirtual (p + 5)).map (· + image.wordAt (p.toNat + 1)) := by
  have hsize : UInt32.size = 0x100000000 := rfl
  have hfits := (s.fits_iff.1 (image.isSound.fits s hs)).1
  have hmapped := mapped_le_size hs
  have hstop := h.stop
  have hnext : Word.addExact p 5 = some (p + 5) := Word.addExact_eq_some_iff.2 (toNat_add_five hs h)
  have hone : (p + 1).toNat = p.toNat + 1 := Word.toNat_add_of_lt (by
    have hone : (1 : UInt32).toNat = 1 := rfl
    omega)
  have hword : image.readWord (p + 1) = .ok (image.wordAt (p.toNat + 1)) :=
    readWord_eq_ok_iff.2 ⟨by omega, by rw [hone]⟩
  rw [callTarget, hnext]
  simp only [hword]
  cases image.toVirtual (p + 5) <;> rfl

/-! ## Inside the section and at its end -/

/-- **A call that does not end its section goes to its target.** -/
theorem callTarget_of_inside (hs : s ∈ image.sections) (h : s.HoldsCall p)
    (hinside : p.toNat + 5 < s.rawOffset.toNat + s.mappedCount) : image.callTarget p = .ok (image.targetIn s p) := by
  have hfive := toNat_add_five hs h
  have hpast := toNat_pastCall hs h
  have hstart := h.start
  have hvirtual : image.toVirtual (p + 5) = .ok (s.pastCall p) :=
    toVirtual_eq_ok_iff_shift.2 ⟨s, hs, ⟨by omega, by omega⟩, by omega⟩
  rw [callTarget_eq hs h, hvirtual]
  rfl

/-- no two sections of an image map one file offset -/
theorem eq_of_inFile (hs : s ∈ image.sections) (ht : t ∈ image.sections) (h : s.InFile p) (h' : t.InFile p) : s = t := by
  have hapart : image.sections.Pairwise fun s t => s.InFile p → t.InFile p → s = t := by
    refine image.isSound.apart.imp_of_mem fun hs ht hst h h' => ?_
    exact absurd ⟨h, h'⟩ (Section.not_inFile_of_apart (image.isSound.fits _ hs) (image.isSound.fits _ ht) hst)
  have hflip : image.sections.Pairwise fun s t => t.InFile p → s.InFile p → t = s :=
    hapart.imp fun heq h h' => (heq h' h).symm
  exact hapart.forall_of_forall_of_flip (fun _ _ _ _ => rfl) hflip hs ht h h'

theorem not_inFile_of_end (hs : s ∈ image.sections) (h : s.HoldsCall p)
    (hend : p.toNat + 5 = s.rawOffset.toNat + s.mappedCount) : ¬ s.InFile (p + 5) := by
  have hfive := toNat_add_five hs h
  rintro ⟨-, hlt⟩
  omega

/-- where no section maps what follows, there is no answer -/
theorem callTarget_at_end (hs : s ∈ image.sections) (h : s.HoldsCall p)
    (hnone : ∀ t ∈ image.sections, ¬ t.InFile (p + 5)) :
    image.callTarget p = .error (.outOfRange (p + 5) .physical) := by
  rw [callTarget_eq hs h, toVirtual_eq_error_iff.2 ⟨rfl, hnone⟩]
  rfl

/-- the section that maps what follows starts there, since it has no byte of the call -/
theorem rawOffset_of_follower (hs : s ∈ image.sections) (ht : t ∈ image.sections) (h : s.HoldsCall p)
    (hend : p.toNat + 5 = s.rawOffset.toNat + s.mappedCount) (hfollows : t.InFile (p + 5)) : t.rawOffset = p + 5 := by
  have hfive := toNat_add_five hs h
  have hfour : (p + 4).toNat = p.toNat + 4 := Word.toNat_add_of_lt (by
    have hfits := (s.fits_iff.1 (image.isSound.fits s hs)).1
    have hword : (4 : UInt32).toNat = 4 := rfl
    omega)
  have hstart := h.start
  have hlast : s.InFile (p + 4) := ⟨by omega, by omega⟩
  have hnot : ¬ t.InFile (p + 4) := by
    intro hboth
    obtain rfl := eq_of_inFile hs ht hlast hboth
    exact not_inFile_of_end hs h hend hfollows
  unfold Section.InFile at hfollows hnot
  apply UInt32.toNat_inj.1
  omega

/-- **At the end of its section a call goes where the next section sends it.** -/
theorem callTarget_of_follower (hs : s ∈ image.sections) (ht : t ∈ image.sections) (h : s.HoldsCall p)
    (hend : p.toNat + 5 = s.rawOffset.toNat + s.mappedCount) (hfollows : t.InFile (p + 5)) :
    image.callTarget p = .ok (t.virtualAddress + image.wordAt (p.toNat + 1)) := by
  have hraw := rawOffset_of_follower hs ht h hend hfollows
  have hvirtual : image.toVirtual (p + 5) = .ok t.virtualAddress :=
    toVirtual_eq_ok_iff_shift.2 ⟨t, ht, hfollows, by rw [hraw, Nat.sub_self, Nat.add_zero]⟩
  rw [callTarget_eq hs h, hvirtual]
  rfl

/-- **When a call is told its target.** For a call whose bytes a section maps, the answer is the target in that section
exactly if the call does not end the section, or the section that follows in the file without a gap does so in memory too.
Otherwise the answer counts from the address of the section that follows, or there is none. -/
theorem callTarget_eq_targetIn_iff (hs : s ∈ image.sections) (h : s.HoldsCall p) :
    (image.callTarget p = .ok (image.targetIn s p) ↔
      p.toNat + 5 < s.rawOffset.toNat + s.mappedCount ∨
        ∃ t ∈ image.sections, t.InFile (p + 5) ∧ t.virtualAddress = s.pastCall p) ∧
    (p.toNat + 5 = s.rawOffset.toNat + s.mappedCount →
      (∀ t ∈ image.sections, t.InFile (p + 5) → t.rawOffset = p + 5 ∧
        image.callTarget p = .ok (t.virtualAddress + image.wordAt (p.toNat + 1))) ∧
      ((∀ t ∈ image.sections, ¬ t.InFile (p + 5)) →
        image.callTarget p = .error (.outOfRange (p + 5) .physical))) := by
  have hfollower : ∀ t ∈ image.sections, p.toNat + 5 = s.rawOffset.toNat + s.mappedCount → t.InFile (p + 5) →
      image.callTarget p = .ok (t.virtualAddress + image.wordAt (p.toNat + 1)) :=
    fun t ht hend hfollows => callTarget_of_follower hs ht h hend hfollows
  refine ⟨⟨fun hright => ?_, ?_⟩, fun hend => ⟨fun t ht hfollows => ?_, callTarget_at_end hs h⟩⟩
  · rcases Nat.lt_or_eq_of_le h.stop with hinside | hend
    · exact .inl hinside
    · by_cases hfollowed : ∃ t ∈ image.sections, t.InFile (p + 5)
      · obtain ⟨t, ht, hfollows⟩ := hfollowed
        rw [hfollower t ht hend hfollows, Except.ok.injEq, targetIn] at hright
        exact .inr ⟨t, ht, hfollows, (UInt32.add_left_inj _).1 hright⟩
      · rw [callTarget_at_end hs h fun t ht hfollows => hfollowed ⟨t, ht, hfollows⟩] at hright
        contradiction
  · rintro (hinside | ⟨t, ht, hfollows, heq⟩)
    · exact callTarget_of_inside hs h hinside
    · rcases Nat.lt_or_eq_of_le h.stop with hinside | hend
      · exact callTarget_of_inside hs h hinside
      · rw [hfollower t ht hend hfollows, heq, targetIn]
  · exact ⟨rawOffset_of_follower hs ht h hend hfollows, hfollower t ht hend hfollows⟩

/-- a call that ends the code, and data that follow it in the file and in memory -/
def seamImage : Image where
  bytes := #[0xE8, 0x10, 0, 0, 0, 0, 0, 0]
  sections := [.code ".text" 0 5 0x401000, .data ".data" 5 3 0x401005]
  imports := []
  metadata := .unknown
  sound := by decide

theorem seamImage_told : Section.code ".text" 0 5 0x401000 ∈ seamImage.sections ∧
    (Section.code ".text" 0 5 0x401000).HoldsCall 0 ∧
    seamImage.targetIn (.code ".text" 0 5 0x401000) 0 = 0x401015 ∧ seamImage.callTarget 0 = .ok 0x401015 := by
  have hmem : Section.code ".text" 0 5 0x401000 ∈ seamImage.sections := List.mem_cons_self ..
  have hcall : (Section.code ".text" 0 5 0x401000).HoldsCall 0 := ⟨by decide, by decide⟩
  have htarget : seamImage.targetIn (.code ".text" 0 5 0x401000) 0 = 0x401015 := by decide
  have hfollows : (Section.data ".data" 5 3 0x401005).InFile (0 + 5) := ⟨by decide, by decide⟩
  exact ⟨hmem, hcall, htarget, htarget ▸ (callTarget_eq_targetIn_iff hmem hcall).1.2 (.inr ⟨_, by decide, hfollows, rfl⟩)⟩

/-- two calls that end their sections; after the first one the other section follows, far away in memory, and after the
second one nothing does -/
def edgeImage : Image where
  bytes := #[0xE8, 0x10, 0, 0, 0, 0xE8, 0x20, 0, 0, 0]
  sections := [.code ".text" 0 5 0x401000, .data ".data" 5 5 0x500000]
  imports := []
  metadata := .unknown
  sound := by decide

theorem edgeImage_misled :
    (Section.code ".text" 0 5 0x401000).HoldsCall 0 ∧
      edgeImage.targetIn (.code ".text" 0 5 0x401000) 0 = 0x401015 ∧ edgeImage.callTarget 0 = .ok 0x500010 ∧
    (Section.data ".data" 5 5 0x500000).HoldsCall 5 ∧
      edgeImage.targetIn (.data ".data" 5 5 0x500000) 5 = 0x500025 ∧
      edgeImage.callTarget 5 = .error (.outOfRange 10 .physical) :=
  ⟨⟨by decide, by decide⟩, by decide, by rfl, ⟨by decide, by decide⟩, by decide, by rfl⟩

end Image

end Landmark
