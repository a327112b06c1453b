/-
The window manager, told by the bytes of the image.

`MakesWindow` and `CopiesAndMakesWindow` are the two forms of the code that makes the account window, for a manager and a
distance of the call (`WindowCall`). `Makes` is the code that counts: the first of the direct form, or the first of the other
form if the section of code lacks the direct one. The call is looked up by its place alone, outside of the search; it has an
answer all the same, since a PUSH of the same section follows.
- `reads_makeWindow`, `reads_copyAndMakeWindow`: which instructions the signatures stand for.
- `Makes.bytes`, `Makes.callTarget_eq`: what the code holds, and that its call is never out of range.
- `windowManager_exact`: what the finder answers, and why it fails.
-/
import Landmark.Proofs.Finder.Alike
import Landmark.Proofs.Image.CallTarget
import Landmark.Proofs.Image.CodeSearch
import Landmark.Proofs.Image.TextSearch
import Landmark.Proofs.Machine.Encoding
import Landmark.Proofs.Signature.Family

namespace Landmark.Finder

open Instruction Signature Survey

/-! ## Kinds of code -/

/-- operands of the code that makes the window -/
structure WindowCall where
  manager : UInt32
  distance : UInt32

/-- the call goes back, by no more than three bytes can tell -/
def WindowCall.Backward (c : WindowCall) : Prop :=
  0xFF000000 ≤ c.distance.toNat

/-- MOV ECX, manager; CALL; PUSH 0 -/
def WindowCall.head (c : WindowCall) : List UInt8 :=
  encodeMovRegImm .ecx c.manager ++ encodeCallRel c.distance ++ encodePushImm8 0

/-- the head; PUSH 0; PUSH of the text -/
def MakesWindow (anchor : UInt32) (c : WindowCall) (bs : List UInt8) : Prop :=
  c.Backward ∧ bs = c.head ++ (encodePushImm8 0 ++ encodePushImm32 anchor)

/-- the head; MOV r32, r32; PUSH 0; PUSH of the text -/
def CopiesAndMakesWindow (anchor : UInt32) (c : WindowCall) (bs : List UInt8) : Prop :=
  c.Backward ∧ ∃ dst src, bs = c.head ++ encodeMovRegReg dst src ++ (encodePushImm8 0 ++ encodePushImm32 anchor)

section

variable (anchor : UInt32) {bs : List UInt8}

theorem accepts_makeWindowHead : makeWindowHead.Accepts bs ↔ ∃ c : WindowCall, c.Backward ∧ bs = c.head := by
  have hbackward : ∀ w, (Operand.negative 3).Allows w ↔ 0xFF000000 ≤ w.toNat := by
    intro w
    have hsize : UInt32.size = 0x100000000 := rfl
    simp only [Operand.Allows, Operand.freeSpan]
    omega
  simp only [makeWindowHead, accepts_append, accepts_movRegImm, accepts_callRel, accepts_pushImm8, hbackward]
  constructor
  · rintro ⟨_, _, rfl, ⟨_, _, rfl, ⟨w, -, rfl⟩, r, hr, rfl⟩, rfl⟩
    exact ⟨⟨w, r⟩, hr, rfl⟩
  · rintro ⟨c, hc, rfl⟩
    exact ⟨_, _, rfl, ⟨_, _, rfl, ⟨c.manager, trivial, rfl⟩, c.distance, hc, rfl⟩, rfl⟩

theorem accepts_makeWindowTail :
    (makeWindowTail anchor).Accepts bs ↔ bs = encodePushImm8 0 ++ encodePushImm32 anchor := by
  simp only [makeWindowTail, accepts_append, accepts_pushImm8, accepts_pushImm32, Operand.Allows, exists_eq_left]
  constructor
  · rintro ⟨_, _, rfl, rfl, rfl⟩
    rfl
  · rintro rfl
    exact ⟨_, _, rfl, rfl, rfl⟩

theorem reads_makeWindow : (makeWindowHead ++ makeWindowTail anchor).Reads windowManagerName (MakesWindow anchor)
    WindowCall.manager where
  size_pos := Nat.succ_pos 18
  accepts_iff bs := by
    simp only [accepts_append, accepts_makeWindowHead, accepts_makeWindowTail, MakesWindow]
    constructor
    · rintro ⟨_, _, rfl, ⟨c, hc, rfl⟩, rfl⟩
      exact ⟨c, hc, rfl⟩
    · rintro ⟨c, hc, rfl⟩
      exact ⟨_, _, rfl, ⟨c, hc, rfl⟩, rfl⟩
  captured := by
    refine ⟨⟨1, windowManagerName, .dword, none⟩, by rfl, rfl, ?_⟩
    rintro c bs ⟨-, rfl⟩
    exact ⟨[0xB9], encodeCallRel c.distance ++ encodePushImm8 0 ++ (encodePushImm8 0 ++ encodePushImm32 anchor), rfl, rfl⟩

theorem reads_copyAndMakeWindow : (makeWindowHead ++ movAnyRegAnyReg ++ makeWindowTail anchor).Reads windowManagerName
    (CopiesAndMakesWindow anchor) WindowCall.manager where
  size_pos := Nat.succ_pos 20
  accepts_iff bs := by
    simp only [accepts_append, accepts_makeWindowHead, accepts_movAnyRegAnyReg, accepts_makeWindowTail, CopiesAndMakesWindow]
    constructor
    · rintro ⟨_, _, rfl, ⟨_, _, rfl, ⟨c, hc, rfl⟩, dst, src, rfl⟩, rfl⟩
      exact ⟨c, hc, dst, src, rfl⟩
    · rintro ⟨c, hc, dst, src, rfl⟩
      exact ⟨_, _, rfl, ⟨_, _, rfl, ⟨c, hc, rfl⟩, dst, src, rfl⟩, rfl⟩
  captured := by
    refine ⟨⟨1, windowManagerName, .dword, none⟩, by rfl, rfl, ?_⟩
    rintro c bs ⟨-, dst, src, rfl⟩
    exact ⟨[0xB9], encodeCallRel c.distance ++ encodePushImm8 0 ++ encodeMovRegReg dst src ++
      (encodePushImm8 0 ++ encodePushImm32 anchor), rfl, rfl⟩

end

/-! ## The code that counts -/

/-- the code at `o` makes the window, with these operands -/
inductive Makes (image : Image) (s : Section) (anchor : UInt32) (o : Nat) (c : WindowCall) : Prop
  | direct {j : Nat}
      (h : image.FirstMember (MakesWindow anchor) s.rawOffset.toNat (s.rawOffset.toNat + s.mappedCount) c o j)
  | copied {j : Nat} (hnot : image.Lacks (MakesWindow anchor) s.rawOffset.toNat (s.rawOffset.toNat + s.mappedCount))
      (h : image.FirstMember (CopiesAndMakesWindow anchor) s.rawOffset.toNat (s.rawOffset.toNat + s.mappedCount) c o j)

/-- no code in the section makes the window -/
def NotMade (image : Image) (s : Section) (anchor : UInt32) : Prop :=
  image.Lacks (MakesWindow anchor) s.rawOffset.toNat (s.rawOffset.toNat + s.mappedCount) ∧
    image.Lacks (CopiesAndMakesWindow anchor) s.rawOffset.toNat (s.rawOffset.toNat + s.mappedCount)

section

variable {image : Image} {s : Section} {anchor : UInt32} {o : UInt32} {c : WindowCall}

/-- in either form the load and the call come first, and something follows them in the section -/
theorem Makes.bytes {o : Nat} (h : Makes image s anchor o c) : c.Backward ∧ s.rawOffset.toNat ≤ o ∧
    o + 10 < s.rawOffset.toNat + s.mappedCount ∧ Segment.StandsAt image.bytes o (encodeMovRegImm .ecx c.manager) ∧
      Segment.StandsAt image.bytes (o + 5) (encodeCallRel c.distance) := by
  have hlength : ∀ c : WindowCall, c.head.length = 12 := fun _ => rfl
  cases h with
  | direct h =>
    obtain ⟨⟨hstart, hstop, -, -⟩, _, ⟨hbackward, rfl⟩, hend, hstands⟩ := h
    rw [Segment.standsAt_append, WindowCall.head, Segment.standsAt_append, Segment.standsAt_append] at hstands
    rw [List.length_append, hlength] at hend
    exact ⟨hbackward, hstart, by omega, hstands.1.1.1, hstands.1.1.2⟩
  | copied _ h =>
    obtain ⟨⟨hstart, hstop, -, -⟩, _, ⟨hbackward, dst, src, rfl⟩, hend, hstands⟩ := h
    rw [Segment.standsAt_append, Segment.standsAt_append, WindowCall.head, Segment.standsAt_append,
      Segment.standsAt_append] at hstands
    rw [List.length_append, List.length_append, hlength] at hend
    exact ⟨hbackward, hstart, by omega, hstands.1.1.1.1, hstands.1.1.1.2⟩

/-- **The call is never out of range.** Its target counts from the address of the code, ten bytes on. -/
theorem Makes.callTarget_eq (hs : s ∈ image.sections) (h : Makes image s anchor o.toNat c) :
    ∃ v, image.toVirtual o = .ok v ∧ image.callTarget (o + 5) = .ok (v + 10 + c.distance) := by
  obtain ⟨-, hstart, hstop, -, hcall⟩ := h.bytes
  have hsize : UInt32.size = 0x100000000 := rfl
  obtain ⟨hfile, hmemory⟩ := s.fits_iff.1 (image.isSound.fits s hs)
  have hmapped := Image.mapped_le_size hs
  have hplace : (o + 5).toNat = o.toNat + 5 := Word.toNat_add_of_lt (by
    have hfive : (5 : UInt32).toNat = 5 := rfl
    omega)
  have hholds : s.HoldsCall (o + 5) := ⟨by omega, by omega⟩
  have hdistance : image.wordAt (o.toNat + 5 + 1) = c.distance := by
    obtain ⟨-, hword⟩ := Segment.standsAt_append (u := [0xE8]).1 hcall
    exact (Segment.standsAt_bytes_iff (by omega)).1 hword
  obtain ⟨v, hv⟩ : ∃ v : UInt32, v.toNat = s.virtualAddress.toNat + (o.toNat - s.rawOffset.toNat) :=
    ⟨UInt32.ofNat _, UInt32.toNat_ofNat_of_lt' (by omega)⟩
  have hvirtual : image.toVirtual o = .ok v := Image.toVirtual_eq_ok_iff_shift.2 ⟨s, hs, ⟨hstart, by omega⟩, hv⟩
  have hpast : s.pastCall (o + 5) = v + 10 := by
    have hsum : (v + 10).toNat = v.toNat + 10 := Word.toNat_add_of_lt (by
      have hten : (10 : UInt32).toNat = 10 := rfl
      omega)
    apply UInt32.toNat_inj.1
    rw [Image.toNat_pastCall hs hholds, hsum, hplace, hv]
    omega
  refine ⟨v, hvirtual, ?_⟩
  rw [Image.callTarget_of_inside hs hholds (by omega), Image.targetIn, hpast, hplace, hdistance]

/-! ## What the plan finds -/

/-- the first sighting of the direct form, or else of the other one -/
def windowCode? (image : Image) (anchor : UInt32) : Option Sighting :=
  (image.findInCode (makeWindowHead ++ makeWindowTail anchor)).or
    (image.findInCode (makeWindowHead ++ movAnyRegAnyReg ++ makeWindowTail anchor))

theorem windowCode?_eq_none_iff (hfirst : image.sections.find? (·.executable) = some s) :
    windowCode? image anchor = none ↔ NotMade image s anchor := by
  obtain ⟨hstart, hstop⟩ := Image.codeRange_of_first hfirst
  rw [windowCode?, Option.or_eq_none_iff, (reads_makeWindow anchor).findInCode_eq_none_iff,
    (reads_copyAndMakeWindow anchor).findInCode_eq_none_iff, Image.LacksInCode, Image.LacksInCode, hstart, hstop, NotMade]

/-- what is found is the code that counts, and the capture reads the manager -/
theorem exists_of_windowCode? (hfirst : image.sections.find? (·.executable) = some s) {m : Sighting}
    (hm : windowCode? image anchor = some m) :
    ∃ c, Makes image s anchor m.offset.toNat c ∧ m.capture? windowManagerName = some c.manager := by
  obtain ⟨hstart, hstop⟩ := Image.codeRange_of_first hfirst
  rw [windowCode?, Option.or_eq_some_iff, (reads_makeWindow anchor).findInCode_eq_none_iff, Image.LacksInCode, hstart,
    hstop] at hm
  rcases hm with hm | ⟨hnot, hm⟩
  · obtain ⟨c, hmember⟩ := (reads_makeWindow anchor).exists_firstMember hm
    have hcapture := (reads_makeWindow anchor).capture?_of_codeAt hm hmember.code
    rw [hstart, hstop] at hmember
    exact ⟨c, .direct hmember, hcapture⟩
  · obtain ⟨c, hmember⟩ := (reads_copyAndMakeWindow anchor).exists_firstMember hm
    have hcapture := (reads_copyAndMakeWindow anchor).capture?_of_codeAt hm hmember.code
    rw [hstart, hstop] at hmember
    exact ⟨c, .copied hnot hmember, hcapture⟩

/-- the code that counts is found -/
theorem Makes.windowCode?_eq (hfirst : image.sections.find? (·.executable) = some s) (h : Makes image s anchor o.toNat c) :
    ∃ m, windowCode? image anchor = some m ∧ m.offset = o ∧ m.capture? windowManagerName = some c.manager := by
  obtain ⟨hstart, hstop⟩ := Image.codeRange_of_first hfirst
  cases h with
  | direct h =>
    rw [← hstop, ← hstart] at h
    obtain ⟨m, hm, ho, -, hcapture⟩ := (reads_makeWindow anchor).exists_sighting h
    exact ⟨m, Option.or_eq_some_iff.2 (.inl hm), UInt32.toNat_inj.1 ho, hcapture⟩
  | copied hnot h =>
    rw [← hstop, ← hstart] at h hnot
    obtain ⟨m, hm, ho, -, hcapture⟩ := (reads_copyAndMakeWindow anchor).exists_sighting h
    have hnone := (reads_makeWindow anchor).findInCode_eq_none_iff.2 hnot
    exact ⟨m, Option.or_eq_some_iff.2 (.inr ⟨hnone, hm⟩), UInt32.toNat_inj.1 ho, hcapture⟩

end

section

variable {κ : Type} {S : Survey κ} {answer : κ → Except Failure Finding} {s : Section}

theorem meaning_makeWindowCode (anchor : UInt32) : S.meaning answer (makeWindowCode S.image anchor) =
    match windowCode? S.image anchor with
    | none => .error accountNotUsed
    | some m => .ok m := by
  rw [makeWindowCode, meaning_signature_bind, windowCode?]
  cases S.image.findInCode (makeWindowHead ++ makeWindowTail anchor) with
  | some m => rfl
  | none =>
    simp only [Option.none_or]
    rw [meaning_signature_bind]
    cases S.image.findInCode (makeWindowHead ++ movAnyRegAnyReg ++ makeWindowTail anchor) <;> rfl

theorem meaning_windowManager : S.meaning answer (windowManager S.image) =
    match S.image.findText (rawText "NUMACCOUNT") .plain with
    | none => .error (.anchorMissing "'NUMACCOUNT' not found")
    | some anchor =>
      match windowCode? S.image anchor with
      | none => .error accountNotUsed
      | some m =>
        match m.capture? windowManagerName with
        | none => .error accountNotUsed
        | some manager => (S.image.callTarget (m.offset + 5)).map (WindowManager.mk manager) := by
  rw [windowManager, meaning_text_bind, meaning_require_bind]
  cases S.image.findText (rawText "NUMACCOUNT") .plain with
  | none => rfl
  | some anchor =>
    simp only
    rw [meaning_bind, meaning_makeWindowCode]
    cases windowCode? S.image anchor with
    | none => rfl
    | some m =>
      simp only [Except.bind]
      rw [meaning_require_bind]
      cases m.capture? windowManagerName with
      | none => rfl
      | some manager =>
        simp only
        rw [meaning_bind, meaning_ofExcept]
        cases S.image.callTarget (m.offset + 5) <;> rfl

theorem rawText_account_ne_nil : rawText "NUMACCOUNT" ≠ [] := by
  decide +kernel

theorem meaning_of_absent (habsent : S.image.Absent "NUMACCOUNT") :
    S.meaning answer (windowManager S.image) = .error (.anchorMissing "'NUMACCOUNT' not found") := by
  rw [meaning_windowManager, (Image.findText_plain_eq_none_iff rawText_account_ne_nil).2 habsent]

variable (hfirst : S.image.sections.find? (·.executable) = some s)

include hfirst

theorem meaning_of_notMade {anchor : UInt32} (hstored : S.image.StoredAt "NUMACCOUNT" anchor) (hnot : NotMade S.image s anchor) :
    S.meaning answer (windowManager S.image) = .error accountNotUsed := by
  simp only [meaning_windowManager, (Image.findText_plain_eq_some_iff rawText_account_ne_nil).2 hstored,
    (windowCode?_eq_none_iff hfirst).2 hnot]

theorem meaning_of_makes {anchor o v : UInt32} {c : WindowCall} (hstored : S.image.StoredAt "NUMACCOUNT" anchor)
    (h : Makes S.image s anchor o.toNat c) (hv : S.image.toVirtual o = .ok v) :
    S.meaning answer (windowManager S.image) = .ok ⟨c.manager, v + 10 + c.distance⟩ := by
  obtain ⟨m, hm, rfl, hcapture⟩ := h.windowCode?_eq hfirst
  obtain ⟨v', hv', htarget⟩ := h.callTarget_eq (List.mem_of_find?_eq_some hfirst)
  obtain rfl : v' = v := Except.ok.inj (hv'.symm.trans hv)
  simp only [meaning_windowManager, (Image.findText_plain_eq_some_iff rawText_account_ne_nil).2 hstored, hm, hcapture, htarget]
  rfl

/-- code that makes the window is translated, so that it has an address -/
theorem notMade_or_makes (anchor : UInt32) : NotMade S.image s anchor ∨
    ∃ (o : UInt32) (c : WindowCall) (v : UInt32), Makes S.image s anchor o.toNat c ∧ S.image.toVirtual o = .ok v := by
  cases hm : windowCode? S.image anchor with
  | none => exact .inl ((windowCode?_eq_none_iff hfirst).1 hm)
  | some m =>
    obtain ⟨c, hmakes, -⟩ := exists_of_windowCode? hfirst hm
    obtain ⟨v, hv, -⟩ := hmakes.callTarget_eq (List.mem_of_find?_eq_some hfirst)
    exact .inr ⟨m.offset, c, v, hmakes, hv⟩

/-- the window manager is found if the text is stored and the window is made -/
theorem meaning_windowManager_eq_ok_iff {w : WindowManager} : S.meaning answer (windowManager S.image) = .ok w ↔
    ∃ anchor o c v, S.image.StoredAt "NUMACCOUNT" anchor ∧ Makes S.image s anchor o.toNat c ∧
      S.image.toVirtual o = .ok v ∧ w = ⟨c.manager, v + 10 + c.distance⟩ := by
  constructor
  · intro h
    rcases S.image.absent_or_storedAt rawText_account_ne_nil with habsent | ⟨anchor, hstored⟩
    · rw [meaning_of_absent habsent] at h
      contradiction
    · rcases notMade_or_makes hfirst anchor with hnot | ⟨o, c, v, hmakes, hv⟩
      · rw [meaning_of_notMade hfirst hstored hnot] at h
        contradiction
      · rw [meaning_of_makes hfirst hstored hmakes hv] at h
        exact ⟨anchor, o, c, v, hstored, hmakes, hv, (Except.ok.inj h).symm⟩
  · rintro ⟨anchor, o, c, v, hstored, hmakes, hv, rfl⟩
    exact meaning_of_makes hfirst hstored hmakes hv

/-- it is not found for want of the text or of the code, and for no other reason -/
theorem meaning_windowManager_eq_error_iff {fault : Fault} : S.meaning answer (windowManager S.image) = .error fault ↔
    S.image.Absent "NUMACCOUNT" ∧ fault = .anchorMissing "'NUMACCOUNT' not found" ∨
      (∃ anchor, S.image.StoredAt "NUMACCOUNT" anchor ∧ NotMade S.image s anchor) ∧ fault = accountNotUsed := by
  constructor
  · intro h
    rcases S.image.absent_or_storedAt rawText_account_ne_nil with habsent | ⟨anchor, hstored⟩
    · rw [meaning_of_absent habsent] at h
      exact .inl ⟨habsent, (Except.error.inj h).symm⟩
    · rcases notMade_or_makes hfirst anchor with hnot | ⟨o, c, v, hmakes, hv⟩
      · rw [meaning_of_notMade hfirst hstored hnot] at h
        exact .inr ⟨⟨anchor, hstored, hnot⟩, (Except.error.inj h).symm⟩
      · rw [meaning_of_makes hfirst hstored hmakes hv] at h
        contradiction
  · rintro (⟨habsent, rfl⟩ | ⟨⟨anchor, hstored, hnot⟩, rfl⟩)
    · exact meaning_of_absent habsent
    · exact meaning_of_notMade hfirst hstored hnot

end

/-! ## Answers -/

/-- the target of a call backwards is before the address just past the call -/
theorem WindowCall.Backward.distance_le {c : WindowCall} (h : c.Backward) (past : UInt32) :
    1 ≤ (past - (past + c.distance)).toNat ∧ (past - (past + c.distance)).toNat ≤ 0x1000000 := by
  have hpast := past.toNat_lt
  have hlt := c.distance.toNat_lt
  unfold WindowCall.Backward at h
  rw [UInt32.toNat_sub, UInt32.toNat_add]
  omega

/-- **The window manager is the one that the code loads for the account window, and its call is never lost.** Let `s` be the
first section of code. With any thresholds and after any requests, the finder of the window manager finds the manager that the
code loads, and as the function the target of the call, which counts from the address of the code, ten bytes on. The direct
form of the code counts, wherever it is, before the one with a copy between registers, and of either form the first code in
the section. The finder fails for want of the text exactly if that is stored nowhere, and for want of code that uses it
exactly if it is stored and `s` has code of neither form; it does not fail otherwise. The instruction that is told along with
the manager is the one in the image, and the function is before the address just past the call, by one to 2^24 bytes. -/
theorem windowManager_exact {image : Image} {s : Section} (hfirst : image.sections.find? (·.executable) = some s)
    (t : Thresholds) {scripts : Nat} (steps : Fin scripts → List (Step (FinderKey scripts)))
    (requests : List (Request (FinderKey scripts))) :
    let S := Survey.standard image t steps
    let answer := (S.load .windowManager (S.afterAll .start requests)).1
    (∀ value, answer = .ok value ↔ ∃ anchor o c v, image.StoredAt "NUMACCOUNT" anchor ∧ Makes image s anchor o.toNat c ∧
      image.toVirtual o = .ok v ∧ value = .windowManager ⟨c.manager, v + 10 + c.distance⟩) ∧
    (∀ failure, answer = .error failure ↔
      image.Absent "NUMACCOUNT" ∧ failure = ⟨"WINMGR", .anchorMissing "'NUMACCOUNT' not found"⟩ ∨
      (∃ anchor, image.StoredAt "NUMACCOUNT" anchor ∧ NotMade image s anchor) ∧
        failure = ⟨"WINMGR", .signatureMissing "'NUMACCOUNT' not used"⟩) ∧
    ∀ anchor o c, Makes image s anchor o c → ∀ v,
      WindowManager.fields ⟨c.manager, v + 10 + c.distance⟩ = [.address "value" (.virt c.manager),
        .address "make_window" (.virt (v + 10 + c.distance)),
        .bytes "mov_ecx" (image.bytes.extract o (o + 5)).toList] ∧
      1 ≤ (v + 10 - (v + 10 + c.distance)).toNat ∧ (v + 10 - (v + 10 + c.distance)).toNat ≤ 0x1000000 := by
  intro S answer
  have hkey : (.windowManager : FinderKey scripts) ∈ FinderKey.builtIn := mem_builtIn nofun
  refine ⟨fun value => ?_, fun failure => ?_, fun anchor o c h v => ?_⟩
  · refine (load_eq_ok_iff .windowManager hkey rfl requests).trans ?_
    constructor
    · rintro ⟨w, hw, rfl⟩
      obtain ⟨anchor, o, c, v, hstored, hmakes, hv, rfl⟩ := (meaning_windowManager_eq_ok_iff hfirst).1 hw
      exact ⟨anchor, o, c, v, hstored, hmakes, hv, rfl⟩
    · rintro ⟨anchor, o, c, v, hstored, hmakes, hv, rfl⟩
      exact ⟨_, (meaning_windowManager_eq_ok_iff hfirst).2 ⟨anchor, o, c, v, hstored, hmakes, hv, rfl⟩, rfl⟩
  · refine (load_eq_error_iff .windowManager hkey rfl requests).trans ?_
    constructor
    · rintro ⟨fault, hfault, rfl⟩
      rcases (meaning_windowManager_eq_error_iff hfirst).1 hfault with ⟨habsent, rfl⟩ | ⟨hnot, rfl⟩
      · exact .inl ⟨habsent, rfl⟩
      · exact .inr ⟨hnot, rfl⟩
    · rintro (⟨habsent, rfl⟩ | ⟨hnot, rfl⟩)
      · exact ⟨_, (meaning_windowManager_eq_error_iff hfirst).2 (.inl ⟨habsent, rfl⟩), rfl⟩
      · exact ⟨_, (meaning_windowManager_eq_error_iff hfirst).2 (.inr ⟨hnot, rfl⟩), rfl⟩
  · obtain ⟨hbackward, -, -, hload, -⟩ := h.bytes
    have hpos : 0 < (encodeMovRegImm .ecx c.manager).length := Nat.succ_pos 4
    have hbytes : (image.bytes.extract o (o + 5)).toList = encodeMovRegImm .ecx c.manager :=
      Segment.extract_of_standsAt hpos hload
    refine ⟨?_, hbackward.distance_le (v + 10)⟩
    rw [WindowManager.fields, hbytes]

/-- code that makes the window with a copy between registers, and behind it code of the direct form, with another manager -/
def windowCode : List UInt8 :=
  WindowCall.head ⟨0x500000, 0xFFFFFFF0⟩ ++ encodeMovRegReg .ebx .eax ++ encodePushImm8 0 ++ encodePushImm32 0x402000 ++
    WindowCall.head ⟨0x600000, 0xFFFFFF00⟩ ++ encodePushImm8 0 ++ encodePushImm32 0x402000

/-- image of that code, with the text behind it -/
def windowImage : Image where
  bytes := ([0, 0, 0, 0] ++ windowCode ++ [0x4E, 0x55, 0x4D, 0x41, 0x43, 0x43, 0x4F, 0x55, 0x4E, 0x54, 0]).toArray
  sections := [.code ".text" 4 40 0x401000, .data ".data" 44 11 0x402000]
  imports := []
  metadata := .unknown
  sound := by decide +kernel

/-- The direct form counts though it stands behind the other one, and its call goes back 256 bytes. -/
theorem windowImage_found :
    let S := Survey.standard windowImage .standard (fun _ : Fin 0 => [])
    windowImage.sections.find? (·.executable) = some (.code ".text" 4 40 0x401000) ∧
      (S.load .windowManager .start).1 = .ok (.windowManager ⟨0x600000, 0x400F1F⟩) ∧
      ∃ o c v, Makes windowImage (.code ".text" 4 40 0x401000) 0x402000 o.toNat c ∧ windowImage.toVirtual o = .ok v ∧
        0x400F1F = v + 10 + c.distance ∧ (v + 10 - (v + 10 + c.distance)).toNat ≤ 0x1000000 := by
  intro S
  have hfirst : windowImage.sections.find? (·.executable) = some (.code ".text" 4 40 0x401000) := rfl
  obtain ⟨hok, -, hmade⟩ := windowManager_exact hfirst .standard (fun _ : Fin 0 => []) []
  have hloads : (S.load .windowManager .start).1 = .ok (.windowManager ⟨0x600000, 0x400F1F⟩) := by decide +kernel
  have hanchor : windowImage.findText (rawText "NUMACCOUNT") .plain = some 0x402000 := by decide +kernel
  have hstored := (Image.findText_plain_eq_some_iff rawText_account_ne_nil).1 hanchor
  obtain ⟨anchor, o, c, v, hstored', hmakes, hv, heq⟩ := (hok _).1 hloads
  obtain rfl : 0x402000 = anchor := hstored.unique rawText_account_ne_nil hstored'
  obtain ⟨-, htarget⟩ := WindowManager.mk.inj (Finding.windowManager.inj heq)
  exact ⟨hfirst, hloads, o, c, v, hmakes, hv, htarget, (hmade _ _ _ hmakes v).2.2⟩

end Landmark.Finder
