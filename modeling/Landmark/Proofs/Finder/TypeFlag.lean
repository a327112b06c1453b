/-
The two flags, told by the bytes of the image.

A `Trail` says what one flag has that the other has not. `Continues` is where the code goes on once the text has been handled:
behind the first PUSH of its address, or else at the call that follows the first copy of it, or behind the first comparison in
parts, as far as the linker allows these. The flag is the operand of the first assignment of 1 from there on.
- `accepts_copyCode`, `accepts_copyCall`, `accepts_americaInParts`, `accepts_sakrayInParts`, `accepts_flagAssignment`: which
  instructions the signatures stand for.
- `continues_iff_of_stored`, `continues_iff_of_absent`: the searches that decide where the code goes on.
- `flag_exact`: what both finders answer, and why they fail.
-/
import Landmark.Proofs.Finder.Alike
import Landmark.Proofs.Image.TextSearch
import Landmark.Proofs.Machine.Encoding
import Landmark.Proofs.Signature.Family

namespace Landmark.Finder

open Instruction Signature Survey

/-! ## Kinds of code -/

section

variable {bs : List UInt8}

/-- PUSH of an address -/
def Pushes (address : UInt32) (bs : List UInt8) : Prop :=
  bs = encodePushImm32 address

/-- MOV r32, [address] and MOV byte [EBP + disp32], 0, the displacement being among the last 65536 ones below zero -/
def Copies (address : UInt32) (bs : List UInt8) : Prop :=
  ∃ r disp, UInt32.size ≤ disp.toNat + 0x10000 ∧ bs = encodeMovRegMem r address ++ encodeMovByteFrame disp 0

/-- PUSH 7, three times PUSH r32, and CALL -/
def CallsWithSeven (bs : List UInt8) : Prop :=
  ∃ r₁ r₂ r₃ distance, bs =
    encodePushImm8 7 ++ encodePushReg r₁ ++ encodePushReg r₂ ++ encodePushReg r₃ ++ encodeCallRel distance

/-- comparison with the word that four letters make and then with the half word of two, each with a jump behind it -/
def ComparesSix (four : UInt32) (two : UInt16) (bs : List UInt8) : Prop :=
  ∃ r₁ r₂ : Register, ∃ d₁ d₂, r₁ ≠ .esp ∧ r₁ ≠ .ebp ∧ r₂ ≠ .esp ∧ bs =
    encodeCmpRegMemImm32 r₁ four ++ encodeJneShort d₁ ++ encodeCmpWordRegDisp8 r₂ 4 two ++ encodeJneShort d₂

/-- and then with the letter a -/
def ComparesSeven (four : UInt32) (two : UInt16) (bs : List UInt8) : Prop :=
  ∃ six, ComparesSix four two six ∧ ∃ r : Register, r ≠ .esp ∧ bs = six ++ encodeCmpByteRegDisp8 r 6 0x61

/-- MOV dword [address], 1 -/
def Assigns (address : UInt32) (bs : List UInt8) : Prop :=
  bs = encodeMovMemImm address 1

theorem accepts_push {address : UInt32} : (pushImm32 (.value address)).Accepts bs ↔ Pushes address bs := by
  rw [accepts_pushImm32]
  simp only [Operand.Allows, exists_eq_left, Pushes]

theorem accepts_copyCode {address : UInt32} : (copyCode address).Accepts bs ↔ Copies address bs := by
  rw [copyCode, accepts_append]
  simp only [accepts_movAnyRegMem, accepts_movByteFrame, Operand.Allows, Operand.freeSpan, exists_eq_left]
  constructor
  · rintro ⟨_, _, rfl, ⟨r, rfl⟩, disp, hdisp, rfl⟩
    exact ⟨r, disp, hdisp, rfl⟩
  · rintro ⟨r, disp, hdisp, rfl⟩
    exact ⟨_, _, rfl, ⟨r, rfl⟩, disp, hdisp, rfl⟩

theorem accepts_copyCall : copyCall.Accepts bs ↔ CallsWithSeven bs := by
  simp only [copyCall, accepts_append, accepts_pushImm8, accepts_pushAnyReg, accepts_callRel, Operand.Allows, true_and]
  constructor
  · rintro ⟨_, _, rfl, ⟨_, _, rfl, ⟨_, _, rfl, ⟨_, _, rfl, rfl, r₁, rfl⟩, r₂, rfl⟩, r₃, rfl⟩, distance, rfl⟩
    exact ⟨r₁, r₂, r₃, distance, rfl⟩
  · rintro ⟨r₁, r₂, r₃, distance, rfl⟩
    exact ⟨_, _, rfl, ⟨_, _, rfl, ⟨_, _, rfl, ⟨_, _, rfl, rfl, r₁, rfl⟩, r₂, rfl⟩, r₃, rfl⟩, distance, rfl⟩

theorem accepts_six (four : UInt32) (two : UInt16) :
    (cmpAnyRegMemImm32 four ++ jneShort ++ cmpWordAnyRegDisp8 4 two ++ jneShort).Accepts bs ↔
      ComparesSix four two bs := by
  simp only [accepts_append, accepts_cmpAnyRegMemImm32, accepts_jneShort, accepts_cmpWordAnyRegDisp8]
  constructor
  · rintro ⟨_, _, rfl, ⟨_, _, rfl, ⟨_, _, rfl, ⟨r₁, hesp, hebp, rfl⟩, d₁, rfl⟩, r₂, hr₂, rfl⟩, d₂, rfl⟩
    exact ⟨r₁, r₂, d₁, d₂, hesp, hebp, hr₂, rfl⟩
  · rintro ⟨r₁, r₂, d₁, d₂, hesp, hebp, hr₂, rfl⟩
    exact ⟨_, _, rfl, ⟨_, _, rfl, ⟨_, _, rfl, ⟨r₁, hesp, hebp, rfl⟩, d₁, rfl⟩, r₂, hr₂, rfl⟩, d₂, rfl⟩

/-- the letters of america, lowest byte first; the last one is compared by itself -/
theorem letters_america : letters4 "amer" = 0x72656D61 ∧ letters2 "ic" = 0x6369 := by
  decide +kernel

/-- the letters of sakray -/
theorem letters_sakray : letters4 "sakr" = 0x726B6173 ∧ letters2 "ay" = 0x7961 := by
  decide +kernel

theorem accepts_americaInParts : americaInParts.Accepts bs ↔ ComparesSeven 0x72656D61 0x6369 bs := by
  rw [americaInParts, letters_america.1, letters_america.2, accepts_append]
  simp only [accepts_six, accepts_cmpByteAnyRegDisp8]
  constructor
  · rintro ⟨six, _, rfl, hsix, r, hr, rfl⟩
    exact ⟨six, hsix, r, hr, rfl⟩
  · rintro ⟨six, hsix, r, hr, rfl⟩
    exact ⟨six, _, rfl, hsix, r, hr, rfl⟩

theorem accepts_sakrayInParts : sakrayInParts.Accepts bs ↔ ComparesSix 0x726B6173 0x7961 bs := by
  rw [sakrayInParts, letters_sakray.1, letters_sakray.2]
  exact accepts_six _ _

theorem accepts_flagAssignment (name : String) : (flagAssignment name).Accepts bs ↔ ∃ v, Assigns v bs := by
  rw [flagAssignment, accepts_movMemImm]
  simp only [Operand.Allows, true_and, exists_eq_left, Assigns]

end

/-! ## Where the code goes on -/

/-- what one flag has that the other has not -/
structure Trail where
  /-- the text that is handled before the flag is set -/
  text : String
  /-- name of the flag -/
  flag : String
  /-- code that compares with the text in parts -/
  compares : List UInt8 → Prop
  /-- the text may be copied -/
  copied : Bool

/-- compared with are the letters amer, ic and a -/
def serviceTrail : Trail := ⟨"america", "g_serviceType", ComparesSeven 0x72656D61 0x6369, true⟩

/-- compared with are the letters sakr and ay -/
def serverTrail : Trail := ⟨"sakray", "g_serverType", ComparesSix 0x726B6173 0x7961, false⟩

/-- where the code goes on once the text has been handled -/
inductive Continues (image : Image) (t : Thresholds) (trail : Trail) : Nat → Prop
  | pushed {anchor : UInt32} {i j : Nat} (hanchor : image.StoredAt trail.text anchor)
      (hpush : image.FirstInCode (Pushes anchor) i j) : Continues image t trail j
  | copied {anchor : UInt32} {c d i j : Nat} (hanchor : image.StoredAt trail.text anchor)
      (hnot : ∀ i j, ¬ image.FirstInCode (Pushes anchor) i j) (htrail : trail.copied = true)
      (hlinker : image.metadata.linker = t.splitCompareLinker) (hcopy : image.FirstInCode (Copies anchor) c d)
      (hcall : image.FirstCode CallsWithSeven (c + 0x40) (c + 0x100) i j) : Continues image t trail i
  | compared {i j : Nat} (habsent : image.Absent trail.text)
      (hlinker : image.metadata.linker = t.splitCompareLinker) (hparts : image.FirstInCode trail.compares i j) :
      Continues image t trail j

section

variable {image : Image} {t : Thresholds} {trail : Trail}

/-- where a text is stored, the code goes on behind the first PUSH of its address, and if there is none it may do so at the
call that follows the first copy -/
theorem continues_iff_of_stored (hsize : image.bytes.size + 0x100 < UInt32.size) (hne : rawText trail.text ≠ [])
    {anchor : UInt32} (hanchor : image.StoredAt trail.text anchor) {i : Nat} : Continues image t trail i ↔
      (∃ m, image.findInCode (pushImm32 (.value anchor)) = some m ∧ (m.stop (pushImm32 (.value anchor))).toNat = i) ∨
      image.findInCode (pushImm32 (.value anchor)) = none ∧ trail.copied = true ∧
        image.metadata.linker = t.splitCompareLinker ∧ ∃ c m, image.findInCode (copyCode anchor) = some c ∧
          image.findSignature copyCall (c.offset + 0x40) (c.offset + 0x100) = some m ∧ m.offset.toNat = i := by
  have hpushes : ∀ i j, image.FirstInCode (Pushes anchor) i j ↔ ∃ m, image.findInCode (pushImm32 (.value anchor)) = some m ∧
      m.offset.toNat = i ∧ (m.stop (pushImm32 (.value anchor))).toNat = j :=
    fun _ _ => Image.firstInCode_iff (fun _ => accepts_push) (Nat.succ_pos 4)
  have hcopies : ∀ i j, image.FirstInCode (Copies anchor) i j ↔ ∃ m, image.findInCode (copyCode anchor) = some m ∧
      m.offset.toNat = i ∧ (m.stop (copyCode anchor)).toNat = j :=
    fun _ _ => Image.firstInCode_iff (fun _ => accepts_copyCode) (Nat.succ_pos 12)
  have hcalls : ∀ {c : Sighting}, image.findInCode (copyCode anchor) = some c → ∀ i j,
      image.FirstCode CallsWithSeven (c.offset.toNat + 0x40) (c.offset.toNat + 0x100) i j ↔
        ∃ m, image.findSignature copyCall (c.offset + 0x40) (c.offset + 0x100) = some m ∧ m.offset.toNat = i ∧
          (m.stop copyCall).toNat = j := by
    intro c hc i j
    obtain ⟨-, ⟨-, hend, -⟩, -⟩ := Image.findSignature_eq_some_iff.1 hc
    have hstart : (c.offset + 0x40).toNat = c.offset.toNat + 0x40 := Word.toNat_add_of_lt (by
      have hshift : (0x40 : UInt32).toNat = 0x40 := rfl
      omega)
    have hstop : (c.offset + 0x100).toNat = c.offset.toNat + 0x100 := Word.toNat_add_of_lt (by
      have hshift : (0x100 : UInt32).toNat = 0x100 := rfl
      omega)
    rw [← hstart, ← hstop]
    exact Image.firstCode_iff (fun _ => accepts_copyCall) (Nat.succ_pos 9)
  constructor
  · intro h
    cases h with
    | pushed hanchor' hpush =>
      obtain rfl := hanchor.unique hne hanchor'
      obtain ⟨m, hm, -, hstop⟩ := (hpushes _ _).1 hpush
      exact .inl ⟨m, hm, hstop⟩
    | copied hanchor' hnot htrail hlinker hcopy hcall =>
      obtain rfl := hanchor.unique hne hanchor'
      obtain ⟨c, hc, rfl, -⟩ := (hcopies _ _).1 hcopy
      obtain ⟨m, hm, hoffset, -⟩ := (hcalls hc _ _).1 hcall
      exact .inr ⟨(Image.findInCode_eq_none_iff (fun _ => accepts_push) (Nat.succ_pos 4)).2 hnot, htrail, hlinker, c, m, hc, hm,
        hoffset⟩
    | compared habsent _ _ => exact absurd habsent hanchor.not_absent
  · rintro (⟨m, hm, rfl⟩ | ⟨hnone, htrail, hlinker, c, m, hc, hm, rfl⟩)
    · exact .pushed hanchor ((hpushes _ _).2 ⟨m, hm, rfl, rfl⟩)
    · exact .copied hanchor ((Image.findInCode_eq_none_iff (fun _ => accepts_push) (Nat.succ_pos 4)).1 hnone) htrail hlinker
        ((hcopies _ _).2 ⟨c, hc, rfl, rfl⟩) ((hcalls hc _ _).2 ⟨m, hm, rfl, rfl⟩)

/-- where no text is stored, it goes on behind the first comparison in parts, if there may be one -/
theorem continues_iff_of_absent {sig : Signature} (h : ∀ bs, sig.Accepts bs ↔ trail.compares bs) (hpos : 0 < sig.size)
    (habsent : image.Absent trail.text) {i : Nat} : Continues image t trail i ↔
      image.metadata.linker = t.splitCompareLinker ∧ ∃ m, image.findInCode sig = some m ∧ (m.stop sig).toNat = i := by
  constructor
  · intro hcontinues
    cases hcontinues with
    | pushed hanchor _ => exact absurd habsent hanchor.not_absent
    | copied hanchor _ _ _ _ _ => exact absurd habsent hanchor.not_absent
    | compared _ hlinker hparts =>
      obtain ⟨m, hm, -, hstop⟩ := (Image.firstInCode_iff h hpos).1 hparts
      exact ⟨hlinker, m, hm, hstop⟩
  · rintro ⟨hlinker, m, hm, rfl⟩
    exact .compared habsent hlinker ((Image.firstInCode_iff h hpos).2 ⟨m, hm, rfl, rfl⟩)

end

/-! ## What the plans find -/

namespace Trail

/-- the text is stored nowhere, nor compared with where that is looked for -/
def notFound (trail : Trail) (inParts : Bool) : Fault :=
  .anchorMissing ("'" ++ trail.text ++ "' not found" ++ if inParts then " in parts" else "")

/-- no code handles the text -/
def notUsed (trail : Trail) : Fault :=
  .signatureMissing ("'" ++ trail.text ++ "' not used")

def notAssigned (trail : Trail) : Fault :=
  .postconditionMissing (trail.flag ++ " not assigned")

end Trail

/-- this is where the code goes on, or why it does so nowhere -/
inductive Leads (image : Image) (t : Thresholds) (trail : Trail) : Except Fault UInt32 → Prop
  | on {start : UInt32} (h : ∀ i, Continues image t trail i ↔ start.toNat = i) : Leads image t trail (.ok start)
  | notFound (hnot : ∀ i, ¬ Continues image t trail i) (habsent : image.Absent trail.text) :
      Leads image t trail (.error (trail.notFound (image.metadata.linker == t.splitCompareLinker)))
  | notUsed (hnot : ∀ i, ¬ Continues image t trail i) (hstored : ¬ image.Absent trail.text) :
      Leads image t trail (.error trail.notUsed)

section

variable {κ : Type} {S : Survey κ} {answer : κ → Except Failure Finding} {trail : Trail}

theorem splitsComparisons_clientFacts (S : Survey κ) :
    S.clientFacts.splitsComparisons = (S.image.metadata.linker == S.thresholds.splitCompareLinker) := by
  rfl

theorem meaning_pastSignature (sig : Signature) (missing : Fault) : S.meaning answer (pastSignature S.image sig missing) =
    match S.image.findInCode sig with
    | some m => .ok (m.stop sig)
    | none => .error missing := by
  change S.meaning answer (Plan.require missing (S.image.findInCode sig) >>= fun m => pure (m.stop sig)) = _
  cases S.image.findInCode sig <;> rfl

/-- the part for a text that is stored nowhere -/
theorem leads_withoutText {sig : Signature} (h : ∀ bs, sig.Accepts bs ↔ trail.compares bs) (hpos : 0 < sig.size)
    (habsent : S.image.Absent trail.text) : Leads S.image S.thresholds trail (S.meaning answer (do
      let facts ← Plan.theFacts
      if facts.splitsComparisons then pastSignature S.image sig (trail.notFound true)
      else .fail (trail.notFound false))) := by
  have hcontinues := fun i => continues_iff_of_absent (t := S.thresholds) h hpos habsent (i := i)
  rw [meaning_theFacts_bind, splitsComparisons_clientFacts]
  by_cases hlinker : S.image.metadata.linker = S.thresholds.splitCompareLinker
  · rw [if_pos (beq_iff_eq.2 hlinker), meaning_pastSignature, ← beq_iff_eq.2 hlinker]
    cases hm : S.image.findInCode sig with
    | some m =>
      refine .on fun i => ?_
      simp only [hcontinues, hm, Option.some.injEq, exists_eq_left', and_iff_right hlinker]
    | none =>
      refine .notFound (fun i hi => ?_) habsent
      obtain ⟨-, m, hm', -⟩ := (hcontinues i).1 hi
      rw [hm] at hm'
      contradiction
  · rw [if_neg fun hbeq => hlinker (beq_iff_eq.1 hbeq), ← beq_eq_false_iff_ne.2 hlinker]
    exact .notFound (fun i hi => hlinker ((hcontinues i).1 hi).1) habsent

/-- the part for a text that is pushed, or else not handled -/
theorem leads_pushed (hsize : S.image.bytes.size + 0x100 < UInt32.size) (hne : rawText trail.text ≠ [])
    (htrail : trail.copied = false) {anchor : UInt32} (hanchor : S.image.StoredAt trail.text anchor) :
    Leads S.image S.thresholds trail
      (S.meaning answer (pastSignature S.image (pushImm32 (.value anchor)) trail.notUsed)) := by
  have hcontinues := fun i => continues_iff_of_stored (t := S.thresholds) hsize hne hanchor (i := i)
  rw [meaning_pastSignature]
  cases hm : S.image.findInCode (pushImm32 (.value anchor)) with
  | some m =>
    refine .on fun i => ?_
    simp [hcontinues, hm]
  | none =>
    refine .notUsed (fun i hi => ?_) hanchor.not_absent
    rcases (hcontinues i).1 hi with ⟨m, hm', -⟩ | ⟨-, hcopied, -⟩
    · rw [hm] at hm'
      contradiction
    · rw [htrail] at hcopied
      contradiction

theorem meaning_afterCopy (anchor : UInt32) : S.meaning answer (afterCopy S.image anchor) =
    match S.image.findInCode (copyCode anchor) with
    | some c => Twin.copyResult (S.image.findSignature copyCall (c.offset + 0x40) (c.offset + 0x100))
    | none => .error americaNotUsed := by
  change S.meaning answer (Plan.require americaNotUsed (S.image.findInCode (copyCode anchor)) >>= fun copied => do
    let call ← Plan.require americaNotUsed
      (← Plan.signatureIn copyCall (copied.offset + 0x40) (copied.offset + 0x100))
    return call.offset) = _
  cases S.image.findInCode (copyCode anchor) with
  | some c => exact Twin.meaning_copyCall _ _
  | none => rfl

theorem meaning_afterAmerica (anchor : UInt32) : S.meaning answer (afterAmerica S.image anchor) =
    match S.image.findInCode (pushImm32 (.value anchor)) with
    | some m => .ok (m.stop (pushImm32 (.value anchor)))
    | none =>
      if S.clientFacts.splitsComparisons then S.meaning answer (afterCopy S.image anchor) else .error americaNotUsed := by
  have hsearch : S.meaning answer (Plan.signature S.image (pushImm32 (.value anchor))) =
      .ok (S.image.findInCode (pushImm32 (.value anchor))) := rfl
  rw [afterAmerica, meaning_bind, hsearch]
  cases S.image.findInCode (pushImm32 (.value anchor)) with
  | some m => rfl
  | none =>
    simp only [Except.bind]
    rw [meaning_theFacts_bind]
    cases S.clientFacts.splitsComparisons <;> rfl

/-- the part for america where it is stored: pushed, or else copied in builds that may do so -/
theorem leads_afterAmerica (hsize : S.image.bytes.size + 0x100 < UInt32.size) {anchor : UInt32}
    (hanchor : S.image.StoredAt "america" anchor) :
    Leads S.image S.thresholds serviceTrail (S.meaning answer (afterAmerica S.image anchor)) := by
  have hne : rawText serviceTrail.text ≠ [] := by decide +kernel
  have hcopied : serviceTrail.copied = true := rfl
  have hcontinues : ∀ i, Continues S.image S.thresholds serviceTrail i ↔ _ :=
    fun i => continues_iff_of_stored hsize hne hanchor
  have hunused : americaNotUsed = serviceTrail.notUsed := by decide +kernel
  rw [meaning_afterAmerica, splitsComparisons_clientFacts, hunused]
  cases hpush : S.image.findInCode (pushImm32 (.value anchor)) with
  | some m =>
    refine .on fun i => ?_
    simp [hcontinues, hpush]
  | none =>
    by_cases hlinker : S.image.metadata.linker = S.thresholds.splitCompareLinker
    · simp only [hlinker, BEq.rfl, if_true, meaning_afterCopy, hunused]
      cases hcopy : S.image.findInCode (copyCode anchor) with
      | none =>
        refine .notUsed (fun i hi => ?_) hanchor.not_absent
        simp [hcontinues, hpush, hcopy] at hi
      | some c =>
        simp only
        cases hcall : S.image.findSignature copyCall (c.offset + 0x40) (c.offset + 0x100) with
        | none =>
          rw [Twin.copyResult, hunused]
          refine .notUsed (fun i hi => ?_) hanchor.not_absent
          simp [hcontinues, hpush, hcopy, hcall] at hi
        | some m =>
          refine .on fun i => ?_
          simp [hcontinues, hpush, hcopy, hcall, hlinker, hcopied]
    · simp only [beq_eq_false_iff_ne.2 hlinker, Bool.false_eq_true, if_false]
      refine .notUsed (fun i hi => ?_) hanchor.not_absent
      simp [hcontinues, hpush, hlinker] at hi

end

/-! ## The assignment -/

/-- from `start` on, the first assignment of 1 in the code is one to `v` -/
def SetsFirst (image : Image) (start : Nat) (v : UInt32) : Prop :=
  ∃ i j, image.FirstCode (fun bs => ∃ w, Assigns w bs) start image.codeRange.2.toNat i j ∧ image.CodeAt (Assigns v) i j

/-- the flag of the first assignment, if there is one -/
def firstFlag? (image : Image) (start : UInt32) (name : String) : Option UInt32 :=
  (image.findSignature (flagAssignment name) start image.codeRange.2).bind (·.capture? name)

theorem reads_flagAssignment (name : String) : (flagAssignment name).Reads name Assigns id where
  size_pos := Nat.succ_pos 9
  accepts_iff _ := accepts_flagAssignment name
  captured := by
    have hsegments : (flagAssignment name).segments =
        [.literal [0xC7, 0x05], .capture name .dword none, .literal [1, 0, 0, 0]] := rfl
    refine ⟨⟨2, name, .dword, none⟩, ?_, rfl, ?_⟩
    · rw [captures, hsegments]
      exact List.find?_cons_of_pos (beq_self_eq_true name)
    · rintro v bs rfl
      exact ⟨[0xC7, 0x05], Word.bytes 1, rfl, rfl⟩

theorem firstFlag?_eq_some_iff {image : Image} {start v : UInt32} {name : String} :
    firstFlag? image start name = some v ↔ SetsFirst image start.toNat v := by
  rw [firstFlag?, Option.bind_eq_some_iff]
  constructor
  · rintro ⟨m, hm, hv⟩
    obtain ⟨hfirst, hcode⟩ := (reads_flagAssignment name).firstMember_iff.2 ⟨m, hm, rfl, rfl, hv⟩
    exact ⟨_, _, hfirst, hcode⟩
  · rintro ⟨i, j, hfirst, hcode⟩
    obtain ⟨m, hm, -, -, hv⟩ := (reads_flagAssignment name).exists_sighting ⟨hfirst, hcode⟩
    exact ⟨m, hm, hv⟩

/-! ## Answers -/

/-- what is found is what the bytes of the image call for -/
structure Exact (image : Image) (t : Thresholds) (trail : Trail) (r : Except Fault GlobalVariable) : Prop where
  ok_iff : ∀ g, r = .ok g ↔
    ∃ start v, Continues image t trail start ∧ SetsFirst image start v ∧ g = ⟨trail.flag, v⟩
  error_iff : ∀ fault, r = .error fault ↔
    image.Absent trail.text ∧ (∀ start, ¬ Continues image t trail start) ∧
      fault = trail.notFound (image.metadata.linker == t.splitCompareLinker) ∨
    ¬ image.Absent trail.text ∧ (∀ start, ¬ Continues image t trail start) ∧ fault = trail.notUsed ∨
    (∃ start, Continues image t trail start ∧ ∀ v, ¬ SetsFirst image start v) ∧ fault = trail.notAssigned

section

variable {κ : Type} {S : Survey κ} {answer : κ → Except Failure Finding} {trail : Trail}

theorem meaning_assignedFlag (start : UInt32) (name : String) : S.meaning answer (assignedFlag S.image start name) =
    match firstFlag? S.image start name with
    | some v => .ok ⟨name, v⟩
    | none => .error (.postconditionMissing (name ++ " not assigned")) := by
  change S.meaning answer (Plan.require (.postconditionMissing (name ++ " not assigned")) (firstFlag? S.image start name) >>=
    fun address => pure (GlobalVariable.mk name address)) = _
  cases firstFlag? S.image start name <;> rfl

/-- a plan that leads where the code goes on is exact together with the search for the assignment -/
theorem exact_of_leads {plan : Plan κ UInt32} (h : Leads S.image S.thresholds trail (S.meaning answer plan)) :
    Exact S.image S.thresholds trail
      (S.meaning answer (plan >>= fun start => assignedFlag S.image start trail.flag)) := by
  rw [meaning_bind]
  generalize S.meaning answer plan = r at h
  cases h with
  | @on start hcontinues =>
    have hsets : ∀ v, SetsFirst S.image start.toNat v ↔ firstFlag? S.image start trail.flag = some v :=
      fun v => firstFlag?_eq_some_iff.symm
    have hsome : ¬ ∀ i, ¬ Continues S.image S.thresholds trail i := fun hnot => hnot _ ((hcontinues _).2 rfl)
    rw [Except.bind, meaning_assignedFlag]
    refine ⟨fun g => ?_, fun fault => ?_⟩
    · simp only [hcontinues, exists_and_left, exists_eq_left', hsets]
      cases firstFlag? S.image start trail.flag with
      | some v => simp [eq_comm]
      | none => simp
    · simp only [hsome, false_and, and_false, false_or]
      simp only [hcontinues, exists_eq_left', hsets]
      cases firstFlag? S.image start trail.flag with
      | some v => simp
      | none => simp [eq_comm, Trail.notAssigned]
  | notFound hnot habsent =>
    refine ⟨fun g => ?_, fun fault => ?_⟩
    · simp [Except.bind, hnot]
    · simp [Except.bind, hnot, habsent, eq_comm]
  | notUsed hnot hstored =>
    refine ⟨fun g => ?_, fun fault => ?_⟩
    · simp [Except.bind, hnot]
    · simp [Except.bind, hnot, hstored, eq_comm]

/-- a finder is exact if both of its parts lead where the code goes on -/
theorem exact_of_parts (hne : rawText trail.text ≠ []) {whenStored : UInt32 → Plan κ UInt32} {whenAbsent : Plan κ UInt32}
    (hstored : ∀ anchor, S.image.StoredAt trail.text anchor →
      Leads S.image S.thresholds trail (S.meaning answer (whenStored anchor)))
    (habsent : S.image.Absent trail.text → Leads S.image S.thresholds trail (S.meaning answer whenAbsent)) :
    Exact S.image S.thresholds trail (S.meaning answer (do
      let start ← match ← Plan.text (rawText trail.text) .plain with
        | some anchor => whenStored anchor
        | none => whenAbsent
      assignedFlag S.image start trail.flag)) := by
  have hsearch : S.meaning answer (Plan.text (rawText trail.text) .plain) =
      .ok (S.image.findText (rawText trail.text) .plain) := rfl
  rw [meaning_bind, hsearch, Except.bind]
  cases htext : S.image.findText (rawText trail.text) .plain with
  | some anchor => exact exact_of_leads (hstored anchor ((Image.findText_plain_eq_some_iff hne).1 htext))
  | none => exact exact_of_leads (habsent ((Image.findText_plain_eq_none_iff hne).1 htext))

theorem exact_serviceType (hsize : S.image.bytes.size + 0x100 < UInt32.size) :
    Exact S.image S.thresholds serviceTrail (S.meaning answer (serviceType S.image)) := by
  have hparts : Fault.anchorMissing "'america' not found in parts" = serviceTrail.notFound true := by decide +kernel
  have hwhole : Fault.anchorMissing "'america' not found" = serviceTrail.notFound false := by decide +kernel
  refine exact_of_parts (by decide +kernel) (fun _ hanchor => leads_afterAmerica hsize hanchor) fun habsent => ?_
  rw [withoutAmerica, hparts, hwhole]
  exact leads_withoutText (fun _ => accepts_americaInParts) (by decide +kernel) habsent

theorem exact_serverType (hsize : S.image.bytes.size + 0x100 < UInt32.size) :
    Exact S.image S.thresholds serverTrail (S.meaning answer (serverType S.image)) := by
  have hne : rawText serverTrail.text ≠ [] := by decide +kernel
  have hunused : Fault.signatureMissing "'sakray' not used" = serverTrail.notUsed := by decide +kernel
  have hparts : Fault.anchorMissing "'sakray' not found in parts" = serverTrail.notFound true := by decide +kernel
  have hwhole : Fault.anchorMissing "'sakray' not found" = serverTrail.notFound false := by decide +kernel
  rw [serverType, hunused]
  refine exact_of_parts hne (fun _ hanchor => leads_pushed hsize hne rfl hanchor) fun habsent => ?_
  rw [withoutSakray, hparts, hwhole]
  exact leads_withoutText (fun _ => accepts_sakrayInParts) (by decide +kernel) habsent

end

/-- the finders of flags, and what tells them apart -/
def flagFinders (scripts : Nat) : List (FinderKey scripts × Trail) :=
  [(.serviceType, serviceTrail), (.serverType, serverTrail)]

/-- **The flag is the operand of the right assignment.** In an image not quite as large as a file can be, a finder of a flag
finds `v`, with any thresholds and after any requests, exactly if there is a place where the code goes on once the text has
been handled and the first assignment of 1 from there on, in the code, is one to `v`. It fails for want of the text exactly if
that is stored nowhere and there is no such place, for want of code that handles it if it is stored and there is no such
place, and for want of an assignment if there is no assignment from such a place on. -/
theorem flag_exact {image : Image} (hsize : image.bytes.size + 0x100 < UInt32.size) (t : Thresholds) {scripts : Nat}
    (steps : Fin scripts → List (Step (FinderKey scripts))) (requests : List (Request (FinderKey scripts)))
    {key : FinderKey scripts} {trail : Trail} (hkey : (key, trail) ∈ flagFinders scripts) :
    let S := Survey.standard image t steps
    let answer := (S.load key (S.afterAll .start requests)).1
    (∀ value, answer = .ok value ↔
      ∃ start v, Continues image t trail start ∧ SetsFirst image start v ∧ value = .global ⟨trail.flag, v⟩) ∧
    ∀ failure, answer = .error failure ↔
      image.Absent trail.text ∧ (∀ start, ¬ Continues image t trail start) ∧
        failure = ⟨key.name, trail.notFound (image.metadata.linker == t.splitCompareLinker)⟩ ∨
      ¬ image.Absent trail.text ∧ (∀ start, ¬ Continues image t trail start) ∧ failure = ⟨key.name, trail.notUsed⟩ ∨
      (∃ start, Continues image t trail start ∧ ∀ v, ¬ SetsFirst image start v) ∧
        failure = ⟨key.name, trail.notAssigned⟩ := by
  intro S answer
  have hload : ∀ {plan : Plan (FinderKey scripts) GlobalVariable}, key ∈ FinderKey.builtIn →
      FinderKey.plan image steps key = plan >>= (fun g => pure (.global g)) →
      answer = ((S.meaning noAnswer plan).map .global).mapError (Failure.mk key.name) := by
    intro plan hkey hplan
    have hcame : answer = S.conclude key (S.meaning noAnswer (FinderKey.plan image steps key)) :=
      load_builtIn noAnswer hkey requests
    rw [hcame, hplan, meaning_bind]
    cases S.meaning noAnswer plan <;> rfl
  have hexact : ∃ r : Except Fault GlobalVariable, Exact image t trail r ∧
      answer = (r.map .global).mapError (Failure.mk key.name) := by
    rcases List.mem_pair.1 hkey with heq | heq
    · obtain ⟨rfl, rfl⟩ := Prod.mk.inj heq
      exact ⟨_, exact_serviceType (S := S) hsize, hload (mem_builtIn nofun) rfl⟩
    · obtain ⟨rfl, rfl⟩ := Prod.mk.inj heq
      exact ⟨_, exact_serverType (S := S) hsize, hload (mem_builtIn nofun) rfl⟩
  obtain ⟨r, hr, hanswer⟩ := hexact
  refine ⟨fun value => ?_, fun failure => ?_⟩
  · have hok : answer = .ok value ↔ ∃ g, r = .ok g ∧ value = .global g := by
      rw [hanswer]
      cases r <;> simp [Except.map, Except.mapError, eq_comm]
    simp only [hok, hr.ok_iff]
    constructor
    · rintro ⟨_, ⟨start, v, hstart, hv, rfl⟩, rfl⟩
      exact ⟨start, v, hstart, hv, rfl⟩
    · rintro ⟨start, v, hstart, hv, rfl⟩
      exact ⟨_, ⟨start, v, hstart, hv, rfl⟩, rfl⟩
  · have herror : answer = .error failure ↔ ∃ fault, r = .error fault ∧ failure = ⟨key.name, fault⟩ := by
      rw [hanswer]
      cases r <;> simp [Except.map, Except.mapError, eq_comm]
    simp only [herror, hr.error_iff]
    constructor
    · rintro ⟨_, ⟨habsent, hnot, rfl⟩ | ⟨hstored, hnot, rfl⟩ | ⟨hstart, rfl⟩, rfl⟩
      · exact .inl ⟨habsent, hnot, rfl⟩
      · exact .inr (.inl ⟨hstored, hnot, rfl⟩)
      · exact .inr (.inr ⟨hstart, rfl⟩)
    · rintro (⟨habsent, hnot, rfl⟩ | ⟨hstored, hnot, rfl⟩ | ⟨hstart, rfl⟩)
      · exact ⟨_, .inl ⟨habsent, hnot, rfl⟩, rfl⟩
      · exact ⟨_, .inr (.inl ⟨hstored, hnot, rfl⟩), rfl⟩
      · exact ⟨_, .inr (.inr ⟨hstart, rfl⟩), rfl⟩

/-- code that copies america and then calls, and that compares with sakray in parts, with an assignment behind each and one
between the copy and the call -/
def splitCode : List UInt8 :=
  encodeMovRegMem .eax 0x402000 ++ encodeMovByteFrame 0xFFFFFFF0 0 ++ encodeMovMemImm 0x403000 1 ++ .replicate 41 0 ++
    encodePushImm8 7 ++ encodePushReg .eax ++ encodePushReg .ecx ++ encodePushReg .edx ++ encodeCallRel 0 ++
    encodeMovMemImm 0x403004 1 ++
    encodeCmpRegMemImm32 .ecx 0x726B6173 ++ encodeJneShort 8 ++ encodeCmpWordRegDisp8 .ecx 4 0x7961 ++ encodeJneShort 0 ++
    encodeMovMemImm 0x403008 1

/-- image of that code, with the text america behind it -/
def splitImage : Image where
  bytes := ([0, 0, 0, 0] ++ splitCode ++ [0x61, 0x6D, 0x65, 0x72, 0x69, 0x63, 0x61, 0]).toArray
  sections := [.code ".text" 4 110 0x401000, .data ".data" 114 8 0x402000]
  imports := []
  metadata := { Metadata.unknown with linker := ⟨14, 29⟩ }
  sound := by decide +kernel

/-- neither flag is the operand of the first assignment in the code -/
theorem splitImage_flags :
    let t := Thresholds.standard
    let S := Survey.standard splitImage t (fun _ : Fin 0 => [])
    ((S.load .serviceType .start).1 = .ok (.global ⟨"g_serviceType", 0x403004⟩) ∧
      ∃ start, Continues splitImage t serviceTrail start ∧ SetsFirst splitImage start 0x403004) ∧
    (S.load .serverType .start).1 = .ok (.global ⟨"g_serverType", 0x403008⟩) ∧
      ∃ start, Continues splitImage t serverTrail start ∧ SetsFirst splitImage start 0x403008 := by
  intro t S
  have hsize : splitImage.bytes.size + 0x100 < UInt32.size := by decide +kernel
  obtain ⟨hservice, -⟩ := flag_exact hsize t (fun _ : Fin 0 => []) [] (.head _)
  obtain ⟨hserver, -⟩ := flag_exact hsize t (fun _ : Fin 0 => []) [] (.tail _ (.head _))
  have hloads : (S.load .serviceType .start).1 = .ok (.global ⟨"g_serviceType", 0x403004⟩) := by decide +kernel
  have hloads' : (S.load .serverType .start).1 = .ok (.global ⟨"g_serverType", 0x403008⟩) := by decide +kernel
  obtain ⟨start, v, hstart, hv, heq⟩ := (hservice _).1 hloads
  obtain ⟨start', v', hstart', hv', heq'⟩ := (hserver _).1 hloads'
  cases heq
  cases heq'
  exact ⟨⟨hloads, start, hstart, hv⟩, hloads', start', hstart', hv'⟩

end Landmark.Finder
