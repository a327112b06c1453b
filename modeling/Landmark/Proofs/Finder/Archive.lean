/-
The data archive, told by the bytes of the image.

`Handles` is code that handles the name of the archive: of three forms the first one that the code has anywhere, and of that
form the first code. It says where the code is that handles the name, where the instruction is that loads the manager, and
what is loaded.
- `reads_newArchiveCode`, `reads_pushThenLoad`, `reads_loadThenPush`: which instructions the signatures stand for.
- `meaning_archiveCode`, `handledAt?_eq_some_iff`, `handledAt?_eq_none_iff`: the searches in order, and what they find.
- `archive_exact`: what the finder answers, and why it fails.
-/
import Landmark.Proofs.Finder.Alike
import Landmark.Proofs.Image.TextSearch
import Landmark.Proofs.Machine.Encoding
import Landmark.Proofs.Signature.Family

namespace Landmark.Finder

open Instruction Signature Survey

/-! ## Kinds of code -/

/-- MOV ECX, manager; TEST EAX, EAX; SETNE byte [disp32]; PUSH of the name -/
def TestsThenPushes (address manager : UInt32) (bs : List UInt8) : Prop :=
  ∃ flag, bs = encodeMovRegImm .ecx manager ++ encodeTestRegReg .eax .eax ++ encodeSetneMem flag ++ encodePushImm32 address

/-- PUSH of the name; MOV ECX, manager -/
def PushesThenLoads (address manager : UInt32) (bs : List UInt8) : Prop :=
  bs = encodePushImm32 address ++ encodeMovRegImm .ecx manager

/-- MOV ECX, manager; PUSH of the name -/
def LoadsThenPushes (address manager : UInt32) (bs : List UInt8) : Prop :=
  bs = encodeMovRegImm .ecx manager ++ encodePushImm32 address

section

variable (address : UInt32) {bs : List UInt8}

theorem accepts_loadFileManager : loadFileManager.Accepts bs ↔ ∃ g, bs = encodeMovRegImm .ecx g := by
  simp only [loadFileManager, accepts_movRegImm, Operand.Allows, true_and]

theorem accepts_pushName : (pushName address).Accepts bs ↔ bs = encodePushImm32 address := by
  simp only [pushName, accepts_pushImm32, Operand.Allows, exists_eq_left]

theorem reads_newArchiveCode : (newArchiveCode address).Reads fileManager (TestsThenPushes address) id where
  size_pos := Nat.succ_pos 18
  accepts_iff bs := by
    simp only [newArchiveCode, accepts_append, accepts_loadFileManager, accepts_testRegReg, accepts_setneMem, accepts_pushName,
      Operand.Allows, true_and, TestsThenPushes]
    constructor
    · rintro ⟨_, _, rfl, ⟨_, _, rfl, ⟨_, _, rfl, ⟨g, rfl⟩, rfl⟩, flag, rfl⟩, rfl⟩
      exact ⟨g, flag, rfl⟩
    · rintro ⟨g, flag, rfl⟩
      exact ⟨_, _, rfl, ⟨_, _, rfl, ⟨_, _, rfl, ⟨g, rfl⟩, rfl⟩, flag, rfl⟩, rfl⟩
  captured := by
    refine ⟨⟨1, fileManager, .dword, none⟩, by rfl, rfl, ?_⟩
    rintro g bs ⟨flag, rfl⟩
    exact ⟨[0xB9], encodeTestRegReg .eax .eax ++ encodeSetneMem flag ++ encodePushImm32 address, rfl, rfl⟩

theorem reads_pushThenLoad : (pushName address ++ loadFileManager).Reads fileManager (PushesThenLoads address) id where
  size_pos := Nat.succ_pos 9
  accepts_iff bs := by
    simp only [accepts_append, accepts_loadFileManager, accepts_pushName, PushesThenLoads]
    constructor
    · rintro ⟨_, _, rfl, rfl, g, rfl⟩
      exact ⟨g, rfl⟩
    · rintro ⟨g, rfl⟩
      exact ⟨_, _, rfl, rfl, g, rfl⟩
  captured := by
    refine ⟨⟨6, fileManager, .dword, none⟩, by rfl, rfl, ?_⟩
    rintro g bs rfl
    exact ⟨encodePushImm32 address ++ [0xB9], [], rfl, rfl⟩

theorem reads_loadThenPush : (loadFileManager ++ pushName address).Reads fileManager (LoadsThenPushes address) id where
  size_pos := Nat.succ_pos 9
  accepts_iff bs := by
    simp only [accepts_append, accepts_loadFileManager, accepts_pushName, LoadsThenPushes]
    constructor
    · rintro ⟨_, _, rfl, ⟨g, rfl⟩, rfl⟩
      exact ⟨g, rfl⟩
    · rintro ⟨g, rfl⟩
      exact ⟨_, _, rfl, ⟨g, rfl⟩, rfl⟩
  captured := by
    refine ⟨⟨1, fileManager, .dword, none⟩, by rfl, rfl, ?_⟩
    rintro g bs rfl
    exact ⟨[0xB9], encodePushImm32 address, rfl, rfl⟩

end

/-! ## Where the name is handled -/

/-- code that handles the name stored at `address`: its offset, that of the instruction in it that loads the manager, and the
manager -/
inductive Handles (image : Image) (t : Thresholds) (address : UInt32) : Nat → Nat → UInt32 → Prop
  | tested {manager : UInt32} {i : Nat} (hlinker : t.vc14Major ≤ image.metadata.linker.major)
      (h : image.FirstMemberInCode (TestsThenPushes address) manager i) : Handles image t address (i + 14) i manager
  | pushed {manager : UInt32} {i : Nat}
      (hnot : t.vc14Major ≤ image.metadata.linker.major → image.LacksInCode (TestsThenPushes address))
      (h : image.FirstMemberInCode (PushesThenLoads address) manager i) : Handles image t address i (i + 5) manager
  | loaded {manager : UInt32} {i : Nat}
      (hnot : t.vc14Major ≤ image.metadata.linker.major → image.LacksInCode (TestsThenPushes address))
      (hnot' : image.LacksInCode (PushesThenLoads address))
      (h : image.FirstMemberInCode (LoadsThenPushes address) manager i) : Handles image t address i i manager

/-- no code handles the name -/
def NotHandled (image : Image) (t : Thresholds) (address : UInt32) : Prop :=
  (t.vc14Major ≤ image.metadata.linker.major → image.LacksInCode (TestsThenPushes address)) ∧
    image.LacksInCode (PushesThenLoads address) ∧ image.LacksInCode (LoadsThenPushes address)

/-- the manager is what the instruction loads -/
theorem Handles.loads {image : Image} {t : Thresholds} {address : UInt32} {reference load : Nat} {manager : UInt32}
    (h : Handles image t address reference load manager) :
    encodeMovRegImm .ecx manager = (image.bytes.extract load (load + 5)).toList := by
  have hpos : ∀ {g}, 0 < (encodeMovRegImm .ecx g).length := Nat.succ_pos 4
  cases h with
  | tested _ h =>
    obtain ⟨_, -, _, ⟨flag, rfl⟩, -, hstands⟩ := h
    rw [Segment.standsAt_append, Segment.standsAt_append, Segment.standsAt_append] at hstands
    exact (Segment.extract_of_standsAt hpos hstands.1.1.1).symm
  | pushed _ h =>
    obtain ⟨_, -, _, rfl, -, hstands⟩ := h
    rw [Segment.standsAt_append] at hstands
    exact (Segment.extract_of_standsAt hpos hstands.2).symm
  | loaded _ _ h =>
    obtain ⟨_, -, _, rfl, -, hstands⟩ := h
    rw [Segment.standsAt_append] at hstands
    exact (Segment.extract_of_standsAt hpos hstands.1).symm

/-! ## What the plan finds -/

/-- where a form is first, and the manager it loads -/
def formAt? (image : Image) (sig : Signature) (place : Sighting → UInt32) : Option (UInt32 × UInt32) :=
  (image.findInCode sig).bind fun m => (m.capture? fileManager).map fun g => (place m, g)

section

variable {image : Image} {sig : Signature} {kind : UInt32 → List UInt8 → Prop} {place : Sighting → UInt32}

theorem formAt?_eq_none_iff (h : sig.Reads fileManager kind id) : formAt? image sig place = none ↔ image.LacksInCode kind := by
  rw [← h.findInCode_eq_none_iff, formAt?]
  cases hm : image.findInCode sig with
  | none => exact iff_of_true rfl rfl
  | some m =>
    obtain ⟨g, hmember⟩ := h.exists_firstMember hm
    rw [Option.bind_some, h.capture?_of_codeAt hm hmember.code]
    exact iff_of_false nofun nofun

theorem formAt?_eq_some_iff (h : sig.Reads fileManager kind id) {f : Nat → Nat}
    (hplace : ∀ m, image.findInCode sig = some m → (place m).toNat = f m.offset.toNat) {p g : UInt32} :
    formAt? image sig place = some (p, g) ↔ ∃ i, image.FirstMemberInCode kind g i ∧ f i = p.toNat := by
  simp only [formAt?, Option.bind_eq_some_iff, Option.map_eq_some_iff, Prod.mk.injEq, h.firstMemberInCode_iff]
  constructor
  · rintro ⟨m, hm, g, hg, rfl, rfl⟩
    exact ⟨_, ⟨m, hm, rfl, hg⟩, (hplace m hm).symm⟩
  · rintro ⟨_, ⟨m, hm, rfl, hg⟩, hp⟩
    exact ⟨m, hm, g, hg, UInt32.toNat_inj.1 ((hplace m hm).trans hp), rfl⟩

end

/-- where the PUSH of the form with the test is first, if that form may be used -/
def testedAt? (image : Image) (isVc14 : Bool) (address : UInt32) : Option (UInt32 × UInt32) :=
  if isVc14 then
    formAt? image (newArchiveCode address) fun m => m.stop (newArchiveCode address) - UInt32.ofNat (pushName address).size
  else none

/-- the forms in order -/
def handledAt? (image : Image) (isVc14 : Bool) (address : UInt32) : Option (UInt32 × UInt32) :=
  (testedAt? image isVc14 address).or
    ((formAt? image (pushName address ++ loadFileManager) (·.offset)).or
      (formAt? image (loadFileManager ++ pushName address) (·.offset)))

/-- the PUSH ends the form with the test -/
theorem toNat_stop_sub_push {image : Image} {address : UInt32} {m : Sighting}
    (hm : image.findInCode (newArchiveCode address) = some m) :
    (m.stop (newArchiveCode address) - UInt32.ofNat (pushName address).size).toNat = m.offset.toNat + 14 := by
  obtain ⟨-, ⟨-, hend, -⟩, -⟩ := Image.findSignature_eq_some_iff.1 hm
  have hsize : (newArchiveCode address).size = 19 := rfl
  have hlt := image.codeRange.2.toNat_lt
  have hstop : (m.stop (newArchiveCode address)).toNat = m.offset.toNat + 19 := by
    rw [Sighting.stop, UInt32.toNat_add, UInt32.toNat_ofNat', hsize]
    omega
  have hpush : (UInt32.ofNat (pushName address).size).toNat = 5 := rfl
  rw [Word.toNat_sub_of_le (by omega), hstop, hpush]
  rfl

section

variable {image : Image} {t : Thresholds} {isVc14 : Bool} {address p g : UInt32}
  (hlinker : isVc14 = true ↔ t.vc14Major ≤ image.metadata.linker.major)

include hlinker

theorem testedAt?_eq_none_iff : testedAt? image isVc14 address = none ↔
    (t.vc14Major ≤ image.metadata.linker.major → image.LacksInCode (TestsThenPushes address)) := by
  rw [← hlinker, ← formAt?_eq_none_iff (reads_newArchiveCode address), testedAt?]
  by_cases hvc14 : isVc14 = true
  · rw [if_pos hvc14, imp_iff_right hvc14]
  · rw [if_neg hvc14]
    exact iff_of_true rfl fun h => absurd h hvc14

theorem testedAt?_eq_some_iff : testedAt? image isVc14 address = some (p, g) ↔ t.vc14Major ≤ image.metadata.linker.major ∧
    ∃ i, image.FirstMemberInCode (TestsThenPushes address) g i ∧ i + 14 = p.toNat := by
  rw [← hlinker, ← formAt?_eq_some_iff (f := (· + 14)) (reads_newArchiveCode address) fun _ hm => toNat_stop_sub_push hm,
    testedAt?]
  by_cases hvc14 : isVc14 = true
  · rw [if_pos hvc14, and_iff_right hvc14]
  · rw [if_neg hvc14]
    exact iff_of_false nofun fun h => hvc14 h.1

/-- **The searches find nothing exactly if no code handles the name.** -/
theorem handledAt?_eq_none_iff : handledAt? image isVc14 address = none ↔ NotHandled image t address := by
  rw [handledAt?, Option.or_eq_none_iff, Option.or_eq_none_iff, testedAt?_eq_none_iff hlinker,
    formAt?_eq_none_iff (reads_pushThenLoad address), formAt?_eq_none_iff (reads_loadThenPush address), NotHandled]

/-- **The searches find the code that handles the name**, and the manager. -/
theorem handledAt?_eq_some_iff :
    handledAt? image isVc14 address = some (p, g) ↔ ∃ load, Handles image t address p.toNat load g := by
  rw [handledAt?, Option.or_eq_some_iff, Option.or_eq_some_iff, testedAt?_eq_some_iff hlinker, testedAt?_eq_none_iff hlinker,
    formAt?_eq_none_iff (reads_pushThenLoad address), formAt?_eq_some_iff (f := id) (reads_pushThenLoad address) fun _ _ => rfl,
    formAt?_eq_some_iff (f := id) (reads_loadThenPush address) fun _ _ => rfl]
  constructor
  · rintro (⟨hvc14, i, h, hp⟩ | ⟨hnot, ⟨i, h, hp⟩ | ⟨hnot', i, h, hp⟩⟩)
    · exact ⟨i, hp ▸ .tested hvc14 h⟩
    · exact ⟨i + 5, hp ▸ .pushed hnot h⟩
    · exact ⟨i, hp ▸ .loaded hnot hnot' h⟩
  · rintro ⟨load, h⟩
    generalize hp : p.toNat = reference at h ⊢
    cases h with
    | tested hvc14 h => exact .inl ⟨hvc14, _, h, rfl⟩
    | pushed hnot h => exact .inr ⟨hnot, .inl ⟨_, h, rfl⟩⟩
    | loaded hnot hnot' h => exact .inr ⟨hnot, .inr ⟨hnot', _, h, rfl⟩⟩

end

section

variable {κ : Type} {S : Survey κ} {answer : κ → Except Failure Finding}

theorem meaning_oldArchive (address : UInt32) : S.meaning answer (oldArchive S.image address) =
    .ok ((formAt? S.image (pushName address ++ loadFileManager) (·.offset)).or
      (formAt? S.image (loadFileManager ++ pushName address) (·.offset))) := by
  rw [oldArchive, meaning_signature_bind, formAt?]
  cases hm : S.image.findInCode (pushName address ++ loadFileManager) with
  | none => rfl
  | some m =>
    -- the search goes no further, and need not, since the capture is there
    obtain ⟨g, hmember⟩ := (reads_pushThenLoad address).exists_firstMember hm
    have hg := (reads_pushThenLoad address).capture?_of_codeAt hm hmember.code
    simp only [Option.bind_some, hg]
    rfl

theorem meaning_archiveCode (isVc14 : Bool) (address : UInt32) :
    S.meaning answer (archiveCode S.image isVc14 address) = .ok (handledAt? S.image isVc14 address) := by
  have hrest : ∀ r, S.meaning answer (match r with
        | some r => pure (some r)
        | none => oldArchive S.image address) =
      .ok (r.or ((formAt? S.image (pushName address ++ loadFileManager) (·.offset)).or
        (formAt? S.image (loadFileManager ++ pushName address) (·.offset)))) := by
    intro r
    cases r with
    | some found => rfl
    | none => exact meaning_oldArchive address
  cases isVc14 with
  | true => exact hrest (testedAt? S.image true address)
  | false => exact hrest (testedAt? S.image false address)

/-- name of the archive in a client of that build date -/
def archiveName (image : Image) (t : Thresholds) : String :=
  if t.post2010 < image.metadata.buildDate.value then "data.grf" else "sdata.grf"

theorem rawText_archiveName_ne_nil (image : Image) (t : Thresholds) : rawText (archiveName image t) ≠ [] := by
  rw [archiveName]
  split <;> decide +kernel

theorem meaning_archive : S.meaning answer (archive S.image) =
    match S.image.findText (rawText (archiveName S.image S.thresholds)) .plain with
    | none => .error (.anchorMissing "'data.grf' not found")
    | some address =>
      match handledAt? S.image S.clientFacts.isVc14 address with
      | none => .error (.signatureMissing "'data.grf' not used")
      | some (reference, manager) => .ok ⟨archiveName S.image S.thresholds, address, reference, manager⟩ := by
  have hname : (if S.clientFacts.post2010 then "data.grf" else "sdata.grf") = archiveName S.image S.thresholds := by
    simp only [archiveName, ClientFacts.post2010, decide_eq_true_eq]
    rfl
  rw [archive, meaning_theFacts_bind]
  simp only [hname]
  rw [meaning_text_bind, meaning_require_bind]
  cases S.image.findText (rawText (archiveName S.image S.thresholds)) .plain with
  | none => rfl
  | some address =>
    simp only
    rw [meaning_bind, meaning_archiveCode, Except.bind, meaning_require_bind]
    cases handledAt? S.image S.clientFacts.isVc14 address <;> rfl

/-- the archive is found whose name is stored and handled -/
theorem meaning_archive_eq_ok_iff {a : Archive} : S.meaning answer (archive S.image) = .ok a ↔
    ∃ address reference load manager, S.image.StoredAt (archiveName S.image S.thresholds) address ∧
      Handles S.image S.thresholds address reference.toNat load manager ∧
        a = ⟨archiveName S.image S.thresholds, address, reference, manager⟩ := by
  have hne := rawText_archiveName_ne_nil S.image S.thresholds
  have hlinker : S.clientFacts.isVc14 = true ↔ S.thresholds.vc14Major ≤ S.image.metadata.linker.major := decide_eq_true_iff
  rw [meaning_archive]
  constructor
  · intro h
    cases htext : S.image.findText (rawText (archiveName S.image S.thresholds)) .plain with
    | none =>
      rw [htext] at h
      contradiction
    | some address =>
      cases hhandled : handledAt? S.image S.clientFacts.isVc14 address with
      | none =>
        simp only [htext, hhandled] at h
        contradiction
      | some found =>
        obtain ⟨reference, manager⟩ := found
        obtain ⟨load, hhandles⟩ := (handledAt?_eq_some_iff hlinker).1 hhandled
        simp only [htext, hhandled] at h
        exact ⟨address, reference, load, manager, (Image.findText_plain_eq_some_iff hne).1 htext, hhandles,
          (Except.ok.inj h).symm⟩
  · rintro ⟨address, reference, load, manager, hstored, hhandles, rfl⟩
    simp only [(Image.findText_plain_eq_some_iff hne).2 hstored, (handledAt?_eq_some_iff hlinker).2 ⟨load, hhandles⟩]

/-- it is not if its name is not stored, or not handled -/
theorem meaning_archive_eq_error_iff {fault : Fault} : S.meaning answer (archive S.image) = .error fault ↔
    S.image.Absent (archiveName S.image S.thresholds) ∧ fault = .anchorMissing "'data.grf' not found" ∨
      (∃ address, S.image.StoredAt (archiveName S.image S.thresholds) address ∧ NotHandled S.image S.thresholds address) ∧
        fault = .signatureMissing "'data.grf' not used" := by
  have hne := rawText_archiveName_ne_nil S.image S.thresholds
  have hlinker : S.clientFacts.isVc14 = true ↔ S.thresholds.vc14Major ≤ S.image.metadata.linker.major := decide_eq_true_iff
  simp only [meaning_archive, ← Image.findText_plain_eq_some_iff hne, ← Image.findText_plain_eq_none_iff hne,
    ← handledAt?_eq_none_iff hlinker]
  cases S.image.findText (rawText (archiveName S.image S.thresholds)) .plain with
  | none => simp [eq_comm]
  | some address =>
    cases hhandled : handledAt? S.image S.clientFacts.isVc14 address with
    | none => simp [hhandled, eq_comm]
    | some found => simp [hhandled]

end

/-! ## Answers -/

/-- **The archive is the one whose name the code handles.** With any thresholds and after any requests, the finder of the
data archive finds the address where the archive's name is stored first, the place of the code that handles the name and the
manager that is loaded there. Of the three forms of such code the first one that the code has anywhere counts, the one with a
test only for linkers that are new enough, and of that form the first code. The finder fails for want of the name exactly if
that is stored nowhere, and for want of code that handles it exactly if it is stored and no code of these forms is there. The
instruction that is told along with the manager is the one in the image. -/
theorem archive_exact (image : Image) (t : Thresholds) {scripts : Nat} (steps : Fin scripts → List (Step (FinderKey scripts)))
    (requests : List (Request (FinderKey scripts))) :
    let S := Survey.standard image t steps
    let answer := (S.load .archive (S.afterAll .start requests)).1
    let name := archiveName image t
    (∀ value, answer = .ok value ↔ ∃ address reference load manager, image.StoredAt name address ∧
      Handles image t address reference.toNat load manager ∧ value = .archive ⟨name, address, reference, manager⟩) ∧
    (∀ failure, answer = .error failure ↔
      image.Absent name ∧ failure = ⟨"DGRF", .anchorMissing "'data.grf' not found"⟩ ∨
      (∃ address, image.StoredAt name address ∧ NotHandled image t address) ∧
        failure = ⟨"DGRF", .signatureMissing "'data.grf' not used"⟩) ∧
    ∀ address (reference : UInt32) load manager, Handles image t address reference.toNat load manager →
      Archive.fields ⟨name, address, reference, manager⟩ = [.text "name" name, .address "address" (.virt address),
        .address "reference" (.phys reference), .address "file_mgr" (.virt manager),
        .bytes "mov_file_mgr" (image.bytes.extract load (load + 5)).toList] := by
  intro S answer name
  have hkey : (.archive : FinderKey scripts) ∈ FinderKey.builtIn := mem_builtIn nofun
  refine ⟨fun value => ?_, fun failure => ?_, fun address reference load manager h => ?_⟩
  · refine (load_eq_ok_iff .archive hkey rfl requests).trans ?_
    constructor
    · rintro ⟨a, ha, rfl⟩
      obtain ⟨address, reference, load, manager, hstored, hhandles, rfl⟩ := meaning_archive_eq_ok_iff.1 ha
      exact ⟨address, reference, load, manager, hstored, hhandles, rfl⟩
    · rintro ⟨address, reference, load, manager, hstored, hhandles, rfl⟩
      exact ⟨_, meaning_archive_eq_ok_iff.2 ⟨address, reference, load, manager, hstored, hhandles, rfl⟩, rfl⟩
  · refine (load_eq_error_iff .archive hkey rfl requests).trans ?_
    constructor
    · rintro ⟨fault, hfault, rfl⟩
      rcases meaning_archive_eq_error_iff.1 hfault with ⟨habsent, rfl⟩ | ⟨hnot, rfl⟩
      · exact .inl ⟨habsent, rfl⟩
      · exact .inr ⟨hnot, rfl⟩
    · rintro (⟨habsent, rfl⟩ | ⟨hnot, rfl⟩)
      · exact ⟨_, meaning_archive_eq_error_iff.2 (.inl ⟨habsent, rfl⟩), rfl⟩
      · exact ⟨_, meaning_archive_eq_error_iff.2 (.inr ⟨hnot, rfl⟩), rfl⟩
  · rw [Archive.fields, h.loads]

/-- the name pushed before the manager is loaded, and code that tests a result, with another manager, behind that -/
def testedCode : List UInt8 :=
  encodePushImm32 0x402000 ++ encodeMovRegImm .ecx 0x500000 ++
    encodeMovRegImm .ecx 0x600000 ++ encodeTestRegReg .eax .eax ++ encodeSetneMem 0x403000 ++ encodePushImm32 0x402000

/-- image of that code, with the name behind it -/
def testedImage : Image where
  bytes := ([0, 0, 0, 0] ++ testedCode ++ [0x64, 0x61, 0x74, 0x61, 0x2E, 0x67, 0x72, 0x66, 0]).toArray
  sections := [.code ".text" 4 29 0x401000, .data ".data" 33 9 0x402000]
  imports := []
  metadata := { Metadata.unknown with linker := ⟨14, 16⟩, buildDate := ⟨20180620⟩ }
  sound := by decide +kernel

/-- The form with the test goes first though it stands behind the other one; its PUSH is 14 bytes behind its start. -/
theorem testedImage_archive :
    let S := Survey.standard testedImage .standard (fun _ : Fin 0 => [])
    (S.load .archive .start).1 = .ok (.archive ⟨"data.grf", 0x402000, 28, 0x600000⟩) ∧
      testedImage.StoredAt "data.grf" 0x402000 ∧ ∃ load, Handles testedImage .standard 0x402000 28 load 0x600000 ∧
        .bytes "mov_file_mgr" (testedImage.bytes.extract load (load + 5)).toList ∈
          Archive.fields ⟨"data.grf", 0x402000, 28, 0x600000⟩ := by
  intro S
  obtain ⟨hok, -, hfields⟩ := archive_exact testedImage .standard (fun _ : Fin 0 => []) []
  have hname : archiveName testedImage .standard = "data.grf" := by decide +kernel
  rw [hname] at hok hfields
  have hloads : (S.load .archive .start).1 = .ok (.archive ⟨"data.grf", 0x402000, 28, 0x600000⟩) := by decide +kernel
  obtain ⟨address, reference, load, manager, hstored, hhandles, heq⟩ := (hok _).1 hloads
  cases heq
  refine ⟨hloads, hstored, load, hhandles, ?_⟩
  rw [hfields _ _ _ _ hhandles]
  exact List.mem_of_mem_getLast? rfl

end Landmark.Finder
