/-
The built-in finders take every step in range.

`Checked.finder` looks for what a built-in finder looks for, with checked searches, sums and differences. Of the sums only
those that place the window behind a copy may pass the end of the file, by less than 256 bytes, so they are words where the
file leaves that much room; all others are bounded by what was found before them. `ComesTo` says of a checked program that it
meets no hazard and comes to what a plan means; sequencing keeps it, and so does a step in range that the plan does not show.
- `operand_eq`: the parts that templates are made of; `callTarget_run`: the target of any call.
- `archive_comesTo`, `serviceType_comesTo`, `serverType_comesTo`, `windowManager_comesTo`: the finders, part by part.
- `analysis_in_range`: the facts and the finders, in any state of a survey.
-/
import Landmark.Proofs.Checked.ClientFacts
import Landmark.Proofs.Finder.Alike

namespace Landmark.Checked

/-- checked programs that may end with a fault -/
abbrev Lookup := ExceptT Fault Checked

/-- a result that must be there -/
def require {α : Type} (f : Fault) : Option α → Lookup α
  | some a => return a
  | none => throw f

/-- a result that is there, or the fault -/
def ofExcept {α : Type} (r : Except Fault α) : Lookup α :=
  .mk (.ok r)

section

variable {α β : Type}

/-- a step in range, and then the rest -/
theorem Lookup.run_step {c : Checked α} {a : α} {f : α → Lookup β} {r : Checked (Except Fault β)} (h : c = .ok a)
    (hf : (f a).run = r) : (liftM c >>= f).run = r := by
  subst h
  exact hf

/-- what follows is run with the values that come before -/
theorem Lookup.run_bind {c : Lookup α} {r : Except Fault α} {f : α → Lookup β} {g : α → Except Fault β}
    (h : c.run = .ok r) (hf : ∀ a, r = .ok a → (f a).run = .ok (g a)) : (c >>= f).run = .ok (r >>= g) := by
  rw [ExceptT.run_bind, h, ok_bind]
  cases r with
  | ok a => exact hf a rfl
  | error e => rfl

end

def findInCode (image : Image) (sig : Signature) : Checked (Option Sighting) :=
  findSignature image sig image.codeRange.1 image.codeRange.2

/-! ## Templates -/

/-- the four bytes of an operand; those that a negative one leaves fixed are cut out of four -/
def operand : Operand → Checked Signature
  | .negative free => do
    let fixed ← part (Array.replicate 4 0xFF) 0 (← minus 4 (min free 4))
    return .any (min free 4) ++ .literal fixed.toList
  | o => return o.signature

def callRel (rel : Operand) : Checked Signature :=
  return .literal [0xE8] ++ (← operand rel)

def movByteFrame (disp : Operand) (value : UInt8) : Checked Signature :=
  return .literal [0xC6, 0x85] ++ (← operand disp) ++ .literal [value]

theorem operand_eq (o : Operand) : operand o = .ok o.signature := by
  cases o with
  | negative free =>
    have hsize : 4 - min free 4 ≤ (Array.replicate 4 (0xFF : UInt8)).size := Nat.sub_le ..
    rw [operand, minus_eq (Nat.min_le_right ..), ok_bind, part_eq (Nat.zero_le _) hsize, ok_bind, Operand.signature,
      Array.toList_extract, Array.toList_replicate, List.extract_eq_take_drop, List.drop_zero, List.take_replicate,
      Nat.sub_zero, Nat.min_eq_left (Nat.sub_le ..)]
    rfl
  | _ => rfl

theorem callRel_eq (rel : Operand) : callRel rel = .ok (Instruction.callRel rel) := by
  rw [callRel, operand_eq]
  rfl

theorem movByteFrame_eq (disp : Operand) (value : UInt8) :
    movByteFrame disp value = .ok (Instruction.movByteFrame disp value) := by
  rw [movByteFrame, operand_eq]
  rfl

/-! ## Calls -/

/-- virtual address of a physical one in the first section of the list that maps it -/
def firstVirtual (p : UInt32) : List Section → Checked (Option UInt32)
  | [] => return none
  | s :: rest => do
    match ← toVirtual s p with
    | some v => return some v
    | none => firstVirtual p rest

/-- little-endian word at a physical offset -/
def wordAt (image : Image) (offset : UInt32) : Lookup UInt32 := do
  let bytes ← ofExcept (image.readBytes offset 4)
  word bytes 0

/-- virtual target of the relative call at a physical offset -/
def callTarget (image : Image) (offset : UInt32) : Lookup UInt32 :=
  match Word.addExact offset 5 with
  | none => throw (.readPastEnd offset 5)
  | some next => do
    let distance ← wordAt image (← add offset 1)
    let origin ← require (.outOfRange next .physical) (← firstVirtual next image.sections)
    return origin + distance

theorem firstVirtual_eq (image : Image) (p : UInt32) :
    firstVirtual p image.sections = .ok (image.sections.findSome? (·.toVirtual p)) := by
  have hrun : ∀ sections : List Section, (∀ s ∈ sections, s ∈ image.sections) →
      firstVirtual p sections = .ok (sections.findSome? (·.toVirtual p)) := by
    intro sections hsub
    induction sections with
    | nil => rfl
    | cons s rest ih =>
      rw [firstVirtual, toVirtual_eq (hsub s List.mem_cons_self), ok_bind, List.findSome?_cons]
      cases s.toVirtual p with
      | some v => rfl
      | none => exact ih fun t ht => hsub t (List.mem_cons_of_mem _ ht)
  exact hrun image.sections fun _ hs => hs

theorem wordAt_run (image : Image) (offset : UInt32) : (wordAt image offset).run = .ok (image.readWord offset) := by
  rw [wordAt, Image.readWord]
  cases hread : image.readBytes offset 4 with
  | error f => rfl
  | ok bytes =>
    obtain ⟨hroom, rfl⟩ := Image.readBytes_eq_ok_iff.1 hread
    have hlength : (image.bytes.extract offset.toNat (offset.toNat + 4)).toList.length = 4 := by
      rw [Array.length_toList, Array.size_extract]; omega
    change (liftM (word _ 0) : Lookup UInt32).run = _
    rw [word_eq (Nat.le_of_eq hlength.symm), List.drop_zero, List.take_of_length_le (Nat.le_of_eq hlength)]
    rfl

/-- **The target of a call is found with every step in range**, wherever the call is. -/
theorem callTarget_run (image : Image) (offset : UInt32) :
    (callTarget image offset).run = .ok (image.callTarget offset) := by
  rw [callTarget, Image.callTarget]
  cases hnext : Word.addExact offset 5 with
  | none => rfl
  | some next =>
    have hpast := Word.addExact_eq_some_iff.1 hnext
    have hlt := next.toNat_lt
    have hone : (1 : UInt32).toNat = 1 := rfl
    have hfive : (5 : UInt32).toNat = 5 := rfl
    have hsize : UInt32.size = 0x100000000 := rfl
    refine Lookup.run_step (add_eq (by omega)) (Lookup.run_bind (wordAt_run image (offset + 1)) fun distance _ => ?_)
    refine Lookup.run_step (firstVirtual_eq image next) ?_
    rw [Image.toVirtual]
    cases image.sections.findSome? (·.toVirtual next) <;> rfl

/-! ## Finders -/

/-- code of the new form: offset of what handles the name, and the manager -/
def newArchive (image : Image) (address : UInt32) : Lookup (Option (UInt32 × UInt32)) := do
  let code := Finder.newArchiveCode address
  match ← findInCode image code with
  | none => return none
  | some m =>
    let reference ← sub (← stop m code) (.ofNat (Finder.pushName address).size)
    return (m.capture? Finder.fileManager).map fun g => (reference, g)

/-- the same in other builds -/
def oldArchive (image : Image) (address : UInt32) : Lookup (Option (UInt32 × UInt32)) := do
  match ← findInCode image (Finder.pushName address ++ Finder.loadFileManager) with
  | some m => return (m.capture? Finder.fileManager).map fun g => (m.offset, g)
  | none =>
    let found ← findInCode image (Finder.loadFileManager ++ Finder.pushName address)
    return found.bind fun m => (m.capture? Finder.fileManager).map fun g => (m.offset, g)

def archiveCode (image : Image) (isVc14 : Bool) (address : UInt32) : Lookup (Option (UInt32 × UInt32)) := do
  let found ← if isVc14 then newArchive image address else pure none
  match found with
  | some r => return some r
  | none => oldArchive image address

/-- the data archive and its manager -/
def archive (image : Image) (t : Thresholds) : Lookup Archive := do
  let facts ← facts image t
  let name := if facts.post2010 then "data.grf" else "sdata.grf"
  let address ← require (.anchorMissing "'data.grf' not found")
    (← findText image (rawText name) .plain image.sections)
  let (reference, manager) ← require (.signatureMissing "'data.grf' not used")
    (← archiveCode image facts.isVc14 address)
  return ⟨name, address, reference, manager⟩

/-- the flag of the first assignment at or after a physical offset -/
def assignedFlag (image : Image) (start : UInt32) (name : String) : Lookup GlobalVariable := do
  let found ← findSignature image (Finder.flagAssignment name) start image.codeRange.2
  let address ← require (.postconditionMissing (name ++ " not assigned")) (found.bind fun m => m.capture? name)
  return ⟨name, address⟩

/-- offset just past the first place in the code where a signature stands -/
def pastSignature (image : Image) (sig : Signature) (missing : Fault) : Lookup UInt32 := do
  let m ← require missing (← findInCode image sig)
  stop m sig

def copyCode (anchor : UInt32) : Checked Signature :=
  return Instruction.movAnyRegMem (.value anchor) ++ (← movByteFrame (.negative 2) 0)

/-- where the code goes on after the text at `anchor` has been copied -/
def afterCopy (image : Image) (anchor : UInt32) : Lookup UInt32 := do
  let copied ← require Finder.americaNotUsed (← findInCode image (← copyCode anchor))
  let start ← add copied.offset 0x40
  let last ← add copied.offset 0x100
  let call ← require Finder.americaNotUsed (← findSignature image Finder.copyCall start last)
  return call.offset

/-- where the code goes on after the text at `anchor` has been handled -/
def afterAmerica (image : Image) (t : Thresholds) (anchor : UInt32) : Lookup UInt32 := do
  let push := Instruction.pushImm32 (.value anchor)
  match ← findInCode image push with
  | some m => stop m push
  | none =>
    let facts ← facts image t
    if facts.splitsComparisons then afterCopy image anchor else throw Finder.americaNotUsed

/-- where the code goes on when the text is not stored -/
def withoutText (image : Image) (t : Thresholds) (parts : Signature) (inParts whole : Fault) : Lookup UInt32 := do
  let facts ← facts image t
  if facts.splitsComparisons then pastSignature image parts inParts else throw whole

/-- the service type -/
def serviceType (image : Image) (t : Thresholds) : Lookup GlobalVariable := do
  let start ← match ← findText image (rawText "america") .plain image.sections with
    | some anchor => afterAmerica image t anchor
    | none =>
      withoutText image t Finder.americaInParts (.anchorMissing "'america' not found in parts")
        (.anchorMissing "'america' not found")
  assignedFlag image start Finder.serviceFlag

/-- the server type -/
def serverType (image : Image) (t : Thresholds) : Lookup GlobalVariable := do
  let start ← match ← findText image (rawText "sakray") .plain image.sections with
    | some anchor =>
      pastSignature image (Instruction.pushImm32 (.value anchor)) (.signatureMissing "'sakray' not used")
    | none =>
      withoutText image t Finder.sakrayInParts (.anchorMissing "'sakray' not found in parts")
        (.anchorMissing "'sakray' not found")
  assignedFlag image start Finder.serverFlag

def makeWindowHead : Checked Signature :=
  return Instruction.movRegImm .ecx (.capture Finder.windowManagerName) ++ (← callRel (.negative 3))
    ++ Instruction.pushImm8 0

/-- the code that makes the window -/
def makeWindowCode (image : Image) (anchor : UInt32) : Lookup Sighting := do
  let head ← makeWindowHead
  match ← findInCode image (head ++ Finder.makeWindowTail anchor) with
  | some m => return m
  | none =>
    require Finder.accountNotUsed
      (← findInCode image (head ++ Instruction.movAnyRegAnyReg ++ Finder.makeWindowTail anchor))

/-- the window manager and the function that makes a window -/
def windowManager (image : Image) : Lookup WindowManager := do
  let anchor ← require (.anchorMissing "'NUMACCOUNT' not found")
    (← findText image (rawText "NUMACCOUNT") .plain image.sections)
  let code ← makeWindowCode image anchor
  let address ← require Finder.accountNotUsed (code.capture? Finder.windowManagerName)
  let makeWindow ← callTarget image (← add code.offset 5)
  return ⟨address, makeWindow⟩

/-- what a built-in finder looks for -/
def finder {scripts : Nat} (image : Image) (t : Thresholds) :
    (key : FinderKey scripts) → key ∈ FinderKey.builtIn → Lookup Finding
  | .archive, _ => return .archive (← archive image t)
  | .serviceType, _ => return .global (← serviceType image t)
  | .serverType, _ => return .global (← serverType image t)
  | .windowManager, _ => return .windowManager (← windowManager image)
  | .imports, _ => return .imports (← ofExcept (Finder.importSlots image))
  | .script n, h => absurd h (by simp [FinderKey.builtIn])

/-- value or failure of a built-in finder -/
def load {scripts : Nat} (image : Image) (t : Thresholds) (key : FinderKey scripts) (h : key ∈ FinderKey.builtIn) :
    Checked (Except Failure Finding) :=
  (Except.mapError (Failure.mk key.name)) <$> (finder image t key h).run

/-! ## What programs come to -/

section

variable {κ α β : Type} {S : Survey κ} {answer : κ → Except Failure Finding}

/-- no hazard, and the value or the fault that the plan means -/
def ComesTo (S : Survey κ) (answer : κ → Except Failure Finding) (c : Lookup α) (plan : Plan κ α) : Prop :=
  c.run = .ok (S.meaning answer plan)

theorem comesTo_pure (a : α) : ComesTo S answer (pure a) (pure a) := rfl

theorem comesTo_fail (f : Fault) : ComesTo S answer (throw f : Lookup α) (.fail f) := rfl

/-- what follows comes to what the rest of the plan means, for the values that the first part can have -/
theorem ComesTo.bind {c : Lookup α} {plan : Plan κ α} {f : α → Lookup β} {g : α → Plan κ β}
    (h : ComesTo S answer c plan) (hf : ∀ a, S.meaning answer plan = .ok a → ComesTo S answer (f a) (g a)) :
    ComesTo S answer (c >>= f) (plan >>= g) := by
  rw [ComesTo, S.meaning_bind]
  exact Lookup.run_bind h hf

/-- a step in range that the plan does not show -/
theorem ComesTo.step {c : Checked α} {a : α} {f : α → Lookup β} {plan : Plan κ β} (h : c = .ok a)
    (hf : ComesTo S answer (f a) plan) : ComesTo S answer (liftM c >>= f) plan :=
  Lookup.run_step h hf

theorem comesTo_text (needle : List UInt8) (q : TextQuery) :
    ComesTo S answer (liftM (findText S.image needle q S.image.sections)) (Plan.text needle q) := by
  rw [findText_eq]
  rfl

theorem comesTo_signatureIn (sig : Signature) (start stop : UInt32) :
    ComesTo S answer (liftM (findSignature S.image sig start stop)) (Plan.signatureIn sig start stop) := by
  rw [findSignature_eq]
  rfl

theorem comesTo_signature (sig : Signature) :
    ComesTo S answer (liftM (findInCode S.image sig)) (Plan.signature S.image sig) :=
  comesTo_signatureIn ..

theorem comesTo_facts : ComesTo S answer (liftM (facts S.image S.thresholds)) Plan.theFacts := by
  rw [facts_findsAs S.image S.thresholds .empty]
  rfl

theorem comesTo_require (f : Fault) (r : Option α) : ComesTo S answer (require f r) (Plan.require f r) := by
  cases r <;> rfl

theorem comesTo_ofExcept (r : Except Fault α) : ComesTo S answer (ofExcept r) (Plan.ofExcept r) := by
  rw [ComesTo, Survey.meaning_ofExcept]
  rfl

/-! ### What was found -/

/-- a sighting in the code ends in the file and at a word -/
theorem stop_of_signature {sig : Signature} {m : Sighting}
    (h : S.meaning answer (Plan.signature S.image sig) = .ok (some m)) :
    stop m sig = .ok (m.stop sig) ∧ (m.stop sig).toNat = m.offset.toNat + sig.size ∧
      m.offset.toNat + sig.size ≤ S.image.bytes.size ∧ m.offset.toNat + sig.size < UInt32.size := by
  have hfound : S.image.findSignature sig S.image.codeRange.1 S.image.codeRange.2 = some m := Except.ok.inj h
  have hend := stop_le hfound
  have hlast := S.image.codeRange.2.toNat_lt
  have hsize : UInt32.size = 0x100000000 := rfl
  have hcount : (UInt32.ofNat sig.size).toNat = sig.size := UInt32.toNat_ofNat_of_lt' (by omega)
  exact ⟨stop_eq hfound, by rw [Sighting.stop, Word.toNat_add_of_lt (by omega), hcount], by omega, by omega⟩

/-! ### Finders -/

theorem newArchive_comesTo (address : UInt32) :
    ComesTo S answer (newArchive S.image address) (Finder.newArchive S.image address) := by
  refine (comesTo_signature _).bind fun r hr => ?_
  cases r with
  | none => exact comesTo_pure _
  | some m =>
    obtain ⟨hstop, hend, -, hroom⟩ := stop_of_signature hr
    have hpush : (Finder.pushName address).size ≤ (Finder.newArchiveCode address).size := by
      rw [Finder.newArchiveCode, Signature.size_append]; omega
    have hcount : (UInt32.ofNat (Finder.pushName address).size).toNat = (Finder.pushName address).size :=
      UInt32.toNat_ofNat_of_lt' (by omega)
    exact .step hstop (.step (sub_eq (by omega)) (comesTo_pure _))

theorem oldArchive_comesTo (address : UInt32) :
    ComesTo S answer (oldArchive S.image address) (Finder.oldArchive S.image address) := by
  refine (comesTo_signature _).bind fun r _ => ?_
  cases r with
  | some m => exact comesTo_pure _
  | none => exact (comesTo_signature _).bind fun _ _ => comesTo_pure _

theorem archiveCode_comesTo (isVc14 : Bool) (address : UInt32) :
    ComesTo S answer (archiveCode S.image isVc14 address) (Finder.archiveCode S.image isVc14 address) := by
  have hrest : ∀ r, ComesTo S answer
      (match r with
        | some r => return some r
        | none => oldArchive S.image address)
      (match r with
        | some r => return some r
        | none => Finder.oldArchive S.image address) := by
    intro r
    cases r with
    | some found => exact comesTo_pure _
    | none => exact oldArchive_comesTo address
  cases isVc14 with
  | true => exact (newArchive_comesTo address).bind fun r _ => hrest r
  | false => exact hrest none

theorem archive_comesTo : ComesTo S answer (archive S.image S.thresholds) (Finder.archive S.image) := by
  refine comesTo_facts.bind fun facts _ => ?_
  refine (comesTo_text _ _).bind fun _ _ => (comesTo_require _ _).bind fun address _ => ?_
  refine (archiveCode_comesTo _ _).bind fun _ _ => (comesTo_require _ _).bind fun _ _ => ?_
  exact comesTo_pure _

theorem assignedFlag_comesTo (start : UInt32) (name : String) :
    ComesTo S answer (assignedFlag S.image start name) (Finder.assignedFlag S.image start name) := by
  refine (comesTo_signatureIn _ _ _).bind fun _ _ => (comesTo_require _ _).bind fun _ _ => ?_
  exact comesTo_pure _

theorem pastSignature_comesTo (sig : Signature) (missing : Fault) :
    ComesTo S answer (pastSignature S.image sig missing) (Finder.pastSignature S.image sig missing) := by
  refine (comesTo_signature _).bind fun r hr => (comesTo_require _ _).bind fun m hm => ?_
  obtain rfl := Survey.eq_some_of_meaning_require hm
  obtain ⟨hstop, -⟩ := stop_of_signature hr
  rw [ComesTo, hstop]
  rfl

/-- **The window behind a copy**: the copy ends in the file, and the file leaves room for 256 bytes more. -/
theorem afterCopy_comesTo (hsize : S.image.bytes.size + 0x100 < UInt32.size) (anchor : UInt32) :
    ComesTo S answer (afterCopy S.image anchor) (Finder.afterCopy S.image anchor) := by
  have hcopy : copyCode anchor = .ok (Finder.copyCode anchor) := by
    rw [copyCode, movByteFrame_eq]
    rfl
  refine .step hcopy ?_
  refine (comesTo_signature _).bind fun r hr => (comesTo_require _ _).bind fun copied hcopied => ?_
  obtain rfl := Survey.eq_some_of_meaning_require hcopied
  obtain ⟨-, -, hfile, -⟩ := stop_of_signature hr
  have hstart : (0x40 : UInt32).toNat = 0x40 := rfl
  have hlast : (0x100 : UInt32).toNat = 0x100 := rfl
  refine .step (add_eq (by omega)) (.step (add_eq (by omega)) ?_)
  refine (comesTo_signatureIn _ _ _).bind fun _ _ => (comesTo_require _ _).bind fun _ _ => ?_
  exact comesTo_pure _

theorem afterAmerica_comesTo (hsize : S.image.bytes.size + 0x100 < UInt32.size) (anchor : UInt32) :
    ComesTo S answer (afterAmerica S.image S.thresholds anchor) (Finder.afterAmerica S.image anchor) := by
  refine (comesTo_signature _).bind fun r hr => ?_
  cases r with
  | some m =>
    obtain ⟨hstop, -⟩ := stop_of_signature hr
    dsimp only
    rw [ComesTo, hstop]
    rfl
  | none =>
    refine comesTo_facts.bind fun facts _ => ?_
    split
    · exact afterCopy_comesTo hsize anchor
    · exact comesTo_fail _

theorem withoutText_comesTo (parts : Signature) (inParts whole : Fault) :
    ComesTo S answer (withoutText S.image S.thresholds parts inParts whole) (do
      let facts ← Plan.theFacts
      if facts.splitsComparisons then Finder.pastSignature S.image parts inParts else .fail whole) := by
  refine comesTo_facts.bind fun facts _ => ?_
  split
  · exact pastSignature_comesTo parts inParts
  · exact comesTo_fail _

theorem serviceType_comesTo (hsize : S.image.bytes.size + 0x100 < UInt32.size) :
    ComesTo S answer (serviceType S.image S.thresholds) (Finder.serviceType S.image) := by
  refine (comesTo_text _ _).bind fun r _ => ?_
  cases r with
  | some anchor => exact (afterAmerica_comesTo hsize anchor).bind fun start _ => assignedFlag_comesTo start _
  | none => exact (withoutText_comesTo _ _ _).bind fun start _ => assignedFlag_comesTo start _

theorem serverType_comesTo : ComesTo S answer (serverType S.image S.thresholds) (Finder.serverType S.image) := by
  refine (comesTo_text _ _).bind fun r _ => ?_
  cases r with
  | some anchor => exact (pastSignature_comesTo _ _).bind fun start _ => assignedFlag_comesTo start _
  | none => exact (withoutText_comesTo _ _ _).bind fun start _ => assignedFlag_comesTo start _

theorem makeWindowHead_eq : makeWindowHead = .ok Finder.makeWindowHead := by
  rw [makeWindowHead, callRel_eq]
  rfl

theorem makeWindowCode_comesTo (anchor : UInt32) :
    ComesTo S answer (makeWindowCode S.image anchor) (Finder.makeWindowCode S.image anchor) := by
  refine .step makeWindowHead_eq ((comesTo_signature _).bind fun r _ => ?_)
  cases r with
  | some m => exact comesTo_pure _
  | none => exact (comesTo_signature _).bind fun _ _ => comesTo_require _ _

theorem windowManager_comesTo : ComesTo S answer (windowManager S.image) (Finder.windowManager S.image) := by
  refine (comesTo_text _ _).bind fun _ _ => (comesTo_require _ _).bind fun anchor _ => ?_
  refine (makeWindowCode_comesTo anchor).bind fun m hm => (comesTo_require _ _).bind fun address _ => ?_
  obtain ⟨sig, hlong, hsighting⟩ := Survey.exists_of_makeWindowCode hm
  obtain ⟨-, -, -, hroom⟩ := stop_of_signature hsighting
  have hfive : (5 : UInt32).toNat = 5 := rfl
  refine .step (add_eq (by omega)) ?_
  refine ComesTo.bind ?_ fun _ _ => comesTo_pure _
  rw [ComesTo, callTarget_run, Survey.meaning_ofExcept]

end

/-! ## The built-in finders -/

section

variable {scripts : Nat} (image : Image) (t : Thresholds)

theorem finder_comesTo (steps : Fin scripts → List (Finder.Step (FinderKey scripts)))
    (hsize : image.bytes.size + 0x100 < UInt32.size) {answer : FinderKey scripts → Except Failure Finding}
    {key : FinderKey scripts} (hkey : key ∈ FinderKey.builtIn) :
    ComesTo (.standard image t steps) answer (finder image t key hkey) (FinderKey.plan image steps key) := by
  cases key with
  | archive => exact archive_comesTo.bind fun _ _ => comesTo_pure _
  | serviceType => exact (serviceType_comesTo hsize).bind fun _ _ => comesTo_pure _
  | serverType => exact serverType_comesTo.bind fun _ _ => comesTo_pure _
  | windowManager => exact windowManager_comesTo.bind fun _ _ => comesTo_pure _
  | imports => exact (comesTo_ofExcept _).bind fun _ _ => comesTo_pure _
  | script n => simp [FinderKey.builtIn] at hkey

/-- **The built-in analysis takes every step in range.** In an image of a file that leaves room for 256 bytes, with any
thresholds, the checked survey of the facts and every checked built-in finder meet no hazard and answer what the survey
answers, with any scripts and after any requests. -/
theorem analysis_in_range (hsize : image.bytes.size + 0x100 < UInt32.size) :
    (∀ log, facts image t = .ok ((ClientFacts.survey image t).run log).1) ∧
    ∀ {scripts : Nat} (steps : Fin scripts → List (Finder.Step (FinderKey scripts)))
      (requests : List (Request (FinderKey scripts))),
      let S := Survey.standard image t steps
      let st := S.afterAll .start requests
      facts image t = .ok (S.facts st).1 ∧
      ∀ key, (hkey : key ∈ FinderKey.builtIn) → load image t key hkey = .ok (S.load key st).1 := by
  refine ⟨facts_findsAs image t, fun steps requests => ⟨?_, fun key hkey => ?_⟩⟩
  · rw [Survey.facts_afterAll]
    exact facts_findsAs image t .empty
  · rw [Survey.load_builtIn Survey.noAnswer hkey requests, load, finder_comesTo image t steps hsize hkey]
    rfl

/-- the text america, and code that copies it, calls a function 0x40 bytes after the start of the copy and sets a flag -/
def copyingFile : List UInt8 :=
  [0x8B, 0x05, 0x00, 0x20, 0x40, 0x00, 0xC6, 0x85, 0xF0, 0xFF, 0xFF, 0xFF, 0x00] ++ .replicate 51 0 ++
    [0x6A, 0x07, 0x50, 0x50, 0x50, 0xE8, 0x00, 0x00, 0x00, 0x00] ++
    [0xC7, 0x05, 0x10, 0x40, 0x40, 0x00, 0x01, 0x00, 0x00, 0x00] ++
    [0x61, 0x6D, 0x65, 0x72, 0x69, 0x63, 0x61, 0x00]

def copyingImage : Image where
  bytes := copyingFile.toArray
  sections := [.code ".text" 0 84 0x401000, .data ".data" 84 8 0x402000]
  imports := []
  metadata := { Metadata.unknown with linker := ⟨14, 29⟩ }
  sound := by decide

/-- Both sums behind the copy are formed, and the assignment is found. -/
theorem copyingImage_in_range :
    copyingImage.bytes.size + 0x100 < UInt32.size ∧
    load copyingImage .standard (.serviceType : FinderKey 0) (by decide) =
      .ok (.ok (.global ⟨Finder.serviceFlag, 0x404010⟩)) := by
  have hanswer : ((Survey.standard copyingImage .standard (fun _ : Fin 0 => [])).load .serviceType .start).1 =
      .ok (.global ⟨Finder.serviceFlag, 0x404010⟩) := by
    decide +kernel
  obtain ⟨-, hall⟩ := analysis_in_range copyingImage .standard (by decide)
  obtain ⟨-, hload⟩ := hall (fun _ : Fin 0 => []) []
  refine ⟨by decide, ?_⟩
  rw [hload]
  exact congrArg Except.ok hanswer

end

end Landmark.Checked
