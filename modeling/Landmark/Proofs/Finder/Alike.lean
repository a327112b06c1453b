/-
What the built-in finders see of an image.

Two surveys are `Twin` if their images show the same mapped bytes, their thresholds are the same, and the window for the
prologue lies in the first section of code. Then their searches in the code, their texts and their facts are the same, and
so are the meanings of plans put together from these (`meaning_bind_rel`, `meaning_bind_congr`).
- `meaning_archive`, `meaning_serverType`, `meaning_windowManager`, `meaning_importTable`: the plans mean the same.
- `toOption_meaning_serviceType`: this one looks for a call in a window that may reach past the code. A call past the code
  leaves no room for the assignment that must follow, so there is no value on either side, though for different reasons.
- `mapped_bytes_decide`: what surveys of such images answer.
-/
import Landmark.Proofs.Image.Alike
import Landmark.Proofs.Signature.Concatenation
import Landmark.Proofs.Survey.Solitary

namespace Landmark

/-- bytes of extra code in front of the first function -/
def ClientFacts.appliedShift (image : Image) (t : Thresholds) : UInt32 :=
  if t.codeShiftAfter < image.metadata.buildDate.value then t.codeShift else 0

namespace Survey

/-! ## Meanings of steps -/

section

variable {κ κ' : Type} {S : Survey κ} {S' : Survey κ'} {answer : κ → Except Failure Finding}
  {answer' : κ' → Except Failure Finding} {α β : Type}

theorem meaning_bind (plan : Plan κ α) (f : α → Plan κ β) :
    S.meaning answer (plan >>= f) = (S.meaning answer plan).bind fun a => S.meaning answer (f a) := by
  change S.meaning answer (plan.bind f) = _
  induction plan with
  | done a => rfl
  | fail e => rfl
  | findText needle q next ih => exact ih _
  | findSignature sig a b next ih => exact ih _
  | facts next ih => exact ih _
  | tree next ih => exact ih _
  | status k next ih => exact ih _
  | attempt k next ih => exact ih _
  | depend k next ih =>
    rw [Plan.bind, meaning, meaning]
    cases answer k with
    | ok v => exact ih v
    | error e => rfl

/-- after parts that mean the same, what holds of the meanings of the rest, and of a common fault, holds of the whole -/
theorem meaning_bind_rel {R : Except Fault β → Except Fault β → Prop} (hR : ∀ f, R (.error f) (.error f))
    {plan : Plan κ α} {plan' : Plan κ' α} {f : α → Plan κ β} {f' : α → Plan κ' β}
    (h : S.meaning answer plan = S'.meaning answer' plan')
    (hf : ∀ a, S.meaning answer plan = .ok a → R (S.meaning answer (f a)) (S'.meaning answer' (f' a))) :
    R (S.meaning answer (plan >>= f)) (S'.meaning answer' (plan' >>= f')) := by
  rw [meaning_bind, meaning_bind, ← h]
  cases hr : S.meaning answer plan with
  | ok a => exact hf a hr
  | error e => exact hR e

/-- plans mean the same if their parts do, the second ones for values of the first -/
theorem meaning_bind_congr {plan : Plan κ α} {plan' : Plan κ' α} {f : α → Plan κ β} {f' : α → Plan κ' β}
    (h : S.meaning answer plan = S'.meaning answer' plan')
    (hf : ∀ a, S.meaning answer plan = .ok a → S.meaning answer (f a) = S'.meaning answer' (f' a)) :
    S.meaning answer (plan >>= f) = S'.meaning answer' (plan' >>= f') :=
  meaning_bind_rel (fun _ => rfl) h hf

theorem exists_of_meaning_bind {plan : Plan κ α} {f : α → Plan κ β} {b : β}
    (h : S.meaning answer (plan >>= f) = .ok b) : ∃ a, S.meaning answer plan = .ok a ∧ S.meaning answer (f a) = .ok b := by
  rw [meaning_bind] at h
  cases hr : S.meaning answer plan with
  | ok a => exact ⟨a, rfl, by rwa [hr] at h⟩
  | error e =>
    rw [hr] at h
    contradiction

theorem meaning_require (f : Fault) (r : Option α) :
    S.meaning answer (Plan.require f r) = S'.meaning answer' (Plan.require f r) := by
  cases r <;> rfl

theorem meaning_ofExcept (r : Except Fault α) : S.meaning answer (Plan.ofExcept r) = r := by
  cases r <;> rfl

theorem meaning_theFacts_bind (f : ClientFacts → Plan κ α) :
    S.meaning answer (Plan.theFacts >>= f) = S.meaning answer (f S.clientFacts) := rfl

theorem meaning_text_bind (needle : List UInt8) (q : TextQuery) (f : Option UInt32 → Plan κ α) :
    S.meaning answer (Plan.text needle q >>= f) = S.meaning answer (f (S.image.findText needle q)) := rfl

theorem meaning_signature_bind (sig : Signature) (f : Option Sighting → Plan κ α) :
    S.meaning answer (Plan.signature S.image sig >>= f) = S.meaning answer (f (S.image.findInCode sig)) := rfl

theorem meaning_require_bind (fault : Fault) (r : Option α) (f : α → Plan κ β) :
    S.meaning answer (Plan.require fault r >>= f) =
      match r with
      | none => .error fault
      | some a => S.meaning answer (f a) := by
  cases r <;> rfl

theorem eq_some_of_meaning_require {f : Fault} {r : Option α} {a : α}
    (h : S.meaning answer (Plan.require f r) = .ok a) : r = some a := by
  cases r with
  | none => contradiction
  | some b => exact congrArg some (Except.ok.inj h)

end

/-- the code that makes the window is a sighting in the code, of a signature with room for the call -/
theorem exists_of_makeWindowCode {κ : Type} {S : Survey κ} {answer : κ → Except Failure Finding} {anchor : UInt32}
    {m : Sighting} (h : S.meaning answer (Finder.makeWindowCode S.image anchor) = .ok m) :
    ∃ sig : Signature, 12 ≤ sig.size ∧ S.meaning answer (Plan.signature S.image sig) = .ok (some m) := by
  have hhead : Finder.makeWindowHead.size = 12 := rfl
  obtain ⟨r, hr, h⟩ := exists_of_meaning_bind h
  cases r with
  | some m' =>
    obtain rfl := Except.ok.inj h
    exact ⟨_, by rw [Signature.size_append]; omega, hr⟩
  | none =>
    obtain ⟨r', hr', h⟩ := exists_of_meaning_bind h
    obtain rfl := eq_some_of_meaning_require h
    exact ⟨_, by rw [Signature.size_append, Signature.size_append]; omega, hr'⟩

/-! ## Twins -/

/-- the images show the same mapped bytes, and the first section of code, `code`, has room for the prologue window -/
structure Twin {κ κ' : Type} (S : Survey κ) (S' : Survey κ') (code : Section) : Prop where
  alike : S.image.Alike S'.image
  thresholds : S.thresholds = S'.thresholds
  first : S.image.sections.find? (·.executable) = some code
  prologue : (ClientFacts.appliedShift S.image S.thresholds).toNat + S.thresholds.prologueWindow.toNat ≤ code.mappedCount

variable {κ κ' : Type} {S : Survey κ} {S' : Survey κ'} {code : Section} {answer : κ → Except Failure Finding}
  {answer' : κ' → Except Failure Finding}

namespace Twin

theorem mem (T : Twin S S' code) : code ∈ S.image.sections := List.mem_of_find?_eq_some T.first

theorem codeRange (T : Twin S S' code) : S.image.codeRange = (code.rawOffset, code.rawEnd) := by
  rw [Image.codeRange, T.first]

theorem codeRange' (T : Twin S S' code) : S'.image.codeRange = (code.rawOffset, code.rawEnd) := by
  rw [Image.codeRange, ← T.alike.sections, T.first]

theorem toNat_rawEnd (T : Twin S S' code) : code.rawEnd.toNat = code.rawOffset.toNat + code.mappedCount :=
  Section.toNat_rawEnd (S.image.isSound.fits code T.mem)

/-- searches inside the code are the same -/
theorem findSignature (T : Twin S S' code) {sig : Signature} {start stop : UInt32}
    (hstart : code.rawOffset.toNat ≤ start.toNat) (hstop : stop.toNat ≤ code.rawEnd.toNat) :
    S.image.findSignature sig start stop = S'.image.findSignature sig start stop :=
  T.alike.findSignature T.mem hstart (T.toNat_rawEnd ▸ hstop)

/-- the surveys of the facts find the same -/
theorem same_survey (T : Twin S S' code) :
    (ClientFacts.survey S.image S.thresholds).Same (ClientFacts.survey S'.image S.thresholds) := by
  have hend := T.toNat_rawEnd
  have hfits := (code.fits_iff.1 (S.image.isSound.fits code T.mem)).1
  have hroom := T.prologue
  have hwindow : ClientFacts.prologueWindow S.image S.thresholds =
      (Word.addSat code.rawOffset (ClientFacts.appliedShift S.image S.thresholds),
        Word.addSat (Word.addSat code.rawOffset (ClientFacts.appliedShift S.image S.thresholds))
          S.thresholds.prologueWindow) := by
    rw [ClientFacts.prologueWindow, T.codeRange]
    rfl
  have hwindow' : ClientFacts.prologueWindow S.image S.thresholds =
      ClientFacts.prologueWindow S'.image S.thresholds := by
    rw [ClientFacts.prologueWindow, ClientFacts.prologueWindow, T.codeRange, T.codeRange', T.alike.metadata]
  have hsize : UInt32.size = 0x100000000 := rfl
  have hfind : ∀ sig, S.image.findSignature sig (ClientFacts.prologueWindow S.image S.thresholds).1
      (ClientFacts.prologueWindow S.image S.thresholds).2 = S'.image.findSignature sig
        (ClientFacts.prologueWindow S.image S.thresholds).1 (ClientFacts.prologueWindow S.image S.thresholds).2 := by
    intro sig
    rw [hwindow]
    refine T.findSignature ?_ ?_
    · rw [Word.toNat_addSat]; omega
    · rw [Word.toNat_addSat, Word.toNat_addSat]; omega
  exact ClientFacts.same_survey T.alike.metadata T.alike.findText hwindow' hfind

theorem clientFacts (T : Twin S S' code) : S.clientFacts = S'.clientFacts := by
  rw [Survey.clientFacts, Survey.clientFacts, ← T.thresholds]
  exact T.same_survey _ _

/-! ### Steps -/

variable (answer answer')

theorem meaning_text (T : Twin S S' code) (needle : List UInt8) (q : TextQuery) :
    S.meaning answer (Plan.text needle q) = S'.meaning answer' (Plan.text needle q) :=
  congrArg Except.ok (T.alike.findText needle q)

theorem meaning_theFacts (T : Twin S S' code) :
    S.meaning answer Plan.theFacts = S'.meaning answer' Plan.theFacts :=
  congrArg Except.ok T.clientFacts

theorem meaning_signature (T : Twin S S' code) (sig : Signature) :
    S.meaning answer (Plan.signature S.image sig) = S'.meaning answer' (Plan.signature S'.image sig) := by
  refine congrArg Except.ok ?_
  rw [T.codeRange, T.codeRange']
  exact T.findSignature (Nat.le_refl _) (Nat.le_refl _)

/-- a sighting in the code lies inside the section of code -/
theorem inside (T : Twin S S' code) {sig : Signature} {m : Sighting}
    (h : S.meaning answer (Plan.signature S.image sig) = .ok (some m)) : code.rawOffset.toNat ≤ m.offset.toNat ∧
      m.offset.toNat + sig.size ≤ code.rawEnd.toNat ∧ (m.stop sig).toNat = m.offset.toNat + sig.size := by
  have hfound : S.image.findSignature sig code.rawOffset code.rawEnd = some m := by
    have hsearch := Except.ok.inj h
    rwa [T.codeRange] at hsearch
  obtain ⟨-, ⟨hstart, hend, -⟩, -⟩ := Image.findSignature_eq_some_iff.1 hfound
  have hlt := code.rawEnd.toNat_lt
  refine ⟨hstart, by omega, ?_⟩
  rw [Sighting.stop, UInt32.toNat_add, UInt32.toNat_ofNat']
  omega

/-! ### Finders -/

open Finder

theorem meaning_newArchive (T : Twin S S' code) (address : UInt32) :
    S.meaning answer (newArchive S.image address) = S'.meaning answer' (newArchive S'.image address) :=
  meaning_bind_congr (T.meaning_signature ..) fun _ _ => rfl

theorem meaning_oldArchive (T : Twin S S' code) (address : UInt32) :
    S.meaning answer (oldArchive S.image address) = S'.meaning answer' (oldArchive S'.image address) := by
  refine meaning_bind_congr (T.meaning_signature ..) fun r _ => ?_
  cases r with
  | some m => rfl
  | none => exact meaning_bind_congr (T.meaning_signature ..) fun _ _ => rfl

theorem meaning_archiveCode (T : Twin S S' code) (isVc14 : Bool) (address : UInt32) :
    S.meaning answer (archiveCode S.image isVc14 address) = S'.meaning answer' (archiveCode S'.image isVc14 address) := by
  have hrest : ∀ r, S.meaning answer (match r with
        | some r => pure (some r)
        | none => oldArchive S.image address) =
      S'.meaning answer' (match r with
        | some r => pure (some r)
        | none => oldArchive S'.image address) := by
    intro r
    cases r with
    | some found => rfl
    | none => exact T.meaning_oldArchive ..
  cases isVc14 with
  | true => exact meaning_bind_congr (T.meaning_newArchive ..) fun r _ => hrest r
  | false => exact hrest none

theorem meaning_archive (T : Twin S S' code) :
    S.meaning answer (archive S.image) = S'.meaning answer' (archive S'.image) := by
  refine meaning_bind_congr (T.meaning_theFacts ..) fun facts _ => ?_
  refine meaning_bind_congr (T.meaning_text ..) fun _ _ => meaning_bind_congr (meaning_require ..) fun address _ => ?_
  refine meaning_bind_congr (T.meaning_archiveCode ..) fun _ _ => ?_
  exact meaning_bind_congr (meaning_require ..) fun _ _ => rfl

theorem meaning_assignedFlag (T : Twin S S' code) {start : UInt32} (hstart : code.rawOffset.toNat ≤ start.toNat)
    (name : String) :
    S.meaning answer (assignedFlag S.image start name) = S'.meaning answer' (assignedFlag S'.image start name) := by
  have hsearch : S.meaning answer (Plan.signatureIn (flagAssignment name) start S.image.codeRange.2) =
      S'.meaning answer' (Plan.signatureIn (flagAssignment name) start S'.image.codeRange.2) := by
    refine congrArg Except.ok ?_
    rw [T.codeRange, T.codeRange']
    exact T.findSignature hstart (Nat.le_refl _)
  refine meaning_bind_congr hsearch fun _ _ => ?_
  exact meaning_bind_congr (meaning_require ..) fun _ _ => rfl

theorem meaning_pastSignature (T : Twin S S' code) (sig : Signature) (missing : Fault) :
    S.meaning answer (pastSignature S.image sig missing) = S'.meaning answer' (pastSignature S'.image sig missing) := by
  refine meaning_bind_congr (T.meaning_signature ..) fun _ _ => ?_
  exact meaning_bind_congr (meaning_require ..) fun _ _ => rfl

theorem meaning_withoutSakray (T : Twin S S' code) :
    S.meaning answer (withoutSakray S.image) = S'.meaning answer' (withoutSakray S'.image) := by
  refine meaning_bind_congr (T.meaning_theFacts ..) fun facts _ => ?_
  split
  · exact T.meaning_pastSignature ..
  · rfl

/-- what follows a signature in the code is in the code, or right behind it -/
theorem start_of_pastSignature (T : Twin S S' code) {sig : Signature} {missing : Fault} {start : UInt32}
    (h : S.meaning answer (pastSignature S.image sig missing) = .ok start) : code.rawOffset.toNat ≤ start.toNat := by
  obtain ⟨r, hr, h⟩ := exists_of_meaning_bind h
  obtain ⟨m, hm, h⟩ := exists_of_meaning_bind h
  obtain rfl := eq_some_of_meaning_require hm
  obtain rfl := Except.ok.inj h
  have hinside := T.inside answer hr
  omega

theorem start_of_withoutSakray (T : Twin S S' code) {start : UInt32}
    (h : S.meaning answer (withoutSakray S.image) = .ok start) : code.rawOffset.toNat ≤ start.toNat := by
  obtain ⟨facts, -, h⟩ := exists_of_meaning_bind h
  split at h
  · exact T.start_of_pastSignature answer h
  · cases h

theorem meaning_serverType (T : Twin S S' code) :
    S.meaning answer (serverType S.image) = S'.meaning answer' (serverType S'.image) := by
  refine meaning_bind_congr (T.meaning_text ..) fun r _ => ?_
  cases r with
  | some anchor =>
    exact meaning_bind_congr (T.meaning_pastSignature ..) fun start hstart =>
      T.meaning_assignedFlag _ _ (T.start_of_pastSignature _ hstart) _
  | none =>
    exact meaning_bind_congr (T.meaning_withoutSakray ..) fun start hstart =>
      T.meaning_assignedFlag _ _ (T.start_of_withoutSakray _ hstart) _

/-- the code that makes the window has room for the call -/
theorem start_of_makeWindowCode (T : Twin S S' code) {anchor : UInt32} {m : Sighting}
    (h : S.meaning answer (makeWindowCode S.image anchor) = .ok m) :
    code.rawOffset.toNat ≤ m.offset.toNat ∧ m.offset.toNat + 10 ≤ code.rawEnd.toNat := by
  obtain ⟨sig, hlong, hsighting⟩ := exists_of_makeWindowCode h
  have hinside := T.inside answer hsighting
  omega

theorem meaning_makeWindowCode (T : Twin S S' code) (anchor : UInt32) :
    S.meaning answer (makeWindowCode S.image anchor) = S'.meaning answer' (makeWindowCode S'.image anchor) := by
  refine meaning_bind_congr (T.meaning_signature ..) fun r _ => ?_
  cases r with
  | some m => rfl
  | none => exact meaning_bind_congr (T.meaning_signature ..) fun _ _ => meaning_require ..

theorem meaning_windowManager (T : Twin S S' code) :
    S.meaning answer (windowManager S.image) = S'.meaning answer' (windowManager S'.image) := by
  refine meaning_bind_congr (T.meaning_text ..) fun _ _ => meaning_bind_congr (meaning_require ..) fun anchor _ => ?_
  refine meaning_bind_congr (T.meaning_makeWindowCode ..) fun m hm => ?_
  obtain ⟨hstart, hend⟩ := T.start_of_makeWindowCode _ hm
  have hrawEnd := T.toNat_rawEnd
  have hlt := code.rawEnd.toNat_lt
  have hcall : (m.offset + 5).toNat = m.offset.toNat + 5 := by
    have hfive : (5 : UInt32).toNat = 5 := rfl
    refine Word.toNat_add_of_lt ?_
    have hsize : UInt32.size = 0x100000000 := rfl
    omega
  have htarget : S.image.callTarget (m.offset + 5) = S'.image.callTarget (m.offset + 5) :=
    T.alike.callTarget T.mem (by omega) (by omega)
  refine meaning_bind_congr (meaning_require ..) fun address _ => ?_
  refine meaning_bind_congr ?_ fun _ _ => rfl
  rw [meaning_ofExcept, meaning_ofExcept, htarget]

theorem meaning_importTable (T : Twin S S' code) :
    S.meaning answer (importTable S.image) = S'.meaning answer' (importTable S'.image) := by
  have hslot : S.image.importSlot? = S'.image.importSlot? := by
    funext function library
    rw [Image.importSlot?, Image.importSlot?, T.alike.imports]
  rw [importTable, importTable, meaning_ofExcept, meaning_ofExcept]
  simp only [importSlots, requireSlot, printSlot, hslot]

/-! ### The service type -/

/-- from there on the code has no room for an assignment -/
def TooLate (code : Section) (r : Except Fault UInt32) : Prop :=
  ∀ start, r = .ok start → code.rawEnd.toNat < start.toNat + 10

/-- both start at one place in the code, or neither starts anywhere from where an assignment could be found -/
def StartsAlike (code : Section) (r r' : Except Fault UInt32) : Prop :=
  r = r' ∧ (∀ start, r = .ok start → code.rawOffset.toNat ≤ start.toNat) ∨ TooLate code r ∧ TooLate code r'

theorem meaning_assignedFlag_of_tooLate {S : Survey κ} {answer : κ → Except Failure Finding} {start : UInt32}
    (h : S.image.codeRange.2.toNat < start.toNat + 10) (name : String) :
    S.meaning answer (assignedFlag S.image start name) = .error (.postconditionMissing (name ++ " not assigned")) := by
  have hsize : (flagAssignment name).size = 10 := rfl
  have hnone : S.image.findSignature (flagAssignment name) start S.image.codeRange.2 = none := by
    rw [Option.eq_none_iff_forall_ne_some]
    intro m hm
    obtain ⟨-, ⟨hstart, hend, -⟩, -⟩ := Image.findSignature_eq_some_iff.1 hm
    omega
  have hsearch : S.meaning answer (Plan.signatureIn (flagAssignment name) start S.image.codeRange.2) = .ok none :=
    congrArg Except.ok hnone
  rw [assignedFlag, meaning_bind, hsearch]
  rfl

/-- whatever comes too late leads to no value -/
theorem toOption_of_tooLate {S : Survey κ} {answer : κ → Except Failure Finding}
    (hcode : S.image.codeRange.2 = code.rawEnd) {plan : Plan κ UInt32} (h : TooLate code (S.meaning answer plan))
    (name : String) :
    (S.meaning answer (plan >>= fun start => assignedFlag S.image start name)).toOption = none := by
  rw [meaning_bind]
  cases hr : S.meaning answer plan with
  | error e => rfl
  | ok start =>
    change (S.meaning answer (assignedFlag S.image start name)).toOption = none
    rw [meaning_assignedFlag_of_tooLate (hcode ▸ h start hr)]
    rfl

theorem toOption_assignedFlag (T : Twin S S' code) {plan : Plan κ UInt32} {plan' : Plan κ' UInt32}
    (h : StartsAlike code (S.meaning answer plan) (S'.meaning answer' plan')) (name : String) :
    (S.meaning answer (plan >>= fun start => assignedFlag S.image start name)).toOption =
      (S'.meaning answer' (plan' >>= fun start => assignedFlag S'.image start name)).toOption := by
  rcases h with ⟨hsame, hstart⟩ | ⟨hlate, hlate'⟩
  · exact congrArg Except.toOption
      (meaning_bind_congr hsame fun start h => T.meaning_assignedFlag _ _ (hstart start h) name)
  · rw [toOption_of_tooLate (congrArg Prod.snd T.codeRange) hlate,
      toOption_of_tooLate (congrArg Prod.snd T.codeRange') hlate']

/-- where the code goes on after the copy, if that is there -/
def copyResult (call : Option Sighting) : Except Fault UInt32 :=
  match call with
  | some m => .ok m.offset
  | none => .error americaNotUsed

theorem meaning_copyCall {S : Survey κ} {answer : κ → Except Failure Finding} (start stop : UInt32) :
    S.meaning answer (do
        let call ← Plan.require americaNotUsed (← Plan.signatureIn copyCall start stop)
        return call.offset) =
      copyResult (S.image.findSignature copyCall start stop) := by
  change S.meaning answer (Plan.require americaNotUsed (S.image.findSignature copyCall start stop) >>=
    fun call => pure call.offset) = _
  cases S.image.findSignature copyCall start stop with
  | some call => rfl
  | none => rfl

theorem tooLate_copyResult {call : Option Sighting}
    (h : ∀ m, call = some m → code.rawEnd.toNat < m.offset.toNat + 10) : TooLate code (copyResult call) := by
  intro start hstart
  cases call with
  | none => contradiction
  | some m =>
    obtain rfl := Except.ok.inj hstart
    exact h m rfl

theorem startsAlike_error (code : Section) (f : Fault) : StartsAlike code (.error f) (.error f) :=
  .inl ⟨rfl, nofun⟩

/-- **A call past the code does no harm.** The window for it may reach past the code, but a call that both images do not
share ends behind the code, and so would the assignment. -/
theorem startsAlike_afterCopy (T : Twin S S' code) (hsize : S.image.bytes.size + 0x100 < UInt32.size)
    (anchor : UInt32) :
    StartsAlike code (S.meaning answer (afterCopy S.image anchor)) (S'.meaning answer' (afterCopy S'.image anchor)) := by
  refine meaning_bind_rel (startsAlike_error code) (T.meaning_signature ..) fun r hr => ?_
  refine meaning_bind_rel (startsAlike_error code) (meaning_require ..) fun m hm => ?_
  obtain rfl := eq_some_of_meaning_require hm
  obtain ⟨hstart, hend, -⟩ := T.inside answer hr
  have hrawEnd := T.toNat_rawEnd
  have hfile := Image.mapped_le_size T.mem
  have hcallSize : copyCall.size = 10 := rfl
  have hwindow : (m.offset + 0x40).toNat = m.offset.toNat + 0x40 := by
    have hshift : (0x40 : UInt32).toNat = 0x40 := rfl
    exact Word.toNat_add_of_lt (by omega)
  rw [meaning_copyCall, meaning_copyCall]
  generalize hcall : S.image.findSignature copyCall (m.offset + 0x40) (m.offset + 0x100) = call
  generalize hcall' : S'.image.findSignature copyCall (m.offset + 0x40) (m.offset + 0x100) = call'
  by_cases hinside : ∃ c, (call = some c ∨ call' = some c) ∧ c.offset.toNat + 10 ≤ code.rawEnd.toNat
  · -- a call inside the code is the first one on both sides
    obtain ⟨c, hc, hcend⟩ := hinside
    have hboth : call = some c ∧ call' = some c := by
      rcases hc with rfl | rfl
      · exact ⟨rfl, hcall'.symm.trans (T.alike.findSignature_of_inside T.mem (by omega) hcall (by omega))⟩
      · exact ⟨hcall.symm.trans (T.alike.symm.findSignature_of_inside (T.alike.sections ▸ T.mem) (by omega) hcall'
          (by omega)), rfl⟩
    obtain ⟨rfl, rfl⟩ := hboth
    refine .inl ⟨rfl, fun start h => ?_⟩
    obtain rfl := Except.ok.inj h
    obtain ⟨-, ⟨hcstart, -⟩, -⟩ := Image.findSignature_eq_some_iff.1 hcall
    omega
  · refine .inr ⟨tooLate_copyResult fun c hc => ?_, tooLate_copyResult fun c hc => ?_⟩
    · exact Nat.lt_of_not_le fun hle => hinside ⟨c, .inl hc, hle⟩
    · exact Nat.lt_of_not_le fun hle => hinside ⟨c, .inr hc, hle⟩

theorem startsAlike_afterAmerica (T : Twin S S' code) (hsize : S.image.bytes.size + 0x100 < UInt32.size)
    (anchor : UInt32) : StartsAlike code (S.meaning answer (afterAmerica S.image anchor))
      (S'.meaning answer' (afterAmerica S'.image anchor)) := by
  refine meaning_bind_rel (startsAlike_error code) (T.meaning_signature ..) fun r hr => ?_
  cases r with
  | some m =>
    refine .inl ⟨rfl, fun start h => ?_⟩
    obtain rfl := Except.ok.inj h
    have hinside := T.inside answer hr
    omega
  | none =>
    refine meaning_bind_rel (startsAlike_error code) (T.meaning_theFacts ..) fun facts _ => ?_
    split
    · exact T.startsAlike_afterCopy _ _ hsize anchor
    · exact startsAlike_error code _

theorem startsAlike_withoutAmerica (T : Twin S S' code) : StartsAlike code (S.meaning answer (withoutAmerica S.image))
    (S'.meaning answer' (withoutAmerica S'.image)) := by
  refine meaning_bind_rel (startsAlike_error code) (T.meaning_theFacts ..) fun facts _ => ?_
  split
  · exact .inl ⟨T.meaning_pastSignature .., fun _ h => T.start_of_pastSignature answer h⟩
  · exact startsAlike_error code _

/-- **The service type is the same, or there is none** on either side. -/
theorem toOption_meaning_serviceType (T : Twin S S' code) (hsize : S.image.bytes.size + 0x100 < UInt32.size) :
    (S.meaning answer (serviceType S.image)).toOption = (S'.meaning answer' (serviceType S'.image)).toOption := by
  refine meaning_bind_rel (R := fun r r' => r.toOption = r'.toOption) (fun _ => rfl) (T.meaning_text ..) fun r _ => ?_
  cases r with
  | some anchor => exact T.toOption_assignedFlag _ _ (T.startsAlike_afterAmerica _ _ hsize anchor) _
  | none => exact T.toOption_assignedFlag _ _ (T.startsAlike_withoutAmerica ..) _

end Twin

/-! ## Answers -/

section

variable {scripts : Nat} {image : Image} {t : Thresholds} {steps : Fin scripts → List (Finder.Step (FinderKey scripts))}

/-- a built-in finder answers what its plan means, whatever was requested before -/
theorem load_builtIn (answer : FinderKey scripts → Except Failure Finding) {key : FinderKey scripts}
    (hkey : key ∈ FinderKey.builtIn) (requests : List (Request (FinderKey scripts))) :
    ((standard image t steps).load key ((standard image t steps).afterAll .start requests)).1 =
      (standard image t steps).conclude key ((standard image t steps).meaning answer (FinderKey.plan image steps key)) := by
  rw [afterAll_start]
  exact load_of_confined answer (confined_builtIn image steps hkey) _

end

/-- no finder has a value; what a finder means that asks for nobody does not depend on it -/
def noAnswer : κ → Except Failure Finding :=
  fun _ => .error ⟨"", .cyclic ""⟩

theorem facts_afterAll [DecidableEq κ] (S : Survey κ) (requests : List (Request κ)) :
    (S.facts (S.afterAll .start requests)).1 = S.clientFacts := by
  rw [afterAll_start]
  exact (S.informed_reached _).facts_fst

theorem mem_builtIn {scripts : Nat} {key : FinderKey scripts} (h : ∀ n, key ≠ .script n) : key ∈ FinderKey.builtIn := by
  cases key with
  | script n => exact absurd rfl (h n)
  | _ => simp [FinderKey.builtIn]

section

variable {scripts : Nat} {image : Image} {t : Thresholds} {steps : Fin scripts → List (Finder.Step (FinderKey scripts))}
  {key : FinderKey scripts} {α : Type} {plan : Plan (FinderKey scripts) α} (wrap : α → Finding)

/-- a built-in finder finds what the plan comes to whose value it wraps -/
theorem load_eq_ok_iff (hkey : key ∈ FinderKey.builtIn)
    (hplan : FinderKey.plan image steps key = plan >>= fun a => pure (wrap a))
    (requests : List (Request (FinderKey scripts))) {value : Finding} :
    ((standard image t steps).load key ((standard image t steps).afterAll .start requests)).1 = .ok value ↔
      ∃ a, (standard image t steps).meaning noAnswer plan = .ok a ∧ value = wrap a := by
  rw [load_builtIn noAnswer hkey, hplan, meaning_bind]
  cases (standard image t steps).meaning noAnswer plan with
  | ok a =>
    exact ⟨fun h => ⟨a, rfl, (Except.ok.inj h).symm⟩, fun ⟨_, ha, h⟩ => Except.ok.inj ha ▸ congrArg Except.ok h.symm⟩
  | error fault => exact iff_of_false nofun nofun

/-- and it fails for the same reasons -/
theorem load_eq_error_iff (hkey : key ∈ FinderKey.builtIn)
    (hplan : FinderKey.plan image steps key = plan >>= fun a => pure (wrap a))
    (requests : List (Request (FinderKey scripts))) {failure : Failure} :
    ((standard image t steps).load key ((standard image t steps).afterAll .start requests)).1 = .error failure ↔
      ∃ fault, (standard image t steps).meaning noAnswer plan = .error fault ∧ failure = ⟨key.name, fault⟩ := by
  rw [load_builtIn noAnswer hkey, hplan, meaning_bind]
  cases (standard image t steps).meaning noAnswer plan with
  | ok a => exact iff_of_false nofun nofun
  | error fault =>
    exact ⟨fun h => ⟨fault, rfl, (Except.error.inj h).symm⟩,
      fun ⟨_, hf, h⟩ => Except.error.inj hf ▸ congrArg Except.error h.symm⟩

end

theorem toOption_meaning_map (S : Survey κ) (answer : κ → Except Failure Finding) {α β : Type} (plan : Plan κ α)
    (g : α → β) : (S.meaning answer (plan >>= fun a => pure (g a))).toOption = (S.meaning answer plan).toOption.map g := by
  rw [meaning_bind]
  cases S.meaning answer plan <;> rfl

theorem toOption_conclude (S : Survey κ) (key : κ) (r : Except Fault Finding) :
    (S.conclude key r).toOption = r.toOption := by
  cases r <;> rfl

/-- **Mapped bytes decide.** Let two images show the same mapped bytes, the first section of code being long enough for the
prologue window, and one of them, at least, being not quite as large as a file can be. With the same thresholds they have
the same facts, and in surveys with any scripts and after any requests the data archive, the server type, the window manager
and the import table come to the same. The service type is the same on both sides, or there is none on either. -/
theorem mapped_bytes_decide {A B : Image} (h : A.Alike B) (hsize : A.bytes.size + 0x100 < UInt32.size) {t : Thresholds}
    {code : Section} (hcode : A.sections.find? (·.executable) = some code)
    (hwindow : (ClientFacts.appliedShift A t).toNat + t.prologueWindow.toNat ≤ code.mappedCount) :
    (∀ log log', ((ClientFacts.survey A t).run log).1 = ((ClientFacts.survey B t).run log').1) ∧
    ∀ {scripts scripts' : Nat} (steps : Fin scripts → List (Finder.Step (FinderKey scripts)))
      (steps' : Fin scripts' → List (Finder.Step (FinderKey scripts'))) (requests : List (Request (FinderKey scripts)))
      (requests' : List (Request (FinderKey scripts'))),
      let S := standard A t steps
      let S' := standard B t steps'
      let st := S.afterAll .start requests
      let st' := S'.afterAll .start requests'
      (S.facts st).1 = (S'.facts st').1 ∧
      (S.load .archive st).1 = (S'.load .archive st').1 ∧
      (S.load .serverType st).1 = (S'.load .serverType st').1 ∧
      (S.load .windowManager st).1 = (S'.load .windowManager st').1 ∧
      (S.load .imports st).1 = (S'.load .imports st').1 ∧
      (S.load .serviceType st).1.toOption = (S'.load .serviceType st').1.toOption := by
  have htwin : ∀ {scripts scripts' : Nat} (steps : Fin scripts → List (Finder.Step (FinderKey scripts)))
      (steps' : Fin scripts' → List (Finder.Step (FinderKey scripts'))),
      Twin (standard A t steps) (standard B t steps') code := fun _ _ => ⟨h, rfl, hcode, hwindow⟩
  refine ⟨(htwin (fun _ : Fin 0 => []) (fun _ : Fin 0 => [])).same_survey, ?_⟩
  intro scripts scripts' steps steps' requests requests' S S' st st'
  have T : Twin S S' code := htwin steps steps'
  have hload : ∀ key, (∀ n, key ≠ .script n) → (S.load key st).1 = S.conclude key (S.meaning noAnswer (S.plan key)) :=
    fun key hkey => load_builtIn noAnswer (mem_builtIn hkey) requests
  have hload' : ∀ key, (∀ n, key ≠ .script n) →
      (S'.load key st').1 = S'.conclude key (S'.meaning noAnswer (S'.plan key)) :=
    fun key hkey => load_builtIn noAnswer (mem_builtIn hkey) requests'
  refine ⟨?_, ?_, ?_, ?_, ?_, ?_⟩
  · rw [facts_afterAll, facts_afterAll, T.clientFacts]
  · rw [hload .archive nofun, hload' .archive nofun]
    exact congrArg (Except.mapError (Failure.mk _)) (meaning_bind_congr (T.meaning_archive ..) fun _ _ => rfl)
  · rw [hload .serverType nofun, hload' .serverType nofun]
    exact congrArg (Except.mapError (Failure.mk _)) (meaning_bind_congr (T.meaning_serverType ..) fun _ _ => rfl)
  · rw [hload .windowManager nofun, hload' .windowManager nofun]
    exact congrArg (Except.mapError (Failure.mk _)) (meaning_bind_congr (T.meaning_windowManager ..) fun _ _ => rfl)
  · rw [hload .imports nofun, hload' .imports nofun]
    exact congrArg (Except.mapError (Failure.mk _)) (meaning_bind_congr (T.meaning_importTable ..) fun _ _ => rfl)
  · rw [hload .serviceType nofun, hload' .serviceType nofun, toOption_conclude, toOption_conclude]
    calc (S.meaning noAnswer (S.plan .serviceType)).toOption
      _ = (S.meaning noAnswer (Finder.serviceType A)).toOption.map .global := toOption_meaning_map ..
      _ = (S'.meaning noAnswer (Finder.serviceType B)).toOption.map .global :=
        congrArg _ (T.toOption_meaning_serviceType _ _ hsize)
      _ = (S'.meaning noAnswer (S'.plan .serviceType)).toOption := (toOption_meaning_map ..).symm

/-- the text america and code that copies it, between a header and what follows the sections -/
def copyFile (header rest : List UInt8) : Array UInt8 :=
  (header ++ [0x8B, 0x05, 0x00, 0x20, 0x40, 0x00, 0xC6, 0x85, 0xF0, 0xFF, 0xFF, 0xFF, 0x00] ++
    [0x61, 0x6D, 0x65, 0x72, 0x69, 0x63, 0x61, 0x00] ++ rest).toArray

/-- image of such a file, the header taking four bytes -/
def copyDraft (header rest : List UInt8) : Draft where
  bytes := copyFile header rest
  sections := [.code ".text" 4 13 0x401000, .data ".data" 17 8 0x402000]
  imports := []
  metadata := { Metadata.unknown with linker := ⟨14, 29⟩ }

/-- behind the sections, in reach of the window, a call follows the copy -/
def leakyImage : Image where
  toDraft := copyDraft [0, 0, 0, 0] (.replicate 43 0 ++ [0x6A, 0x07, 0x50, 0x50, 0x50, 0xE8, 0, 0, 0, 0])
  sound := by decide

/-- another header, and nothing behind the sections -/
def trimmedImage : Image where
  toDraft := copyDraft [1, 2, 3, 4] []
  sound := by decide

theorem leakyImage_alike : leakyImage.Alike trimmedImage where
  sections := rfl
  imports := rfl
  metadata := rfl
  bytes := by
    have hsame : ∀ k < 25, 4 ≤ k → leakyImage.bytes[k]? = trimmedImage.bytes[k]? := by decide
    intro s hs k hk hk'
    rcases List.mem_pair.1 hs with rfl | rfl
    · change 4 ≤ k at hk
      change k < 17 at hk'
      exact hsame k (by omega) hk
    · change 17 ≤ k at hk
      change k < 25 at hk'
      exact hsame k hk' (by omega)

/-- The call behind the sections is found, but nothing that follows it; without it the search ends a step earlier. -/
theorem leakyImage_decides :
    let t := { Thresholds.standard with prologueWindow := 8 }
    let S := standard leakyImage t (fun _ : Fin 0 => [])
    let S' := standard trimmedImage t (fun _ : Fin 0 => [])
    (S.load .serviceType .start).1 = .error ⟨"LANGTYPE", .postconditionMissing "g_serviceType not assigned"⟩ ∧
    (S'.load .serviceType .start).1 = .error ⟨"LANGTYPE", .signatureMissing "'america' not used"⟩ ∧
    (S.load .serviceType .start).1.toOption = (S'.load .serviceType .start).1.toOption ∧
    (S.facts .start).1 = (S'.facts .start).1 ∧
    (S.load .windowManager .start).1 = (S'.load .windowManager .start).1 := by
  intro t S S'
  obtain ⟨-, hall⟩ := mapped_bytes_decide leakyImage_alike (by decide) (t := t) rfl (by decide)
  obtain ⟨hfacts, -, -, hwindow, -, hservice⟩ := hall (fun _ : Fin 0 => []) (fun _ : Fin 0 => []) [] []
  exact ⟨by decide +kernel, by decide +kernel, hservice, hfacts, hwindow⟩

end Survey

end Landmark
