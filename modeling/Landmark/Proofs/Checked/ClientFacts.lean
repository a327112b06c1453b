/-
The facts about a client take every step in range.

`Checked.facts` surveys an image as `ClientFacts.survey` does, by checked searches. The window for the prologue is the only
one that thresholds shape; its ends stop at the largest word, and a search stays in range in any window. `FindsAs` says of a
checked program that it meets no hazard and finds what a scan finds, whatever is on record; sequencing keeps it
(`FindsAs.bind`), and `facts_findsAs` puts the survey together from its searches.
-/
import Landmark.Proofs.Checked.Signature
import Landmark.Proofs.Checked.Text
import Landmark.Proofs.ClientFacts

namespace Landmark.Checked

/-- name of the library, on its own or else within another text -/
def locateKernel32 (image : Image) : Checked (Option UInt32) := do
  let name := rawText "KERNEL32.dll"
  match ← findText image name TextQuery.plain.anyCase image.sections with
  | some v => return some v
  | none => findText image name TextQuery.plain.anyCase.unbounded image.sections

/-- a function that sets up a frame pointer comes right after padding near the start of the code -/
def detectFramePointer (image : Image) (t : Thresholds) : Checked Bool := do
  let (start, stop) := ClientFacts.prologueWindow image t
  match ← findSignature image (ClientFacts.paddedPrologue Instruction.int3) start stop with
  | some _ => return true
  | none => return (← findSignature image (ClientFacts.paddedPrologue Instruction.nop) start stop).isSome

/-- name and place of the client information file -/
def locateClientInfo (image : Image) (t : Thresholds) : Checked (String × Option UInt32) := do
  let find name := findText image (rawText name) TextQuery.plain.anyCase image.sections
  if image.metadata.buildDate.value < t.sakrayClientInfoFrom then return ("clientinfo.xml", none)
  else
    match ← find "sclientinfo.xml" with
    | some v => return ("sclientinfo.xml", some v)
    | none => return ("clientinfo.xml", ← find "clientinfo.xml")

/-- all facts about the client in an image -/
def facts (image : Image) (t : Thresholds) : Checked ClientFacts := do
  let find needle q := findText image needle q image.sections
  let rdataGrf ← find (rawText "rdata.grf") TextQuery.plain.physical
  let zeroMark ← find (rawText "Software\\Gravity Soft\\RenewSetup Zero") TextQuery.plain.physical.unbounded
  let hasFramePointer ← detectFramePointer image t
  let cashShop ← find (rawText "NC_CashShop") .plain
  let roulette ← find rouletteIcon TextQuery.plain.anyCase
  let adventurerAgency ← find (rawText "adventurerAgency") .plain
  let kernel32 ← locateKernel32 image
  let (clientInfo, clientInfoAddress) ← locateClientInfo image t
  return {
    metadata := image.metadata, thresholds := t
    rdataGrf, isZero := zeroMark.isSome
    hasFramePointer, cashShop, roulette, adventurerAgency, kernel32, clientInfo, clientInfoAddress }

/-- no hazard, and what the scan finds, whatever is on record -/
def FindsAs {α : Type} (c : Checked α) (s : Scan α) : Prop :=
  ∀ log, c = .ok (s.run log).1

section

variable {α β : Type}

theorem findsAs_pure (a : α) : FindsAs (pure a) (pure a) := fun _ => rfl

theorem FindsAs.bind {c : Checked α} {s : Scan α} {f : α → Checked β} {g : α → Scan β} (h : FindsAs c s)
    (hf : ∀ a, FindsAs (f a) (g a)) : FindsAs (c >>= f) (s >>= g) := by
  intro log
  calc c >>= f
    _ = f (s.run log).1 := by rw [h log, ok_bind]
    _ = .ok ((g (s.run log).1).run (s.run log).2).1 := hf _ _
    _ = .ok ((s >>= g).run log).1 := rfl

end

variable (image : Image) (t : Thresholds)

theorem text_findsAs (needle : List UInt8) (q : TextQuery) :
    FindsAs (findText image needle q image.sections) (Scan.text image needle q) :=
  fun _ => findText_eq image needle q

theorem signature_findsAs (sig : Signature) (start stop : UInt32) :
    FindsAs (findSignature image sig start stop) (Scan.signatureIn image sig start stop) :=
  fun _ => findSignature_eq image sig start stop

theorem kernel32_findsAs : FindsAs (locateKernel32 image) (ClientFacts.locateKernel32 image) := by
  refine (text_findsAs image _ _).bind fun r => ?_
  cases r with
  | some v => exact findsAs_pure _
  | none => exact text_findsAs image _ _

theorem framePointer_findsAs : FindsAs (detectFramePointer image t) (ClientFacts.detectFramePointer image t) := by
  refine (signature_findsAs image _ _ _).bind fun r => ?_
  cases r with
  | some m => exact findsAs_pure _
  | none => exact (signature_findsAs image _ _ _).bind fun _ => findsAs_pure _

theorem clientInfo_findsAs : FindsAs (locateClientInfo image t) (ClientFacts.locateClientInfo image t) := by
  unfold locateClientInfo ClientFacts.locateClientInfo
  split
  · exact findsAs_pure _
  · refine (text_findsAs image _ _).bind fun r => ?_
    cases r with
    | some v => exact findsAs_pure _
    | none => exact (text_findsAs image _ _).bind fun _ => findsAs_pure _

/-- **The facts take every step in range**, with any thresholds. -/
theorem facts_findsAs : FindsAs (facts image t) (ClientFacts.survey image t) := by
  refine (text_findsAs image _ _).bind fun _ => (text_findsAs image _ _).bind fun _ => ?_
  refine (framePointer_findsAs image t).bind fun _ => ?_
  refine (text_findsAs image _ _).bind fun _ => (text_findsAs image _ _).bind fun _ => ?_
  refine (text_findsAs image _ _).bind fun _ => ?_
  exact (kernel32_findsAs image).bind fun _ => (clientInfo_findsAs image t).bind fun _ => findsAs_pure _

end Landmark.Checked
