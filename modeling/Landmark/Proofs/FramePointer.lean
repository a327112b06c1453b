/-
When a client's code is taken to set up frame pointers.

Five paddings of one kind with the start of such a function behind them are one string of eight bytes (`paddedPrologue_eq`),
so that a search for either kind of padding is a search for a fixed string. It goes through a window in the file that starts
where the code starts, or some way behind that in later builds, and its ends stop at the largest word.
- `frameStart`, `frameStop`: the ends of the window, in `Nat` (`toNat_prologueWindow`).
- `SetsUpFrame`: one of the two strings takes up the eight bytes from an offset on.
- `framePointer_exact`: the facts tell of frame pointers exactly if such a string lies wholly in the window and in the file.
-/
import Landmark.ClientFacts
import Landmark.Proofs.Signature.Capture
import Landmark.Proofs.Signature.Language
import Landmark.Proofs.Word

namespace Landmark

namespace Image

/-- file offset of the first executable section of the table, zero if there is none -/
def codeStart (image : Image) : Nat :=
  ((image.sections.find? (·.executable)).map (·.rawOffset.toNat)).getD 0

/-- PUSH EBP and MOV EBP, ESP behind five INT3 or five NOP -/
def frameCode : List (List UInt8) := [
  [0xCC, 0xCC, 0xCC, 0xCC, 0xCC, 0x55, 0x8B, 0xEC],
  [0x90, 0x90, 0x90, 0x90, 0x90, 0x55, 0x8B, 0xEC]]

/-- the eight bytes from the file offset `p` on are of this kind -/
def SetsUpFrame (image : Image) (p : Nat) : Prop :=
  (image.bytes.extract p (p + 8)).toList ∈ frameCode

theorem toNat_codeRange_fst (image : Image) : image.codeRange.1.toNat = image.codeStart := by
  unfold codeRange codeStart
  cases image.sections.find? (·.executable) <;> rfl

end Image

namespace ClientFacts

variable {image : Image} {t : Thresholds}

/-! ## The window -/

/-- start of the window: that of the code, or `codeShift` bytes behind it in builds after `codeShiftAfter` -/
def frameStart (image : Image) (t : Thresholds) : Nat :=
  min (image.codeStart + if t.codeShiftAfter < image.metadata.buildDate.value then t.codeShift.toNat else 0) 0xFFFFFFFF

/-- end of the window -/
def frameStop (image : Image) (t : Thresholds) : Nat :=
  min (frameStart image t + t.prologueWindow.toNat) 0xFFFFFFFF

theorem toNat_prologueWindow (image : Image) (t : Thresholds) :
    (prologueWindow image t).1.toNat = frameStart image t ∧ (prologueWindow image t).2.toNat = frameStop image t := by
  have hstart : (prologueWindow image t).1.toNat = frameStart image t := by
    rw [prologueWindow, Word.toNat_addSat, Image.toNat_codeRange_fst, apply_ite UInt32.toNat]
    rfl
  refine ⟨hstart, ?_⟩
  rw [frameStop, ← hstart]
  exact Word.toNat_addSat _ _

/-! ## The search -/

/-- five paddings of one byte and the start of the function are one literal -/
theorem paddedPrologue_eq (b : UInt8) :
    paddedPrologue (.literal [b]) = .literal [b, b, b, b, b, 0x55, 0x8B, 0xEC] := by
  rw [paddedPrologue, Instruction.framePrologue, Signature.replicate_literal, Signature.literal_append]
  rfl

/-- a search for `n` bytes finds something where they lie wholly in the window and in the file -/
theorem isSome_findSignature_literal {bs : List UInt8} {n : Nat} (hlength : bs.length = n) (hpos : 0 < n)
    {start stop : UInt32} : (image.findSignature (.literal bs) start stop).isSome = true ↔
      ∃ p, start.toNat ≤ p ∧ p + n ≤ min stop.toNat image.bytes.size ∧ (image.bytes.extract p (p + n)).toList = bs := by
  subst hlength
  have hsize : (Signature.literal bs).size = bs.length := Signature.size_literal bs
  rw [(image.findSignature_exact (.literal bs) start stop).1, hsize, and_iff_right hpos]
  refine exists_congr fun p => and_congr_right fun _ => ?_
  rw [hsize]
  refine and_congr_right fun hend => ?_
  have hroom : p + bs.length ≤ image.bytes.size := hend.trans (Nat.min_le_right _ _)
  rw [Signature.matches_iff_accepted (hsize ▸ hroom)]
  simp only [Signature.accepts_literal, exists_eq_left, Segment.standsAt_iff_extract hroom]

theorem run_detectFramePointer (image : Image) (t : Thresholds) (log : ScanLog) :
    ((detectFramePointer image t).run log).1 =
      ((image.findSignature (paddedPrologue Instruction.int3) (prologueWindow image t).1
          (prologueWindow image t).2).isSome ||
        (image.findSignature (paddedPrologue Instruction.nop) (prologueWindow image t).1
          (prologueWindow image t).2).isSome) := by
  unfold detectFramePointer
  cases h : image.findSignature (paddedPrologue Instruction.int3) (prologueWindow image t).1
      (prologueWindow image t).2 with
  | none => simp [Scan.signatureIn, h]; rfl
  | some m => simp [Scan.signatureIn, h]; rfl

theorem detectFramePointer_iff (log : ScanLog) : ((detectFramePointer image t).run log).1 = true ↔
    ∃ p, frameStart image t ≤ p ∧ p + 8 ≤ min (frameStop image t) image.bytes.size ∧ image.SetsUpFrame p := by
  obtain ⟨hstart, hstop⟩ := toNat_prologueWindow image t
  have hfound : ∀ b : UInt8, (image.findSignature (paddedPrologue (.literal [b])) (prologueWindow image t).1
      (prologueWindow image t).2).isSome = true ↔
        ∃ p, frameStart image t ≤ p ∧ p + 8 ≤ min (frameStop image t) image.bytes.size ∧
          (image.bytes.extract p (p + 8)).toList = [b, b, b, b, b, 0x55, 0x8B, 0xEC] := by
    intro b
    rw [paddedPrologue_eq, isSome_findSignature_literal (n := 8) rfl (by decide), hstart, hstop]
  rw [run_detectFramePointer, Bool.or_eq_true, Instruction.int3, Instruction.nop, hfound, hfound, ← exists_or]
  refine exists_congr fun p => ?_
  rw [← and_or_left, ← and_or_left, Image.SetsUpFrame, Image.frameCode, List.mem_pair]

/-- searches made for other facts do not count -/
theorem hasFramePointer_survey (image : Image) (t : Thresholds) (log : ScanLog) : ∃ log',
    ((survey image t).run log).1.hasFramePointer = ((detectFramePointer image t).run log').1 :=
  ⟨_, rfl⟩

/-- **Frame pointers are told of exactly where code sets one up.** Whatever was searched before, the facts have frame
pointers if and only if one of the two strings lies wholly in the window and in the file, and stack addresses are counted
from EBP in that case and from ESP in all others. -/
theorem framePointer_exact (image : Image) (t : Thresholds) (log : ScanLog) :
    let facts := ((survey image t).run log).1
    let setUp := ∃ p, frameStart image t ≤ p ∧ p + 8 ≤ min (frameStop image t) image.bytes.size ∧ image.SetsUpFrame p
    (facts.hasFramePointer = true ↔ setUp) ∧ (facts.stackRegister = .ebp ↔ setUp) ∧
      (facts.stackRegister = .esp ↔ ¬ setUp) := by
  intro facts setUp
  have htold : facts.hasFramePointer = true ↔ setUp := by
    obtain ⟨log', hlog⟩ := hasFramePointer_survey image t log
    rw [hlog]
    exact detectFramePointer_iff log'
  refine ⟨htold, ?_⟩
  rw [← htold, stackRegister]
  cases facts.hasFramePointer <;> decide

/-- the string between two other bytes, in a file without sections -/
def framedImage : Image where
  bytes := #[0x00, 0x90, 0x90, 0x90, 0x90, 0x90, 0x55, 0x8B, 0xEC, 0x00]
  sections := []
  imports := []
  metadata := .unknown
  sound := rfl

/-- a window that ends with the string has it, one that ends a byte earlier has not -/
example :
    ((detectFramePointer framedImage { Thresholds.standard with prologueWindow := 9 }).run .empty).1 = true ∧
      ((detectFramePointer framedImage { Thresholds.standard with prologueWindow := 8 }).run .empty).1 = false := by
  decide

end ClientFacts

end Landmark
