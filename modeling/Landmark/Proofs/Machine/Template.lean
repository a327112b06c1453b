/-
Templates with operand fields match the instructions they name, field by field.

A `Template` is one of the instruction forms with 32-bit operands, and says of it what a manual says: the opcode and ModRM
bytes (`Opens`), how many bytes it takes up, where its fields are (`fieldAt`), and what stands behind them. `FitsAt` puts
this together for the bytes of an image, each field being read as a word.
- `matches_operands`, `capturesOf_operands`: fields one behind the other, by induction on the operands.
- `signature_eq`: every template is an opening, its fields and a closing.
- `matches_iff_fitsAt`, `captures_signature`: so it matches where the instruction is, and captures are fields.
- `template_exact`: all of it together.
-/
import Landmark.Proofs.Machine.Encoding
import Landmark.Proofs.Signature.Capture

namespace Landmark

open Segment

/-! ## Fields -/

namespace Operand

/-- the operand as a capture, if it is one, its field being at `k` -/
def captureAt (k : Nat) : Operand → Option Signature.Capture
  | capture name => some ⟨k, name, .dword, none⟩
  | _ => none

theorem size_signature (op : Operand) : op.signature.size = 4 := by
  cases op with
  | value v => rfl
  | any => rfl
  | negative free =>
    rw [signature, Signature.size_append, Signature.size_any, Signature.size_literal, List.length_replicate]
    omega
  | capture name => rfl

/-- a field matches exactly if the operand allows the word in it -/
theorem matches_signature {image : Image} {i : Nat} (h : i + 4 ≤ image.bytes.size) (op : Operand) :
    op.signature.Matches image.bytes i ↔ op.Allows (image.wordAt i) := by
  have hroom : i + op.signature.size ≤ image.bytes.size := by
    rw [op.size_signature]
    exact h
  rw [Signature.matches_iff_accepted hroom]
  simp only [accepts_iff]
  constructor
  · rintro ⟨_, ⟨w, hw, rfl⟩, hstands⟩
    rwa [(standsAt_bytes_iff h).1 hstands]
  · intro hallows
    exact ⟨_, ⟨_, hallows, rfl⟩, (standsAt_bytes_iff h).2 rfl⟩

theorem capturesOf_signature (op : Operand) (k : Nat) :
    Signature.capturesOf k op.signature.segments = (op.captureAt k).toList := by
  cases op with
  | negative free =>
    have hnone : ∀ s : Segment, (∀ j, s.captureAt j = none) → ∀ j,
        Signature.capturesOf j (Signature.empty.push s).segments = [] := by
      intro s hs j
      by_cases hzero : s.size = 0
      · rw [Signature.push_of_empty hzero]
        rfl
      · rw [Signature.segments_push hzero]
        change Signature.capturesOf j [s] = []
        rw [Signature.capturesOf_cons, hs]
        rfl
    rw [signature, Signature.capturesOf_append, Signature.any, Signature.literal, hnone _ fun _ => rfl, hnone _ fun _ => rfl]
    rfl
  | _ => rfl

/-- a negative operand allows the values that its free bytes leave, read in two's complement -/
theorem allows_negative_iff (free : Nat) (w : UInt32) : (negative free).Allows w ↔
    (free < 4 → -(Nat.pow 0x100 free : Int) ≤ w.toBitVec.toInt ∧ w.toBitVec.toInt ≤ -1) := by
  have hw := w.toNat_lt
  have hsize : UInt32.size = 0x100000000 := rfl
  have hsigned : w.toBitVec.toInt = if 2 * w.toNat < 0x100000000 then (w.toNat : Int) else w.toNat - 0x100000000 :=
    BitVec.toInt_eq_toNat_cond w.toBitVec
  have hspan : ∀ f < 4, freeSpan f = Nat.pow 0x100 f ∧ freeSpan f ≤ 0x1000000 := by decide
  rw [Allows, hsigned]
  by_cases hfree : free < 4
  · obtain ⟨hpow, hle⟩ := hspan free hfree
    rw [← hpow, imp_iff_right hfree]
    split <;> omega
  · obtain ⟨more, rfl⟩ := Nat.exists_eq_add_of_le' (Nat.not_lt.1 hfree)
    exact iff_of_true (by simp only [freeSpan]; omega) fun h => absurd h hfree

end Operand

namespace Signature

theorem size_operands (ops : List Operand) : (collect (ops.map Operand.signature)).size = 4 * ops.length := by
  induction ops with
  | nil => rfl
  | cons op ops ih =>
    rw [List.map_cons, collect_cons, size_append, op.size_signature, ih, List.length_cons]
    omega

/-- **Fields one behind the other match if each of them does.** -/
theorem matches_operands {image : Image} {ops : List Operand} {i : Nat} (h : i + 4 * ops.length ≤ image.bytes.size) :
    (collect (ops.map Operand.signature)).Matches image.bytes i ↔
      ∀ (k : Nat) (op : Operand), ops[k]? = some op → op.Allows (image.wordAt (i + 4 * k)) := by
  induction ops generalizing i with
  | nil => exact iff_of_true trivial fun k op hop => absurd hop (by simp)
  | cons op ops ih =>
    have hlength : (op :: ops).length = ops.length + 1 := rfl
    have hsize := size_operands (op :: ops)
    rw [List.map_cons, collect_cons] at hsize ⊢
    rw [matches_append (by omega), op.size_signature, op.matches_signature (by omega), ih (by omega)]
    constructor
    · rintro ⟨hfirst, hrest⟩ k op' hop'
      cases k with
      | zero =>
        obtain rfl := Option.some.inj hop'
        exact hfirst
      | succ k =>
        have hplace : i + 4 * (k + 1) = i + 4 + 4 * k := by omega
        rw [hplace]
        exact hrest k op' hop'
    · intro hall
      refine ⟨hall 0 op rfl, fun k op' hop' => ?_⟩
      have hplace : i + 4 + 4 * k = i + 4 * (k + 1) := by omega
      rw [hplace]
      exact hall (k + 1) op' hop'

theorem capturesOf_operands (ops : List Operand) (k : Nat) : capturesOf k (collect (ops.map Operand.signature)).segments =
    (ops.mapIdx fun n op => op.captureAt (k + 4 * n)).filterMap id := by
  induction ops generalizing k with
  | nil => rfl
  | cons op ops ih =>
    have hshift : (fun n (op : Operand) => op.captureAt (k + 4 * (n + 1))) = fun n op => op.captureAt (k + 4 + 4 * n) := by
      funext n op
      rw [Nat.mul_succ, Nat.add_comm (4 * n), Nat.add_assoc]
    rw [List.map_cons, collect_cons, capturesOf_append, op.capturesOf_signature, op.size_signature, ih, List.mapIdx_cons, hshift]
    cases op.captureAt k <;> rfl

end Signature

/-! ## Templates -/

namespace Instruction

/-- an instruction with 32-bit operands, as it is looked for -/
inductive Template where
  | movRegImm (r : Register) (imm : Operand)
  | movAnyRegMem (mem : Operand)
  | movMemImm (mem imm : Operand)
  | movByteFrame (disp : Operand) (value : UInt8)
  | setneMem (mem : Operand)
  | pushImm32 (imm : Operand)
  | callRel (rel : Operand)

namespace Template

def signature : Template → Signature
  | movRegImm r imm => Instruction.movRegImm r imm
  | movAnyRegMem mem => Instruction.movAnyRegMem mem
  | movMemImm mem imm => Instruction.movMemImm mem imm
  | movByteFrame disp value => Instruction.movByteFrame disp value
  | setneMem mem => Instruction.setneMem mem
  | pushImm32 imm => Instruction.pushImm32 imm
  | callRel rel => Instruction.callRel rel

/-- number of bytes, whatever the operands -/
def size : Template → Nat
  | movRegImm _ _ => 5
  | movAnyRegMem _ => 6
  | movMemImm _ _ => 10
  | movByteFrame _ _ => 7
  | setneMem _ => 7
  | pushImm32 _ => 5
  | callRel _ => 5

/-- these are opcode and ModRM bytes of the instruction -/
def Opens : Template → List UInt8 → Prop
  | movRegImm r _, bs => bs = [0xB8 + r.code]
  | movAnyRegMem _, bs => ∃ r : Register, bs = [0x8B, 0x05 + 8 * r.code]
  | movMemImm _ _, bs => bs = [0xC7, 0x05]
  | movByteFrame _ _, bs => bs = [0xC6, 0x85]
  | setneMem _, bs => bs = [0x0F, 0x95, 0x05]
  | pushImm32 _, bs => bs = [0x68]
  | callRel _, bs => bs = [0xE8]

/-- number of opcode and ModRM bytes -/
def openingSize : Template → Nat
  | movRegImm _ _ => 1
  | movAnyRegMem _ => 2
  | movMemImm _ _ => 2
  | movByteFrame _ _ => 2
  | setneMem _ => 3
  | pushImm32 _ => 1
  | callRel _ => 1

/-- what is asked of the fields, in order -/
def operands : Template → List Operand
  | movMemImm mem imm => [mem, imm]
  | movRegImm _ op | movAnyRegMem op | movByteFrame op _ | setneMem op | pushImm32 op | callRel op => [op]

/-- the bytes behind the fields -/
def closing : Template → List UInt8
  | movByteFrame _ value => [value]
  | _ => []

/-- position of a field in the instruction -/
def fieldAt (t : Template) (k : Nat) : Nat :=
  t.openingSize + 4 * k

/-- the fields that are captures, in order -/
def captures (t : Template) : List Signature.Capture :=
  (t.operands.mapIdx fun k op => op.captureAt (t.fieldAt k)).filterMap id

/-- the opening as a signature -/
def openingSignature : Template → Signature
  | movRegImm r _ => .literal [0xB8 + r.code]
  | movAnyRegMem _ => .literal [0x8B] ++ .masked 0x05 0xC7
  | movMemImm _ _ => .literal [0xC7, 0x05]
  | movByteFrame _ _ => .literal [0xC6, 0x85]
  | setneMem _ => .literal [0x0F, 0x95, 0x05]
  | pushImm32 _ => .literal [0x68]
  | callRel _ => .literal [0xE8]

/-- the instruction stands at `i`, and each of its fields holds a word that the operand allows -/
structure FitsAt (t : Template) (image : Image) (i : Nat) : Prop where
  room : i + t.size ≤ image.bytes.size
  opening : ∃ bs, t.Opens bs ∧ StandsAt image.bytes i bs
  fields : ∀ (k : Nat) (op : Operand), t.operands[k]? = some op → op.Allows (image.wordAt (i + t.fieldAt k))
  closing : StandsAt image.bytes (i + t.fieldAt t.operands.length) t.closing

variable (t : Template)

theorem size_openingSignature : t.openingSignature.size = t.openingSize := by
  cases t <;> rfl

theorem size_eq : t.size = t.openingSize + 4 * t.operands.length + t.closing.length := by
  cases t <;> rfl

/-- **A template is its opening, its fields and its closing**, one behind the other. -/
theorem signature_eq : t.signature =
    t.openingSignature ++ Signature.collect (t.operands.map Operand.signature) ++ .literal t.closing := by
  have hone : ∀ (a : Signature) (op : Operand), a ++ op.signature =
      a ++ Signature.collect ([op].map Operand.signature) ++ .literal [] := by
    intro a op
    rw [List.map_singleton, Signature.collect_cons]
    rfl
  cases t with
  | movMemImm mem imm =>
    change _ ++ _ ++ imm.signature = _ ++ Signature.collect [mem.signature, imm.signature]
    rw [Signature.collect_cons, Signature.collect_cons, ← Signature.append_assoc]
    rfl
  | movByteFrame disp value => exact congrArg (· ++ Signature.literal [value]) (hone _ disp)
  | movRegImm r op => exact hone _ op
  | movAnyRegMem op => exact hone _ op
  | setneMem op => exact hone _ op
  | pushImm32 op => exact hone _ op
  | callRel op => exact hone _ op

theorem size_signature : t.signature.size = t.size := by
  rw [signature_eq, Signature.size_append, Signature.size_append, Signature.size_operands, Signature.size_literal,
    size_openingSignature, size_eq]

theorem accepts_opening {bs : List UInt8} : t.openingSignature.Accepts bs ↔ t.Opens bs := by
  cases t with
  | movAnyRegMem mem => exact accepts_movFromMem
  | _ => exact Signature.accepts_literal

/-- **A template matches where the instruction stands**, with words in its fields that the operands allow. -/
theorem matches_iff_fitsAt {image : Image} {i : Nat} :
    i + t.size ≤ image.bytes.size ∧ t.signature.Matches image.bytes i ↔ t.FitsAt image i := by
  have hsize := t.size_signature
  have hparts := t.size_eq
  have hopening := t.size_openingSignature
  have hfields := Signature.size_operands t.operands
  have hmatches : i + t.size ≤ image.bytes.size → (t.signature.Matches image.bytes i ↔
      ((∃ bs, t.Opens bs ∧ StandsAt image.bytes i bs) ∧
        ∀ (k : Nat) (op : Operand), t.operands[k]? = some op → op.Allows (image.wordAt (i + t.fieldAt k))) ∧
      StandsAt image.bytes (i + t.fieldAt t.operands.length) t.closing) := by
    intro hroom
    have hfront := Signature.size_append t.openingSignature (Signature.collect (t.operands.map Operand.signature))
    have hback := Signature.size_append (t.openingSignature ++ Signature.collect (t.operands.map Operand.signature))
      (Signature.literal t.closing)
    rw [signature_eq] at hsize ⊢
    rw [Signature.matches_append (by omega), Signature.matches_append (by omega), hfront, hopening, hfields,
      Signature.matches_operands (by omega), Signature.matches_iff_accepted (by omega), Signature.matches_iff_accepted (by omega)]
    simp only [accepts_opening, Signature.accepts_literal, exists_eq_left, fieldAt, Nat.add_assoc]
  constructor
  · rintro ⟨hroom, h⟩
    obtain ⟨⟨hopens, hallows⟩, hcloses⟩ := (hmatches hroom).1 h
    exact ⟨hroom, hopens, hallows, hcloses⟩
  · intro h
    exact ⟨h.room, (hmatches h.room).2 ⟨⟨h.opening, h.fields⟩, h.closing⟩⟩

theorem captures_signature : t.signature.captures = t.captures := by
  have hopening : Signature.capturesOf 0 t.openingSignature.segments = [] := by
    cases t <;> rfl
  have hclosing : ∀ k, Signature.capturesOf k (Signature.literal t.closing).segments = [] := by
    intro k
    cases t <;> rfl
  rw [Signature.captures, signature_eq, Signature.capturesOf_append, Signature.capturesOf_append, hopening, hclosing,
    List.nil_append, List.append_nil, Signature.capturesOf_operands, Nat.zero_add, size_openingSignature]
  rfl

/-! ### Searches -/

theorem width_captures : ∀ c ∈ t.captures, c.width = .dword := by
  intro c hc
  obtain ⟨r, hr, hcapture⟩ := List.mem_filterMap.1 hc
  obtain ⟨k, hk, rfl⟩ := List.mem_mapIdx.1 hr
  cases hop : t.operands[k] with
  | capture name =>
    rw [hop] at hcapture
    rw [← Option.some.inj hcapture]
  | _ =>
    rw [hop] at hcapture
    contradiction

/-- what a search finds is the instruction, and it reads the fields that are captures -/
theorem of_findSignature {image : Image} {start stop : UInt32} {m : Sighting}
    (h : image.findSignature t.signature start stop = some m) : t.FitsAt image m.offset.toNat ∧
      m.captures = t.captures.map fun c => (c.name, image.wordAt (m.offset.toNat + c.position)) := by
  obtain ⟨-, ⟨-, hend, hmatches⟩, -⟩ := Image.findSignature_eq_some_iff.1 h
  rw [t.size_signature] at hend
  have hroom : m.offset.toNat + t.size ≤ image.bytes.size := Nat.le_trans hend (Nat.min_le_right _ _)
  have hcaptures := Signature.captures_eq_words h
  rw [captures_signature] at hcaptures
  exact ⟨t.matches_iff_fitsAt.1 ⟨hroom, hmatches⟩, hcaptures t.width_captures⟩

/-- in a window of just its size, an instruction is found exactly if it stands there -/
theorem isSome_findSignature_iff {image : Image} :
    (image.findSignature t.signature 0 (UInt32.ofNat t.size)).isSome = true ↔ t.FitsAt image 0 := by
  have hpos : 0 < t.signature.size := by
    rw [t.size_signature]
    cases t <;> exact Nat.succ_pos _
  have hstop : (UInt32.ofNat t.size).toNat = t.size := by
    cases t <;> rfl
  have hfinds := image.finds_findSignature t.signature hpos 0 (UInt32.ofNat t.size)
  rw [← Option.isSome_map, hfinds.isSome_iff, ← matches_iff_fitsAt, hstop, t.size_signature, Nat.zero_add]
  constructor
  · rintro ⟨k, -, hend, hmatches⟩
    obtain rfl : k = 0 := by omega
    exact ⟨by omega, hmatches⟩
  · rintro ⟨hroom, hmatches⟩
    exact ⟨0, Nat.le_refl 0, by omega, hmatches⟩

/-- the instruction that a register and a value make is found, and the value read -/
theorem find_encodeMovRegImm {image : Image} {r : Register} {v : UInt32} (h : image.bytes = (encodeMovRegImm r v).toArray)
    (name : String) : image.findSignature (Instruction.movRegImm r (.capture name)) 0 5 = some ⟨0, [(name, v)]⟩ := by
  let t : Template := .movRegImm r (.capture name)
  have hstands : StandsAt image.bytes 0 ([0xB8 + r.code] ++ Word.bytes v) := by
    intro k _
    rw [h, Nat.zero_add]
    exact List.getElem?_toArray
  obtain ⟨hopcode, hvalue⟩ := standsAt_append.1 hstands
  have hroom : 5 ≤ image.bytes.size := hstands.length_le (Nat.succ_pos 4)
  have hfits : t.FitsAt image 0 := by
    refine ⟨hroom, ⟨_, rfl, hopcode⟩, ?_, fun k hk => absurd hk (Nat.not_lt_zero k)⟩
    intro k op hop
    cases k with
    | zero =>
      obtain rfl := Option.some.inj hop
      trivial
    | succ k => contradiction
  obtain ⟨m, hm⟩ := Option.isSome_iff_exists.1 (t.isSome_findSignature_iff.2 hfits)
  have hfound : image.findSignature (Instruction.movRegImm r (.capture name)) 0 5 = some m := hm
  obtain ⟨-, hcaptures⟩ := t.of_findSignature hm
  obtain ⟨-, ⟨-, hend, -⟩, -⟩ := Image.findSignature_eq_some_iff.1 hm
  have hoffset : m.offset.toNat = 0 := by
    rw [t.size_signature] at hend
    have hfive : t.size = 5 := rfl
    have hstop : (UInt32.ofNat t.size).toNat = 5 := rfl
    omega
  have hword : image.wordAt 1 = v := (standsAt_bytes_iff hroom).1 hvalue
  rw [hfound]
  obtain ⟨offset, read⟩ := m
  obtain rfl : offset = 0 := UInt32.toNat_inj.1 hoffset
  obtain rfl : read = [(name, image.wordAt (0 + 1))] := hcaptures
  rw [Nat.zero_add, hword]

end Template

/-- **Templates match exactly the instructions they name.** The size of a template does not depend on its operands. It is
found in a window of that size exactly if opcode and ModRM bytes are those of the instruction and every field holds a word
that its operand allows: a given value, any value, or one of the values in two's complement that fewer than four free bytes
leave below zero. In any window, what is found is such an instruction, and its captures read the words in their fields, whose
positions are those that are looked up by name. So the code of MOV with a register and a value is found, and the value read. -/
theorem template_exact (t : Template) :
    t.signature.size = t.size ∧
    (∀ image : Image, (image.findSignature t.signature 0 (UInt32.ofNat t.size)).isSome = true ↔ t.FitsAt image 0) ∧
    (∀ (image : Image) (start stop : UInt32) (m : Sighting), image.findSignature t.signature start stop = some m →
      t.FitsAt image m.offset.toNat ∧
        m.captures = t.captures.map fun c => (c.name, image.wordAt (m.offset.toNat + c.position))) ∧
    (∀ name, t.signature.offsetOf name = (t.captures.find? (·.name == name)).map (·.position)) ∧
    (∀ free w, (Operand.negative free).Allows w ↔
      (free < 4 → -(Nat.pow 0x100 free : Int) ≤ w.toBitVec.toInt ∧ w.toBitVec.toInt ≤ -1)) ∧
    ∀ (r : Register) (v : UInt32) (name : String) (image : Image), image.bytes = (encodeMovRegImm r v).toArray →
      image.findSignature (movRegImm r (.capture name)) 0 5 = some ⟨0, [(name, v)]⟩ := by
  refine ⟨t.size_signature, fun image => t.isSome_findSignature_iff, fun image start stop m hm => t.of_findSignature hm, ?_,
    Operand.allows_negative_iff, fun r v name image h => Template.find_encodeMovRegImm h name⟩
  intro name
  rw [← t.captures_signature]
  exact Signature.offsetFrom_eq name 0 t.signature.segments

/-- an image with an assignment of a negative value behind another byte -/
def assignmentImage : Image where
  bytes := (0x90 :: encodeMovMemImm 0x402010 0xFFFFFF80).toArray
  sections := []
  imports := []
  metadata := .unknown
  sound := rfl

/-- one free byte allows -128, and none does not -/
theorem assignmentImage_read :
    let found := Template.movMemImm (.capture "flag") (.negative 1)
    assignmentImage.findSignature found.signature 0 11 = some ⟨1, [("flag", 0x402010)]⟩ ∧ found.FitsAt assignmentImage 1 ∧
      found.signature.offsetOf "flag" = some 2 ∧ ¬ (Operand.negative 0).Allows (assignmentImage.wordAt 7) := by
  intro found
  have hm : assignmentImage.findSignature found.signature 0 11 = some ⟨1, [("flag", 0x402010)]⟩ := by decide +kernel
  obtain ⟨-, -, hfound, hoffset, hnegative, -⟩ := template_exact found
  obtain ⟨hfits, -⟩ := hfound assignmentImage 0 11 _ hm
  refine ⟨hm, hfits, hoffset "flag", ?_⟩
  rw [hnegative]
  decide +kernel

end Instruction

end Landmark
