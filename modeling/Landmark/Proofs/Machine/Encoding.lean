/-
Templates accept the encodings of the instructions they name, and nothing else.

An operand field is four bytes, lowest first, of a value that the operand allows (`Operand.accepts_iff`). Each template is then
compared with the bytes of its instruction, the registers and values that it leaves open being those for which there is an
encoding of that form.
-/
import Landmark.Machine.Instruction
import Landmark.Proofs.Signature.Language
import Landmark.Proofs.Word

namespace Landmark

/-! ## Operands -/

namespace Operand

/-- number of values that so many free bytes have, four being all there are -/
def freeSpan : Nat → Nat
  | 0 => 1
  | 1 => 0x100
  | 2 => 0x10000
  | 3 => 0x1000000
  | _ => 0x100000000

/-- the operand may have this value; negative values are those at the upper end -/
def Allows : Operand → UInt32 → Prop
  | value v, w => w = v
  | any, _ => True
  | negative free, w => UInt32.size ≤ w.toNat + freeSpan free
  | capture _, _ => True

theorem accepts_any_iff {bs : List UInt8} : (Signature.any 4).Accepts bs ↔ ∃ w, bs = Word.bytes w := by
  rw [Signature.accepts_any, Word.exists_bytes_iff]

/-- high bytes are all FF in the values at the upper end -/
theorem drop_bytes_iff (free : Nat) (w : UInt32) : (Word.bytes w).drop (min free 4) = List.replicate (4 - min free 4) 0xFF ↔
    UInt32.size ≤ w.toNat + freeSpan free := by
  have hw := w.toNat_lt
  have hsize : UInt32.size = 0x100000000 := rfl
  have hbyte : ∀ n : Nat, UInt8.ofNat n = 0xFF ↔ n % 0x100 = 0xFF := fun n => by
    rw [← UInt8.toNat_inj, UInt8.toNat_ofNat']
    rfl
  match free with
  | 0 =>
    change Word.bytes w = [0xFF, 0xFF, 0xFF, 0xFF] ↔ _
    simp only [Word.bytes, List.cons.injEq, and_true, hbyte, freeSpan]
    omega
  | 1 =>
    change (Word.bytes w).drop 1 = [0xFF, 0xFF, 0xFF] ↔ _
    simp only [Word.bytes, List.drop_succ_cons, List.drop_zero, List.cons.injEq, and_true, hbyte, freeSpan]
    omega
  | 2 =>
    change (Word.bytes w).drop 2 = [0xFF, 0xFF] ↔ _
    simp only [Word.bytes, List.drop_succ_cons, List.drop_zero, List.cons.injEq, and_true, hbyte, freeSpan]
    omega
  | 3 =>
    change (Word.bytes w).drop 3 = [0xFF] ↔ _
    simp only [Word.bytes, List.drop_succ_cons, List.drop_zero, List.cons.injEq, and_true, hbyte, freeSpan]
    omega
  | free + 4 =>
    rw [Nat.min_eq_right (by omega)]
    exact iff_of_true rfl (by simp only [freeSpan]; omega)

/-- **An operand field holds, lowest byte first, a value that the operand allows.** -/
theorem accepts_iff (op : Operand) {bs : List UInt8} :
    op.signature.Accepts bs ↔ ∃ w, op.Allows w ∧ bs = Word.bytes w := by
  cases op with
  | value v =>
    rw [signature, Signature.accepts_literal]
    simp only [Allows, exists_eq_left]
  | any =>
    rw [signature, accepts_any_iff]
    simp only [Allows, true_and]
  | negative free =>
    rw [signature, Signature.accepts_append]
    simp only [Signature.accepts_any, Signature.accepts_literal, Allows]
    constructor
    · rintro ⟨u, _, rfl, hu, rfl⟩
      have hlength : (u ++ List.replicate (4 - min free 4) (0xFF : UInt8)).length = 4 := by
        rw [List.length_append, List.length_replicate]
        omega
      refine ⟨_, ?_, (Word.bytes_ofBytes hlength).symm⟩
      rw [← drop_bytes_iff, Word.bytes_ofBytes hlength, List.drop_left' hu]
    · rintro ⟨w, hw, rfl⟩
      refine ⟨_, _, (List.take_append_drop (min free 4) (Word.bytes w)).symm, ?_, (drop_bytes_iff free w).2 hw⟩
      rw [List.length_take]
      exact Nat.min_eq_left (Nat.min_le_right _ _)
  | capture name =>
    rw [signature, Signature.accepts_capture]
    simp only [Allows, true_and]
    exact Word.exists_bytes_iff.symm

end Operand

/-! ## Registers -/

namespace Register

theorem mem_all (r : Register) : r ∈ all := by
  cases r <;> decide

/-- the three low bits of a ModRM or opcode byte name a register -/
theorem exists_code_iff {c : UInt8} : c ∈ ([0, 1, 2, 3, 4, 5, 6, 7] : List UInt8) ↔ ∃ r : Register, r.code = c := by
  have hcodes : ([0, 1, 2, 3, 4, 5, 6, 7] : List UInt8) = all.map code := rfl
  rw [hcodes, List.mem_map]
  exact ⟨fun ⟨r, _, h⟩ => ⟨r, h⟩, fun ⟨r, h⟩ => ⟨r, r.mem_all, h⟩⟩

end Register

/-! ## Templates -/

namespace Instruction

open Signature

variable {bs : List UInt8}

/-- the bytes of PUSH imm32 -/
def encodePushImm32 (value : UInt32) : List UInt8 :=
  0x68 :: Word.bytes value

/-- the bytes of PUSH imm8 -/
def encodePushImm8 (value : UInt8) : List UInt8 :=
  [0x6A, value]

/-- the byte of PUSH r32 -/
def encodePushReg (r : Register) : List UInt8 :=
  [0x50 + r.code]

/-- the bytes of CALL rel32 -/
def encodeCallRel (distance : UInt32) : List UInt8 :=
  0xE8 :: Word.bytes distance

/-- the bytes of MOV r32, r32 -/
def encodeMovRegReg (dst src : Register) : List UInt8 :=
  [0x8B, 0xC0 + 8 * dst.code + src.code]

/-- the bytes of TEST r32, r32 -/
def encodeTestRegReg (rm reg : Register) : List UInt8 :=
  [0x85, 0xC0 + 8 * reg.code + rm.code]

/-- the bytes of SETNE byte [disp32] -/
def encodeSetneMem (address : UInt32) : List UInt8 :=
  [0x0F, 0x95, 0x05] ++ Word.bytes address

/-- the bytes of MOV r32, [disp32] -/
def encodeMovRegMem (r : Register) (address : UInt32) : List UInt8 :=
  [0x8B, 0x05 + 8 * r.code] ++ Word.bytes address

/-- the bytes of MOV dword [disp32], imm32 -/
def encodeMovMemImm (address value : UInt32) : List UInt8 :=
  [0xC7, 0x05] ++ Word.bytes address ++ Word.bytes value

/-- the bytes of MOV byte [EBP + disp32], imm8 -/
def encodeMovByteFrame (disp : UInt32) (value : UInt8) : List UInt8 :=
  [0xC6, 0x85] ++ Word.bytes disp ++ [value]

/-- the bytes of CMP dword [r32], imm32 -/
def encodeCmpRegMemImm32 (r : Register) (value : UInt32) : List UInt8 :=
  [0x81, 0x38 + r.code] ++ Word.bytes value

/-- the bytes of CMP word [r32 + disp8], imm16 -/
def encodeCmpWordRegDisp8 (r : Register) (disp : UInt8) (value : UInt16) : List UInt8 :=
  [0x66, 0x81, 0x78 + r.code, disp, UInt8.ofNat value.toNat, UInt8.ofNat (value.toNat / 0x100)]

/-- the bytes of CMP byte [r32 + disp8], imm8 -/
def encodeCmpByteRegDisp8 (r : Register) (disp value : UInt8) : List UInt8 :=
  [0x80, 0x78 + r.code, disp, value]

/-- the bytes of JNE rel8 -/
def encodeJneShort (distance : UInt8) : List UInt8 :=
  [0x75, distance]

/-- a byte whose bits outside a field are fixed holds some register in the field -/
theorem accepts_field {v m : UInt8} {f : Register → UInt8}
    (h : ∀ i : Fin 256, UInt8.ofNat i &&& m = v &&& m ↔ ∃ r ∈ Register.all, UInt8.ofNat i = f r) :
    (masked v m).Accepts bs ↔ ∃ r, bs = [f r] := by
  have hbyte := forall_byte (P := fun b => b &&& m = v &&& m ↔ ∃ r ∈ Register.all, b = f r) h
  rw [accepts_masked]
  constructor
  · rintro ⟨b, rfl, hb⟩
    obtain ⟨r, -, rfl⟩ := (hbyte b).1 hb
    exact ⟨r, rfl⟩
  · rintro ⟨r, rfl⟩
    exact ⟨f r, rfl, (hbyte _).2 ⟨r, r.mem_all, rfl⟩⟩

/-- fixed bytes and an operand behind them -/
theorem accepts_opcode (cs : List UInt8) (op : Operand) :
    (literal cs ++ op.signature).Accepts bs ↔ ∃ v, op.Allows v ∧ bs = cs ++ Word.bytes v := by
  simp only [accepts_append, accepts_literal, Operand.accepts_iff]
  constructor
  · rintro ⟨_, _, rfl, rfl, v, hv, rfl⟩
    exact ⟨v, hv, rfl⟩
  · rintro ⟨v, hv, rfl⟩
    exact ⟨cs, _, rfl, rfl, v, hv, rfl⟩

theorem accepts_movRegImm (r : Register) (imm : Operand) :
    (movRegImm r imm).Accepts bs ↔ ∃ v, imm.Allows v ∧ bs = encodeMovRegImm r v :=
  accepts_opcode [0xB8 + r.code] imm

theorem accepts_setneMem (mem : Operand) : (setneMem mem).Accepts bs ↔ ∃ v, mem.Allows v ∧ bs = encodeSetneMem v :=
  accepts_opcode [0x0F, 0x95, 0x05] mem

theorem accepts_testRegReg (rm reg : Register) : (testRegReg rm reg).Accepts bs ↔ bs = encodeTestRegReg rm reg := by
  rw [testRegReg, accepts_literal]
  cases rm <;> cases reg <;> rfl

/-- a ModRM byte for two registers has both its top bits set, and any registers in its fields -/
theorem modRM_registers_iff {b : UInt8} :
    b &&& 0xC0 = 0xC0 &&& 0xC0 ↔ ∃ dst src : Register, b = 0xC0 + 8 * dst.code + src.code := by
  have hfields := forall_byte (P := fun b => b &&& 0xC0 = 0xC0 &&& 0xC0 →
    b = (0xC0 : UInt8) + (8 : UInt8) * (b >>> 3 &&& 7) + (b &&& 7) ∧
      b >>> 3 &&& 7 ∈ ([0, 1, 2, 3, 4, 5, 6, 7] : List UInt8) ∧ b &&& 7 ∈ ([0, 1, 2, 3, 4, 5, 6, 7] : List UInt8))
    (by decide +kernel)
  constructor
  · intro h
    obtain ⟨hb, hdst, hsrc⟩ := hfields b h
    obtain ⟨dst, hdst⟩ := Register.exists_code_iff.1 hdst
    obtain ⟨src, hsrc⟩ := Register.exists_code_iff.1 hsrc
    rw [← hdst, ← hsrc] at hb
    exact ⟨dst, src, hb⟩
  · rintro ⟨dst, src, rfl⟩
    cases dst <;> cases src <;> rfl

theorem accepts_movAnyRegAnyReg : movAnyRegAnyReg.Accepts bs ↔ ∃ dst src, bs = encodeMovRegReg dst src := by
  simp only [movAnyRegAnyReg, accepts_append, accepts_literal, accepts_masked, modRM_registers_iff, encodeMovRegReg]
  constructor
  · rintro ⟨_, _, rfl, rfl, _, rfl, dst, src, rfl⟩
    exact ⟨dst, src, rfl⟩
  · rintro ⟨dst, src, rfl⟩
    exact ⟨[0x8B], _, rfl, rfl, _, rfl, dst, src, rfl⟩

theorem accepts_pushImm32 (imm : Operand) :
    (pushImm32 imm).Accepts bs ↔ ∃ v, imm.Allows v ∧ bs = encodePushImm32 v :=
  accepts_opcode [0x68] imm

theorem accepts_pushImm8 (value : UInt8) : (pushImm8 value).Accepts bs ↔ bs = encodePushImm8 value :=
  accepts_literal

theorem accepts_pushAnyReg : pushAnyReg.Accepts bs ↔ ∃ r, bs = encodePushReg r :=
  accepts_field (by decide +kernel)

theorem accepts_callRel (rel : Operand) : (callRel rel).Accepts bs ↔ ∃ v, rel.Allows v ∧ bs = encodeCallRel v :=
  accepts_opcode [0xE8] rel

/-- the opcode of MOV r32 and a ModRM byte for [disp32], any register -/
theorem accepts_movFromMem :
    (literal [0x8B] ++ masked 0x05 0xC7).Accepts bs ↔ ∃ r : Register, bs = [0x8B, 0x05 + 8 * r.code] := by
  have hmodRM : ∀ bs, (masked 0x05 0xC7).Accepts bs ↔ ∃ r : Register, bs = [0x05 + 8 * r.code] :=
    fun _ => accepts_field (by decide +kernel)
  simp only [accepts_append, accepts_literal, hmodRM]
  constructor
  · rintro ⟨_, _, rfl, rfl, r, rfl⟩
    exact ⟨r, rfl⟩
  · rintro ⟨r, rfl⟩
    exact ⟨[0x8B], _, rfl, rfl, r, rfl⟩

theorem accepts_movAnyRegMem (mem : Operand) :
    (movAnyRegMem mem).Accepts bs ↔ ∃ r v, mem.Allows v ∧ bs = encodeMovRegMem r v := by
  rw [movAnyRegMem, accepts_append]
  simp only [accepts_movFromMem, Operand.accepts_iff, encodeMovRegMem]
  constructor
  · rintro ⟨_, _, rfl, ⟨r, rfl⟩, v, hv, rfl⟩
    exact ⟨r, v, hv, rfl⟩
  · rintro ⟨r, v, hv, rfl⟩
    exact ⟨_, _, rfl, ⟨r, rfl⟩, v, hv, rfl⟩

theorem accepts_movMemImm (mem imm : Operand) :
    (movMemImm mem imm).Accepts bs ↔ ∃ v w, mem.Allows v ∧ imm.Allows w ∧ bs = encodeMovMemImm v w := by
  rw [movMemImm, accepts_append]
  simp only [accepts_opcode, Operand.accepts_iff, encodeMovMemImm]
  constructor
  · rintro ⟨_, _, rfl, ⟨v, hv, rfl⟩, w, hw, rfl⟩
    exact ⟨v, w, hv, hw, rfl⟩
  · rintro ⟨v, w, hv, hw, rfl⟩
    exact ⟨_, _, rfl, ⟨v, hv, rfl⟩, w, hw, rfl⟩

theorem accepts_movByteFrame (disp : Operand) (value : UInt8) :
    (movByteFrame disp value).Accepts bs ↔ ∃ v, disp.Allows v ∧ bs = encodeMovByteFrame v value := by
  rw [movByteFrame, accepts_append]
  simp only [accepts_opcode, accepts_literal, encodeMovByteFrame]
  constructor
  · rintro ⟨_, _, rfl, ⟨v, hv, rfl⟩, rfl⟩
    exact ⟨v, hv, rfl⟩
  · rintro ⟨v, hv, rfl⟩
    exact ⟨_, _, rfl, ⟨v, hv, rfl⟩, rfl⟩

/-- a ModRM byte for an indirect operand leaves out the register that means a SIB byte, and without a displacement the one
that means no register -/
theorem accepts_indirect (mode ext : UInt8) : (indirect mode ext).Accepts bs ↔
    ∃ r : Register, r ≠ .esp ∧ ¬ (mode = 0 ∧ r = .ebp) ∧ bs = [(mode <<< 6) ||| (ext <<< 3) ||| r.code] := by
  have hesp : ∀ r : Register, r.code = 4 ↔ r = .esp := by
    intro r
    cases r <;> decide
  have hebp : ∀ r : Register, r.code = 5 ↔ r = .ebp := by
    intro r
    cases r <;> decide
  simp only [indirect, accepts_oneOf, List.mem_map, List.mem_filter, Register.exists_code_iff]
  constructor
  · rintro ⟨_, ⟨_, ⟨⟨r, rfl⟩, hr⟩, rfl⟩, rfl⟩
    simp only [Bool.and_eq_true, bne_iff_ne, Bool.not_eq_true', Bool.and_eq_false_iff, beq_eq_false_iff_ne] at hr
    refine ⟨r, fun h => hr.1 ((hesp r).2 h), ?_, rfl⟩
    rintro ⟨hmode, h⟩
    exact hr.2.elim (fun hne => hne hmode) (fun hne => hne ((hebp r).2 h))
  · rintro ⟨r, hr, hnone, rfl⟩
    refine ⟨_, ⟨_, ⟨⟨r, rfl⟩, ?_⟩, rfl⟩, rfl⟩
    have hsib : (r.code != 4) = true := bne_iff_ne.2 fun h => hr ((hesp r).1 h)
    have hdirect : (!(mode == 0 && r.code == 5)) = true := by
      rw [Bool.not_eq_true', Bool.eq_false_iff, Ne, Bool.and_eq_true, beq_iff_eq, beq_iff_eq, hebp]
      exact hnone
    rw [hsib, hdirect]
    rfl

theorem accepts_cmpAnyRegMemImm32 (value : UInt32) : (cmpAnyRegMemImm32 value).Accepts bs ↔
    ∃ r : Register, r ≠ .esp ∧ r ≠ .ebp ∧ bs = encodeCmpRegMemImm32 r value := by
  simp only [cmpAnyRegMemImm32, accepts_append, accepts_literal, accepts_indirect, encodeCmpRegMemImm32]
  constructor
  · rintro ⟨_, _, rfl, ⟨_, _, rfl, rfl, r, hr, hnone, rfl⟩, rfl⟩
    refine ⟨r, hr, fun h => hnone ⟨trivial, h⟩, ?_⟩
    cases r <;> rfl
  · rintro ⟨r, hr, hnone, rfl⟩
    refine ⟨_, _, rfl, ⟨[0x81], _, rfl, rfl, r, hr, fun h => hnone h.2, ?_⟩, rfl⟩
    cases r <;> rfl

theorem accepts_cmpWordAnyRegDisp8 (disp : UInt8) (value : UInt16) : (cmpWordAnyRegDisp8 disp value).Accepts bs ↔
    ∃ r : Register, r ≠ .esp ∧ bs = encodeCmpWordRegDisp8 r disp value := by
  simp only [cmpWordAnyRegDisp8, accepts_append, accepts_literal, accepts_indirect, encodeCmpWordRegDisp8]
  constructor
  · rintro ⟨_, _, rfl, ⟨_, _, rfl, ⟨_, _, rfl, rfl, r, hr, -, rfl⟩, rfl⟩, rfl⟩
    refine ⟨r, hr, ?_⟩
    cases r <;> rfl
  · rintro ⟨r, hr, rfl⟩
    refine ⟨[0x66, 0x81, 0x78 + r.code, disp], _, rfl, ⟨[0x66, 0x81, 0x78 + r.code], _, rfl,
      ⟨[0x66, 0x81], _, rfl, rfl, r, hr, fun h => absurd h.1 (by decide), ?_⟩, rfl⟩, rfl⟩
    cases r <;> rfl

theorem accepts_cmpByteAnyRegDisp8 (disp value : UInt8) : (cmpByteAnyRegDisp8 disp value).Accepts bs ↔
    ∃ r : Register, r ≠ .esp ∧ bs = encodeCmpByteRegDisp8 r disp value := by
  simp only [cmpByteAnyRegDisp8, accepts_append, accepts_literal, accepts_indirect, encodeCmpByteRegDisp8]
  constructor
  · rintro ⟨_, _, rfl, ⟨_, _, rfl, rfl, r, hr, -, rfl⟩, rfl⟩
    refine ⟨r, hr, ?_⟩
    cases r <;> rfl
  · rintro ⟨r, hr, rfl⟩
    refine ⟨[0x80, 0x78 + r.code], _, rfl, ⟨[0x80], _, rfl, rfl, r, hr, fun h => absurd h.1 (by decide), ?_⟩, rfl⟩
    cases r <;> rfl

theorem accepts_jneShort : jneShort.Accepts bs ↔ ∃ distance, bs = encodeJneShort distance := by
  simp only [jneShort, accepts_append, accepts_literal, accepts_any, encodeJneShort, List.length_eq_one_iff]
  constructor
  · rintro ⟨_, _, rfl, rfl, d, rfl⟩
    exact ⟨d, rfl⟩
  · rintro ⟨d, rfl⟩
    exact ⟨[0x75], _, rfl, rfl, d, rfl⟩

end Instruction

end Landmark
