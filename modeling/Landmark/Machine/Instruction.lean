/-
Signatures of the few machine instructions that finders look for.

Each template is the opcode and ModRM bytes followed by its operands. A 32-bit operand may be a known value, any value, a
negative value of limited size, or a value to read off the match (`Operand`).
-/
import Landmark.Machine.Register
import Landmark.Signature.Basic

namespace Landmark

/-- what is asked of a 32-bit operand -/
inductive Operand where
  | value (v : UInt32)
  | any
  /-- negative: the low `free` bytes are free, the others FF -/
  | negative (free : Nat)
  | capture (name : String)
  deriving DecidableEq, Repr

/-- the four bytes of an operand -/
def Operand.signature : Operand → Signature
  | value v => .literal (Word.bytes v)
  | any => .any 4
  | negative free => .any (min free 4) ++ .literal (List.replicate (4 - min free 4) 0xFF)
  | capture name => .capture name .dword

namespace Instruction

/-- MOV reg, imm32 -/
def movRegImm (r : Register) (imm : Operand) : Signature :=
  .literal [0xB8 + r.code] ++ imm.signature

/-- MOV r32, [disp32], any register -/
def movAnyRegMem (mem : Operand) : Signature :=
  .literal [0x8B] ++ .masked 0x05 0xC7 ++ mem.signature

/-- MOV r32, r32, any pair of registers -/
def movAnyRegAnyReg : Signature :=
  .literal [0x8B] ++ .masked 0xC0 0xC0

/-- MOV dword [disp32], imm32 -/
def movMemImm (mem imm : Operand) : Signature :=
  .literal [0xC7, 0x05] ++ mem.signature ++ imm.signature

/-- MOV byte [EBP + disp32], imm8 -/
def movByteFrame (disp : Operand) (value : UInt8) : Signature :=
  .literal [0xC6, 0x85] ++ disp.signature ++ .literal [value]

/-- TEST r32, r32 -/
def testRegReg (rm reg : Register) : Signature :=
  .literal [0x85, (0xC0 : UInt8) ||| (reg.code <<< 3) ||| rm.code]

/-- SETNE byte [disp32] -/
def setneMem (mem : Operand) : Signature :=
  .literal [0x0F, 0x95, 0x05] ++ mem.signature

/-- PUSH imm32 -/
def pushImm32 (imm : Operand) : Signature :=
  .literal [0x68] ++ imm.signature

/-- PUSH imm8 -/
def pushImm8 (value : UInt8) : Signature :=
  .literal [0x6A, value]

/-- PUSH r32, any register -/
def pushAnyReg : Signature :=
  .masked 0x50 0xF8

/-- CALL rel32 -/
def callRel (rel : Operand) : Signature :=
  .literal [0xE8] ++ rel.signature

/-- ModRM byte for [r32] (mode 0) or [r32 + disp8] (mode 1), `ext` in the middle field; forms that need a SIB byte and the
form without a register are left out -/
def indirect (mode ext : UInt8) : Signature :=
  .oneOf ((([0, 1, 2, 3, 4, 5, 6, 7] : List UInt8).filter fun rm => rm != 4 && !(mode == 0 && rm == 5)).map fun rm =>
    (mode <<< 6) ||| (ext <<< 3) ||| rm)

/-- CMP dword [r32], imm32 -/
def cmpAnyRegMemImm32 (value : UInt32) : Signature :=
  .literal [0x81] ++ indirect 0 7 ++ .literal (Word.bytes value)

/-- CMP word [r32 + disp8], imm16 -/
def cmpWordAnyRegDisp8 (disp : UInt8) (value : UInt16) : Signature :=
  .literal [0x66, 0x81] ++ indirect 1 7 ++ .literal [disp]
    ++ .literal [UInt8.ofNat value.toNat, UInt8.ofNat (value.toNat / 256)]

/-- CMP byte [r32 + disp8], imm8 -/
def cmpByteAnyRegDisp8 (disp value : UInt8) : Signature :=
  .literal [0x80] ++ indirect 1 7 ++ .literal [disp, value]

/-- JNE rel8 -/
def jneShort : Signature :=
  .literal [0x75] ++ .any 1

/-- INT3 -/
def int3 : Signature :=
  .literal [0xCC]

/-- NOP -/
def nop : Signature :=
  .literal [0x90]

/-- PUSH EBP; MOV EBP, ESP -/
def framePrologue : Signature :=
  .literal [0x55, 0x8B, 0xEC]

/-- the bytes of MOV reg, imm32 -/
def encodeMovRegImm (r : Register) (value : UInt32) : List UInt8 :=
  (0xB8 + r.code) :: Word.bytes value

end Instruction

end Landmark
