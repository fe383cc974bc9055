import SymexVP.Instruction
import SymexVP.Opcode

/-!
# The decoder for compressed instructions

A compressed word is classified by `decodeCompressed` and rewritten by
`expandCompressed` into the base instruction it abbreviates. The expansion packs
the new word with the encoders of `InstructionFactory` and returns its opcode by a
separate statement, so nothing in the code forces the two to agree.
-/

namespace SymexVP

open Opcode

/-! ## Scrambled immediates -/

section Immediates

/-- `BIT_SINGLE_P1` of an unsigned word. -/
def bitSingleP1U (word : BitVec 32) (position : Nat) : BitVec 32 :=
  bitSingle word position >>> position

/-- `BIT_SINGLE_PN` of an unsigned word. -/
def bitSinglePNU (word : BitVec 32) (position target : Nat) : BitVec 32 :=
  bitSingleP1U word position <<< target

theorem bitSingleP1U_eq_bitSliceU (word : BitVec 32) (position : Nat) :
    bitSingleP1U word position = bitSliceU word position position := by
  rw [bitSingleP1U, bitSingle_eq_bitRange]
  rfl

theorem getLsbD_bitSingleP1U (word : BitVec 32) (position index : Nat) (inside : position < 32) :
    (bitSingleP1U word position).getLsbD index =
      (decide (index = 0) && word.getLsbD position) := by
  rw [bitSingleP1U_eq_bitSliceU, getLsbD_bitSliceU _ _ _ _ (Nat.le_refl _) inside]
  by_cases zero : index = 0
  · simp [zero]
  · simp [zero]

theorem getLsbD_bitSinglePNU (word : BitVec 32) (position target index : Nat)
    (inside : position < 32) (present : index < 32) :
    (bitSinglePNU word position target).getLsbD index =
      (decide (index = target) && word.getLsbD position) := by
  rw [bitSinglePNU, BitVec.getLsbD_shiftLeft, getLsbD_bitSingleP1U _ _ _ inside]
  by_cases same : index = target
  · subst same
    simp [present]
  · by_cases below : index < target
    · simp [same, below]
    · simp [same, show index - target ≠ 0 by omega]

/-- `C_ADDI4SPN_NZUIMM`. -/
def cAddi4spnNzuimm (n : BitVec 32) : BitVec 32 :=
  (bitSliceU n 12 11 <<< 4) ||| (bitSliceU n 10 7 <<< 6) ||| (bitSingleP1U n 6 <<< 2) |||
    (bitSingleP1U n 5 <<< 3)

/-- `C_LW_UIMM`. -/
def cLwUimm (n : BitVec 32) : BitVec 32 :=
  (bitSliceU n 12 10 <<< 3) ||| (bitSingleP1U n 6 <<< 2) ||| (bitSingleP1U n 5 <<< 6)

/-- `C_LD_UIMM`. -/
def cLdUimm (n : BitVec 32) : BitVec 32 :=
  (bitSliceU n 12 10 <<< 3) ||| (bitSliceU n 6 5 <<< 6)

/-- `C_SW_UIMM`. -/
def cSwUimm (n : BitVec 32) : BitVec 32 := cLwUimm n

/-- `C_SD_UIMM`. -/
def cSdUimm (n : BitVec 32) : BitVec 32 := cLdUimm n

/-- `C_JAL_IMM`. -/
def cJalImm (n : BitVec 32) : BitVec 32 :=
  extractSignBit n 12 11 ||| bitSinglePN n 11 4 ||| (bitSlice n 10 9 <<< 8) |||
    bitSinglePN n 8 10 ||| bitSinglePN n 7 6 ||| bitSinglePN n 6 7 ||| (bitSlice n 5 3 <<< 1) |||
    bitSinglePN n 2 5

/-- `C_ADDI16SP_NZIMM`. -/
def cAddi16spNzimm (n : BitVec 32) : BitVec 32 :=
  extractSignBit n 12 9 ||| bitSinglePN n 6 4 ||| bitSinglePN n 5 6 ||| (bitSlice n 4 3 <<< 7) |||
    bitSinglePN n 2 5

/-- `C_LUI_NZIMM`. -/
def cLuiNzimm (n : BitVec 32) : BitVec 32 :=
  extractSignBit n 12 17 ||| (bitSlice n 6 2 <<< 12)

/-- `C_J_IMM`. -/
def cJImm (n : BitVec 32) : BitVec 32 := cJalImm n

/-- `C_BRANCH_IMM`. -/
def cBranchImm (n : BitVec 32) : BitVec 32 :=
  extractSignBit n 12 8 ||| (bitSlice n 11 10 <<< 3) ||| (bitSlice n 6 5 <<< 6) |||
    (bitSlice n 4 3 <<< 1) ||| bitSinglePN n 2 5

/-- `C_LWSP_UIMM`. -/
def cLwspUimm (n : BitVec 32) : BitVec 32 :=
  bitSinglePNU n 12 5 ||| (bitSliceU n 6 4 <<< 2) ||| (bitSliceU n 3 2 <<< 6)

/-- `C_SWSP_UIMM`. -/
def cSwspUimm (n : BitVec 32) : BitVec 32 :=
  (bitSliceU n 12 9 <<< 2) ||| (bitSliceU n 8 7 <<< 6)

/-- `C_LDSP_UIMM`. -/
def cLdspUimm (n : BitVec 32) : BitVec 32 :=
  bitSinglePNU n 12 5 ||| (bitSliceU n 6 5 <<< 3) ||| (bitSliceU n 4 2 <<< 6)

/-- `C_SDSP_UIMM`. -/
def cSdspUimm (n : BitVec 32) : BitVec 32 :=
  (bitSliceU n 12 10 <<< 3) ||| (bitSliceU n 9 7 <<< 6)

end Immediates

/-! ## Encoders -/

namespace InstructionFactory

/-- The encoders of register-register instructions differ only in their codes. -/
def rFormat (opcode funct3 funct7 rd rs1 rs2 : BitVec 32) : Instruction :=
  ((rd &&& 0x1f) <<< 7) ||| ((rs1 &&& 0x1f) <<< 15) ||| ((rs2 &&& 0x1f) <<< 20) ||| opcode |||
    (funct3 <<< 12) ||| (funct7 <<< 25)

/-- The encoders of instructions with a twelve-bit immediate. -/
def iFormat (opcode funct3 rd rs1 iImm : BitVec 32) : Instruction :=
  ((iImm &&& 4095) <<< 20) ||| ((rd &&& 0x1f) <<< 7) ||| ((rs1 &&& 0x1f) <<< 15) ||| opcode |||
    (funct3 <<< 12)

/-- The encoders of the immediate shifts. The shift amount has six bits on every
architecture. -/
def shiftFormat (funct3 funct7 rd rs1 shamt : BitVec 32) : Instruction :=
  ((rd &&& 0x1f) <<< 7) ||| ((rs1 &&& 0x1f) <<< 15) ||| ((shamt &&& 63) <<< 20) ||| 19#32 |||
    (funct3 <<< 12) ||| (funct7 <<< 25)

/-- The encoders of the stores. -/
def sFormat (opcode funct3 rs1 rs2 sImm : BitVec 32) : Instruction :=
  (((sImm &&& 0b11111) <<< 7) ||| ((sImm &&& (0b1111111#32 <<< 5)) <<< 20)) |||
    ((rs1 &&& 0x1f) <<< 15) ||| ((rs2 &&& 0x1f) <<< 20) ||| opcode ||| (funct3 <<< 12)

/-- The encoders of the conditional branches. -/
def bFormat (funct3 rs1 rs2 bImm : BitVec 32) : Instruction :=
  ((((bImm &&& 0b11110) <<< 7) ||| (bImm &&& (1#32 <<< 11)).sshiftRight 4) |||
      (((bImm &&& (0b111111#32 <<< 5)) <<< 20) ||| ((bImm &&& (1#32 <<< 12)) <<< 19))) |||
    ((rs1 &&& 0x1f) <<< 15) ||| ((rs2 &&& 0x1f) <<< 20) ||| 99#32 ||| (funct3 <<< 12)

def add (rd rs1 rs2 : BitVec 32) : Instruction := rFormat 51 0 0 rd rs1 rs2

def and (rd rs1 rs2 : BitVec 32) : Instruction := rFormat 51 7 0 rd rs1 rs2

def or (rd rs1 rs2 : BitVec 32) : Instruction := rFormat 51 6 0 rd rs1 rs2

def xor (rd rs1 rs2 : BitVec 32) : Instruction := rFormat 51 4 0 rd rs1 rs2

def sub (rd rs1 rs2 : BitVec 32) : Instruction := rFormat 51 0 32 rd rs1 rs2

def lw (rd rs1 iImm : BitVec 32) : Instruction := iFormat 3 2 rd rs1 iImm

def ld (rd rs1 iImm : BitVec 32) : Instruction := iFormat 3 3 rd rs1 iImm

def flw (rd rs1 iImm : BitVec 32) : Instruction := iFormat 7 2 rd rs1 iImm

def fld (rd rs1 iImm : BitVec 32) : Instruction := iFormat 7 3 rd rs1 iImm

def sw (rs1 rs2 sImm : BitVec 32) : Instruction := sFormat 35 2 rs1 rs2 sImm

def sd (rs1 rs2 sImm : BitVec 32) : Instruction := sFormat 35 3 rs1 rs2 sImm

def fsw (rs1 rs2 sImm : BitVec 32) : Instruction := sFormat 39 2 rs1 rs2 sImm

def fsd (rs1 rs2 sImm : BitVec 32) : Instruction := sFormat 39 3 rs1 rs2 sImm

def lui (rd uImm : BitVec 32) : Instruction :=
  (uImm &&& (1048575#32 <<< 12)) ||| ((rd &&& 0x1f) <<< 7) ||| 55#32

def addi (rd rs1 iImm : BitVec 32) : Instruction := iFormat 19 0 rd rs1 iImm

def andi (rd rs1 iImm : BitVec 32) : Instruction := iFormat 19 7 rd rs1 iImm

def srli (rd rs1 shamt : BitVec 32) : Instruction := shiftFormat 5 0 rd rs1 shamt

def srai (rd rs1 shamt : BitVec 32) : Instruction := shiftFormat 5 32 rd rs1 shamt

def slli (rd rs1 shamt : BitVec 32) : Instruction := shiftFormat 1 0 rd rs1 shamt

def jal (rd jImm : BitVec 32) : Instruction :=
  111#32 ||| ((rd &&& 0x1f) <<< 7) |||
    ((jImm &&& (0b11111111#32 <<< 12)) ||| ((jImm &&& (1#32 <<< 11)) <<< 9) |||
      ((jImm &&& 0b11111111110) <<< 20) ||| ((jImm &&& (1#32 <<< 20)) <<< 11))

def jalr (rd rs1 iImm : BitVec 32) : Instruction := iFormat 103 0 rd rs1 iImm

def beq (rs1 rs2 bImm : BitVec 32) : Instruction := bFormat 0 rs1 rs2 bImm

def bne (rs1 rs2 bImm : BitVec 32) : Instruction := bFormat 1 rs1 rs2 bImm

def ebreak : Instruction := 1048691

/-- `ADDIW`. The expansion never calls it. -/
def addiw (rd rs1 iImm : BitVec 32) : Instruction := iFormat 0x1b 0 rd rs1 iImm

def addw (rd rs1 rs2 : BitVec 32) : Instruction := rFormat 0x3b 0 0 rd rs1 rs2

def subw (rd rs1 rs2 : BitVec 32) : Instruction := rFormat 0x3b 0 32 rd rs1 rs2

end InstructionFactory

/-! ## Classification -/

/-- The names of `Compressed::Opcode`, in the source order. -/
inductive Compressed where
  | cIllegal | cReserved | cAddi4spn | cFld | cLq | cLw | cFlw | cLd
  | cFsd | cSq | cSw | cFsw | cSd
  | cNop | cAddi | cJal | cAddiw | cLi | cAddi16sp | cLui | cSrli | cSrai | cAndi | cSub | cXor
  | cOr | cAnd | cSubw | cAddw | cJ | cBeqz | cBnez
  | cSlli | cFldsp | cLqsp | cLwsp | cFlwsp | cLdsp | cJr | cMv | cEbreak | cJalr | cAdd
  | cFsdsp | cSqsp | cSwsp | cFswsp | cSdsp
deriving DecidableEq, Repr

namespace Instruction

open Compressed

/-- Quadrant zero of `decode_compressed`. -/
def decodeQuadrant0 (arch : Architecture) (instr : Instruction) : Compressed :=
  if instr.cOpcode = 0b000 then if instr.cFormat = 0 then cIllegal else cAddi4spn
  else if instr.cOpcode = 0b001 then cFld
  else if instr.cOpcode = 0b010 then cLw
  else if instr.cOpcode = 0b011 then if arch = .rv32 then cFlw else cLd
  else if instr.cOpcode = 0b100 then cReserved
  else if instr.cOpcode = 0b101 then cFsd
  else if instr.cOpcode = 0b110 then cSw
  else if instr.cOpcode = 0b111 then if arch = .rv32 then cFsw else cSd
  else cIllegal

/-- The arithmetic sub-switch of quadrant one. -/
def decodeQuadrant1Arith (instr : Instruction) : Compressed :=
  if instr.cF2High = 0b00 then cSrli
  else if instr.cF2High = 0b01 then cSrai
  else if instr.cF2High = 0b10 then cAndi
  else if instr.cF2High = 0b11 then
    if instr.cB12 ≠ 0 then
      if instr.cF2Low = 0b00 then cSubw
      else if instr.cF2Low = 0b01 then cAddw
      else cReserved
    else
      if instr.cF2Low = 0b00 then cSub
      else if instr.cF2Low = 0b01 then cXor
      else if instr.cF2Low = 0b10 then cOr
      else if instr.cF2Low = 0b11 then cAnd
      else cIllegal
  else cIllegal

/-- Quadrant one of `decode_compressed`. -/
def decodeQuadrant1 (arch : Architecture) (instr : Instruction) : Compressed :=
  if instr.cOpcode = 0b000 then if instr.cFormat = 1 then cNop else cAddi
  else if instr.cOpcode = 0b001 then if arch = .rv32 then cJal else cAddiw
  else if instr.cOpcode = 0b010 then cLi
  else if instr.cOpcode = 0b011 then if instr.cRd = 2 then cAddi16sp else cLui
  else if instr.cOpcode = 0b100 then decodeQuadrant1Arith instr
  else if instr.cOpcode = 0b101 then cJ
  else if instr.cOpcode = 0b110 then cBeqz
  else if instr.cOpcode = 0b111 then cBnez
  else cIllegal

/-- Quadrant two of `decode_compressed`. With bit 12 set and `rd = 0` the code does not
look at `rs2`. -/
def decodeQuadrant2 (arch : Architecture) (instr : Instruction) : Compressed :=
  if instr.cOpcode = 0b000 then cSlli
  else if instr.cOpcode = 0b001 then cFldsp
  else if instr.cOpcode = 0b010 then cLwsp
  else if instr.cOpcode = 0b011 then if arch = .rv32 then cFlwsp else cLdsp
  else if instr.cOpcode = 0b100 then
    if instr.cB12 ≠ 0 then
      if instr.cRd ≠ 0 then if instr.cRs2 ≠ 0 then cAdd else cJalr
      else cEbreak
    else if instr.cRs2 ≠ 0 then cMv
    else cJr
  else if instr.cOpcode = 0b101 then cFsdsp
  else if instr.cOpcode = 0b110 then cSwsp
  else if instr.cOpcode = 0b111 then if arch = .rv32 then cFswsp else cSdsp
  else cIllegal

/-- `decode_compressed`. A word of quadrant three is not compressed; the source throws a
`runtime_error` with this text. -/
def decodeCompressed (arch : Architecture) (instr : Instruction) : Except String Compressed :=
  if instr.quadrant = 0 then .ok (decodeQuadrant0 arch instr)
  else if instr.quadrant = 1 then .ok (decodeQuadrant1 arch instr)
  else if instr.quadrant = 2 then .ok (decodeQuadrant2 arch instr)
  else .error "compressed instruction expected, but uncompressed found"

/-! ## Expansion -/

/-- `expand_compressed`: the opcode it returns and the word it leaves behind. A word that
is refused is left unchanged. Every name has a case, so the throw after the switch has
no counterpart here. -/
def expandCompressed (arch : Architecture) (instr : Instruction) :
    Compressed → Mapping × Instruction
  | cIllegal | cLq | cLqsp | cSq | cSqsp | cReserved => (.undefined, instr)
  | cNop => (.add, InstructionFactory.add 0 0 0)
  | cAdd => (.add, InstructionFactory.add instr.cRd instr.cRd instr.cRs2)
  | cMv => (.add, InstructionFactory.add instr.cRd 0 instr.cRs2)
  | cAnd => (.and, InstructionFactory.and instr.cRdSmall instr.cRdSmall instr.cRs2Small)
  | cOr => (.or, InstructionFactory.or instr.cRdSmall instr.cRdSmall instr.cRs2Small)
  | cXor => (.xor, InstructionFactory.xor instr.cRdSmall instr.cRdSmall instr.cRs2Small)
  | cSub => (.sub, InstructionFactory.sub instr.cRdSmall instr.cRdSmall instr.cRs2Small)
  | cAddw => (.addw, InstructionFactory.addw instr.cRdSmall instr.cRdSmall instr.cRs2Small)
  | cSubw => (.subw, InstructionFactory.subw instr.cRdSmall instr.cRdSmall instr.cRs2Small)
  | cLw => (.lw, InstructionFactory.lw instr.cRs2Small instr.cRdSmall (cLwUimm instr.data))
  | cLd => (.ld, InstructionFactory.ld instr.cRs2Small instr.cRdSmall (cLdUimm instr.data))
  | cFlw => (.flw, InstructionFactory.flw instr.cRs2Small instr.cRdSmall (cLwUimm instr.data))
  | cFld => (.fld, InstructionFactory.fld instr.cRs2Small instr.cRdSmall (cLdUimm instr.data))
  | cSw => (.sw, InstructionFactory.sw instr.cRdSmall instr.cRs2Small (cSwUimm instr.data))
  | cSd => (.sd, InstructionFactory.sd instr.cRdSmall instr.cRs2Small (cSdUimm instr.data))
  | cFsw => (.fsw, InstructionFactory.fsw instr.cRdSmall instr.cRs2Small (cSwUimm instr.data))
  | cFsd => (.fsd, InstructionFactory.fsd instr.cRdSmall instr.cRs2Small (cSdUimm instr.data))
  | cAddi4spn =>
    let n := cAddi4spnNzuimm instr.data
    if n = 0 then (.undefined, instr)
    else (.addi, InstructionFactory.addi instr.cRs2Small 2 n)
  | cAddi => (.addi, InstructionFactory.addi instr.cRd instr.cRd instr.cImm)
  | cJal => (.jal, InstructionFactory.jal 1 (cJalImm instr.data))
  | cAddiw =>
    if instr.cRd = 0 then (.undefined, instr)
    else (.addiw, InstructionFactory.addi instr.cRd instr.cRd instr.cImm)
  | cLi => (.addi, InstructionFactory.addi instr.cRd 0 instr.cImm)
  | cAddi16sp =>
    let n := cAddi16spNzimm instr.data
    if n = 0 then (.undefined, instr)
    else (.addi, InstructionFactory.addi 2 2 n)
  | cLui =>
    let n := cLuiNzimm instr.data
    if n = 0 then (.undefined, instr)
    else (.lui, InstructionFactory.lui instr.cRd n)
  | cSlli =>
    let n := instr.cUimm
    if arch = .rv32 ∧ 31 < n then (.undefined, instr)
    else (.slli, InstructionFactory.slli instr.cRd instr.cRd n)
  | cSrli =>
    let n := instr.cUimm
    if arch = .rv32 ∧ 31 < n then (.undefined, instr)
    else (.srli, InstructionFactory.srli instr.cRdSmall instr.cRdSmall n)
  | cSrai =>
    let n := instr.cUimm
    if arch = .rv32 ∧ 31 < n then (.undefined, instr)
    else (.srai, InstructionFactory.srai instr.cRdSmall instr.cRdSmall n)
  | cAndi => (.andi, InstructionFactory.andi instr.cRdSmall instr.cRdSmall instr.cImm)
  | cJ => (.jal, InstructionFactory.jal 0 (cJImm instr.data))
  | cBeqz => (.beq, InstructionFactory.beq instr.cRdSmall 0 (cBranchImm instr.data))
  | cBnez => (.bne, InstructionFactory.bne instr.cRdSmall 0 (cBranchImm instr.data))
  | cLwsp =>
    if instr.cRd = 0 then (.undefined, instr)
    else (.lw, InstructionFactory.lw instr.cRd 2 (cLwspUimm instr.data))
  | cLdsp =>
    if instr.cRd = 0 then (.undefined, instr)
    else (.ld, InstructionFactory.ld instr.cRd 2 (cLdspUimm instr.data))
  | cFlwsp => (.flw, InstructionFactory.flw instr.cRd 2 (cLwspUimm instr.data))
  | cFldsp => (.fld, InstructionFactory.fld instr.cRd 2 (cLdspUimm instr.data))
  | cSwsp => (.sw, InstructionFactory.sw 2 instr.cRs2 (cSwspUimm instr.data))
  | cSdsp => (.sd, InstructionFactory.sd 2 instr.cRs2 (cSdspUimm instr.data))
  | cFswsp => (.fsw, InstructionFactory.fsw 2 instr.cRs2 (cSwspUimm instr.data))
  | cFsdsp => (.fsd, InstructionFactory.fsd 2 instr.cRs2 (cSdspUimm instr.data))
  | cEbreak => (.ebreak, InstructionFactory.ebreak)
  | cJr =>
    if instr.cRd = 0 then (.undefined, instr)
    else (.jalr, InstructionFactory.jalr 0 instr.cRd 0)
  | cJalr => (.jalr, InstructionFactory.jalr 1 instr.cRd 0)

/-- `Instruction::decode_and_expand_compressed`. -/
def decodeAndExpandCompressed (arch : Architecture) (instr : Instruction) :
    Except String (Mapping × Instruction) := do
  let cOp ← decodeCompressed arch instr
  return expandCompressed arch instr cOp

end Instruction

end SymexVP
