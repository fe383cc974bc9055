import SymexVP.DecodeCompressed
import SymexVP.Specification

/-!
# The accessors read the manual's fields

The code cuts fields and immediates out of a word with masks, shifts and signed
shifts; the manual writes them as slices and concatenations. This module proves
that both are the same bits, once for each accessor. The compressed accessors look
at the low sixteen bits only, so they are compared with the fields of the half word
that `low` takes.
-/

namespace SymexVP

namespace Instruction

/-- The name the decoder uses for an instruction of the manual. -/
def mnemonic : Spec.Instr → Opcode.Mapping
  | .lui .. => .lui
  | .auipc .. => .auipc
  | .jal .. => .jal
  | .jalr .. => .jalr
  | .branch .beq .. => .beq
  | .branch .bne .. => .bne
  | .branch .blt .. => .blt
  | .branch .bge .. => .bge
  | .branch .bltu .. => .bltu
  | .branch .bgeu .. => .bgeu
  | .load .lb .. => .lb
  | .load .lh .. => .lh
  | .load .lw .. => .lw
  | .load .lbu .. => .lbu
  | .load .lhu .. => .lhu
  | .store .sb .. => .sb
  | .store .sh .. => .sh
  | .store .sw .. => .sw
  | .opImm .addi .. => .addi
  | .opImm .slti .. => .slti
  | .opImm .sltiu .. => .sltiu
  | .opImm .xori .. => .xori
  | .opImm .ori .. => .ori
  | .opImm .andi .. => .andi
  | .shift .slli .. => .slli
  | .shift .srli .. => .srli
  | .shift .srai .. => .srai
  | .op .add .. => .add
  | .op .sub .. => .sub
  | .op .sll .. => .sll
  | .op .slt .. => .slt
  | .op .sltu .. => .sltu
  | .op .xor .. => .xor
  | .op .srl .. => .srl
  | .op .sra .. => .sra
  | .op .or .. => .or
  | .op .and .. => .and
  | .op .mul .. => .mul
  | .op .mulh .. => .mulh
  | .op .mulhsu .. => .mulhsu
  | .op .mulhu .. => .mulhu
  | .op .div .. => .div
  | .op .divu .. => .divu
  | .op .rem .. => .rem
  | .op .remu .. => .remu
  | .amo .swap .. => .amoswapW
  | .amo .add .. => .amoaddW
  | .amo .xor .. => .amoxorW
  | .amo .and .. => .amoandW
  | .amo .or .. => .amoorW
  | .amo .min .. => .amominW
  | .amo .max .. => .amomaxW
  | .amo .minu .. => .amominuW
  | .amo .maxu .. => .amomaxuW
  | .ebreak => .ebreak

/-- The half word that holds a compressed instruction. -/
def low (instr : Instruction) : BitVec 16 := instr.setWidth 16

/-! ## Uncompressed words -/

section Uncompressed

variable (instr : Instruction)

/-- A slice that stays below bit 31. -/
theorem bitSlice_eq_extract (upper lower : Nat) (ordered : lower ≤ upper) (inside : upper < 31) :
    bitSlice instr upper lower = (instr.extractLsb' lower (upper - lower + 1)).setWidth 32 := by
  apply BitVec.eq_of_getLsbD_eq
  intro index present
  rw [getLsbD_bitSlice _ _ _ _ ordered inside]
  simp only [BitVec.getLsbD_setWidth, BitVec.getLsbD_extractLsb', present, decide_true,
    Bool.true_and]
  congr 2
  rw [eq_iff_iff]
  omega

theorem rd_eq : instr.rd = (Spec.rd instr).setWidth 32 :=
  bitSlice_eq_extract instr 11 7 (by decide) (by decide)

theorem rs1_eq : instr.rs1 = (Spec.rs1 instr).setWidth 32 :=
  bitSlice_eq_extract instr 19 15 (by decide) (by decide)

theorem rs2_eq : instr.rs2 = (Spec.rs2 instr).setWidth 32 :=
  bitSlice_eq_extract instr 24 20 (by decide) (by decide)

/-- The amount of a shift has a sixth bit, the lowest one of `funct7`. -/
theorem shamt_eq (short : (Spec.funct7 instr).getLsbD 0 = false) :
    instr.shamt = (Spec.rs2 instr).setWidth 32 := by
  rw [Spec.funct7, BitVec.getLsbD_extractLsb'] at short
  refine (bitSlice_eq_extract instr 25 20 (by decide) (by decide)).trans ?_
  apply BitVec.eq_of_getLsbD_eq
  intro index inside
  simp only [Spec.rs2, BitVec.getLsbD_setWidth, BitVec.getLsbD_extractLsb', inside, decide_true,
    Bool.true_and]
  by_cases last : index = 5
  · subst last
    simpa using short
  · exact congrArg (· && instr.getLsbD (20 + index)) (decide_eq_decide.mpr (by omega))

theorem iImm_eq : instr.iImm = Spec.immI instr := by
  apply BitVec.eq_of_getLsbD_eq
  intro index present
  simp (disch := omega) only [iImm, Spec.immI, BitVec.getLsbD_sshiftRight, getLsbD_bitRange,
    BitVec.msb_eq_getLsbD_last, BitVec.getLsbD_signExtend, BitVec.getLsbD_extractLsb']
  interval_cases index <;> simp

theorem sImm_eq : instr.sImm = Spec.immS instr := by
  apply BitVec.eq_of_getLsbD_eq
  intro index present
  simp (disch := omega) only [sImm, Spec.immS, BitVec.getLsbD_or, BitVec.getLsbD_sshiftRight,
    getLsbD_bitRange, BitVec.msb_eq_getLsbD_last, BitVec.getLsbD_signExtend,
    BitVec.getLsbD_append, BitVec.getLsbD_extractLsb']
  interval_cases index <;> simp

theorem bImm_eq : instr.bImm = Spec.immB instr := by
  apply BitVec.eq_of_getLsbD_eq
  intro index present
  simp (disch := omega) only [bImm, Spec.immB, bitSingle_eq_bitRange, BitVec.getLsbD_or,
    BitVec.getLsbD_sshiftRight, BitVec.getLsbD_shiftLeft, getLsbD_bitRange,
    BitVec.msb_eq_getLsbD_last, BitVec.getLsbD_signExtend, BitVec.getLsbD_append,
    BitVec.getLsbD_extractLsb']
  interval_cases index <;> simp

theorem uImm_eq : instr.uImm = Spec.immU instr := by
  apply BitVec.eq_of_getLsbD_eq
  intro index present
  simp (disch := omega) only [uImm, Spec.immU, getLsbD_bitRange, BitVec.getLsbD_append,
    BitVec.getLsbD_extractLsb']
  interval_cases index <;> simp

theorem jImm_eq : instr.jImm = Spec.immJ instr := by
  apply BitVec.eq_of_getLsbD_eq
  intro index present
  simp (disch := omega) only [jImm, Spec.immJ, bitSingle_eq_bitRange, BitVec.getLsbD_or,
    BitVec.getLsbD_sshiftRight, getLsbD_bitRange, BitVec.msb_eq_getLsbD_last,
    BitVec.getLsbD_signExtend, BitVec.getLsbD_append, BitVec.getLsbD_extractLsb']
  interval_cases index <;> simp

end Uncompressed

/-! ## Compressed words -/

section Compressed

variable (instr : Instruction)

/-- A slice of the low half word. -/
theorem bitSlice_eq_extract_low (upper lower : Nat) (ordered : lower ≤ upper)
    (inside : upper < 16) :
    bitSlice instr upper lower = (instr.low.extractLsb' lower (upper - lower + 1)).setWidth 32 := by
  rw [bitSlice_eq_extract _ _ _ ordered (by omega)]
  apply BitVec.eq_of_getLsbD_eq
  intro index present
  simp only [low, BitVec.getLsbD_setWidth, BitVec.getLsbD_extractLsb']
  by_cases short : index < upper - lower + 1
  · simp [short, show lower + index < 16 by omega]
  · simp [short]

theorem quadrant_eq : instr.quadrant = (Spec.Compressed.op instr.low).setWidth 32 := by
  have slice : instr.quadrant = bitSlice instr 1 0 := by
    rw [bitSlice, BitVec.sshiftRight_zero]
    rfl
  rw [slice, bitSlice_eq_extract_low _ _ _ (by decide) (by decide)]
  rfl

theorem cFormat_eq : instr.cFormat = instr.low.setWidth 32 := by
  apply BitVec.eq_of_getLsbD_eq
  intro index present
  have mask := BitFields.getLsbD_fieldMask 0 16 index (show 0 + 16 ≤ 32 by decide)
  rw [show BitFields.fieldMask 32 0 16 = 0xffff#32 by decide] at mask
  simp only [cFormat, low, BitVec.getLsbD_and, BitVec.getLsbD_setWidth, present, decide_true,
    Bool.true_and]
  rw [show (0xffff : BitVec 32) = 0xffff#32 from rfl, mask, Bool.and_comm]
  simp

theorem cOpcode_eq : instr.cOpcode = (Spec.Compressed.funct3 instr.low).setWidth 32 :=
  bitSlice_eq_extract_low instr 15 13 (by decide) (by decide)

theorem cB12_eq : instr.cB12 = (Spec.Compressed.bit12 instr.low).setWidth 32 := by
  rw [cB12, bitSingleP1, bitSingle_eq_bitRange]
  exact bitSlice_eq_extract_low instr 12 12 (by decide) (by decide)

theorem cRd_eq : instr.cRd = (Spec.Compressed.rd instr.low).setWidth 32 :=
  bitSlice_eq_extract_low instr 11 7 (by decide) (by decide)

theorem cRs2_eq : instr.cRs2 = (Spec.Compressed.rs2 instr.low).setWidth 32 :=
  bitSlice_eq_extract_low instr 6 2 (by decide) (by decide)

theorem cF2High_eq : instr.cF2High = (instr.low.extractLsb' 10 2).setWidth 32 :=
  bitSlice_eq_extract_low instr 11 10 (by decide) (by decide)

theorem cF2Low_eq : instr.cF2Low = (instr.low.extractLsb' 5 2).setWidth 32 :=
  bitSlice_eq_extract_low instr 6 5 (by decide) (by decide)

theorem cRdSmall_eq : instr.cRdSmall = (Spec.Compressed.rdSmall instr.low).setWidth 32 := by
  rw [cRdSmall, bitSlice_eq_extract_low _ _ _ (by decide) (by decide)]
  apply BitVec.eq_of_getLsbD_eq
  intro index present
  simp only [Spec.Compressed.rdSmall, BitVec.getLsbD_or, BitVec.getLsbD_setWidth,
    BitVec.getLsbD_append]
  interval_cases index <;> simp

theorem cRs2Small_eq : instr.cRs2Small = (Spec.Compressed.rs2Small instr.low).setWidth 32 := by
  rw [cRs2Small, bitSlice_eq_extract_low _ _ _ (by decide) (by decide)]
  apply BitVec.eq_of_getLsbD_eq
  intro index present
  simp only [Spec.Compressed.rs2Small, BitVec.getLsbD_or, BitVec.getLsbD_setWidth,
    BitVec.getLsbD_append]
  interval_cases index <;> simp

theorem cUimm_eq :
    instr.cUimm = (Spec.Compressed.bit12 instr.low ++ Spec.Compressed.shamt instr.low).setWidth 32 := by
  apply BitVec.eq_of_getLsbD_eq
  intro index present
  simp (disch := omega) only [cUimm, low, Spec.Compressed.bit12, Spec.Compressed.shamt,
    BitVec.getLsbD_or, BitVec.getLsbD_shiftLeft, getLsbD_bitSlice, getLsbD_bitSingleP1,
    BitVec.getLsbD_append, BitVec.getLsbD_extractLsb', BitVec.getLsbD_setWidth]
  interval_cases index <;> simp

theorem cImm_eq : instr.cImm = Spec.Compressed.imm6 instr.low := by
  apply BitVec.eq_of_getLsbD_eq
  intro index present
  simp (disch := omega) only [cImm, BitVec.getLsbD_or, getLsbD_bitSlice, getLsbD_extractSignBit]
  simp only [low, Spec.Compressed.imm6, BitVec.msb_eq_getLsbD_last, BitVec.getLsbD_signExtend,
    BitVec.getLsbD_append, BitVec.getLsbD_extractLsb', BitVec.getLsbD_setWidth]
  interval_cases index <;> simp

theorem cAddi4spnNzuimm_eq : cAddi4spnNzuimm instr = Spec.Compressed.immAddi4spn instr.low := by
  apply BitVec.eq_of_getLsbD_eq
  intro index present
  simp (disch := omega) only [cAddi4spnNzuimm, BitVec.getLsbD_or, BitVec.getLsbD_shiftLeft,
    getLsbD_bitSliceU, getLsbD_bitSingleP1U]
  simp only [low, Spec.Compressed.immAddi4spn, BitVec.getLsbD_append,
    BitVec.getLsbD_extractLsb', BitVec.getLsbD_setWidth, BitVec.zeroExtend]
  interval_cases index <;> simp

theorem cLwUimm_eq : cLwUimm instr = Spec.Compressed.immLw instr.low := by
  apply BitVec.eq_of_getLsbD_eq
  intro index present
  simp (disch := omega) only [cLwUimm, BitVec.getLsbD_or, BitVec.getLsbD_shiftLeft,
    getLsbD_bitSliceU, getLsbD_bitSingleP1U]
  simp only [low, Spec.Compressed.immLw, BitVec.getLsbD_append, BitVec.getLsbD_extractLsb',
    BitVec.getLsbD_setWidth, BitVec.zeroExtend]
  interval_cases index <;> simp

theorem cJalImm_eq : cJalImm instr = Spec.Compressed.immJ instr.low := by
  apply BitVec.eq_of_getLsbD_eq
  intro index present
  simp (disch := omega) only [cJalImm, BitVec.getLsbD_or, BitVec.getLsbD_shiftLeft,
    getLsbD_bitSlice, getLsbD_bitSinglePN, getLsbD_extractSignBit]
  simp only [low, Spec.Compressed.immJ, BitVec.msb_eq_getLsbD_last, BitVec.getLsbD_signExtend,
    BitVec.getLsbD_append, BitVec.getLsbD_extractLsb', BitVec.getLsbD_setWidth]
  interval_cases index <;> simp

theorem cAddi16spNzimm_eq : cAddi16spNzimm instr = Spec.Compressed.immAddi16sp instr.low := by
  apply BitVec.eq_of_getLsbD_eq
  intro index present
  simp (disch := omega) only [cAddi16spNzimm, BitVec.getLsbD_or, BitVec.getLsbD_shiftLeft,
    getLsbD_bitSlice, getLsbD_bitSinglePN, getLsbD_extractSignBit]
  simp only [low, Spec.Compressed.immAddi16sp, BitVec.msb_eq_getLsbD_last,
    BitVec.getLsbD_signExtend, BitVec.getLsbD_append, BitVec.getLsbD_extractLsb',
    BitVec.getLsbD_setWidth]
  interval_cases index <;> simp

theorem cLuiNzimm_eq : cLuiNzimm instr = Spec.Compressed.immLui instr.low := by
  apply BitVec.eq_of_getLsbD_eq
  intro index present
  simp (disch := omega) only [cLuiNzimm, BitVec.getLsbD_or, BitVec.getLsbD_shiftLeft,
    getLsbD_bitSlice, getLsbD_extractSignBit]
  simp only [low, Spec.Compressed.immLui, BitVec.msb_eq_getLsbD_last, BitVec.getLsbD_signExtend,
    BitVec.getLsbD_append, BitVec.getLsbD_extractLsb', BitVec.getLsbD_setWidth]
  interval_cases index <;> simp

theorem cBranchImm_eq : cBranchImm instr = Spec.Compressed.immB instr.low := by
  apply BitVec.eq_of_getLsbD_eq
  intro index present
  simp (disch := omega) only [cBranchImm, BitVec.getLsbD_or, BitVec.getLsbD_shiftLeft,
    getLsbD_bitSlice, getLsbD_bitSinglePN, getLsbD_extractSignBit]
  simp only [low, Spec.Compressed.immB, BitVec.msb_eq_getLsbD_last, BitVec.getLsbD_signExtend,
    BitVec.getLsbD_append, BitVec.getLsbD_extractLsb', BitVec.getLsbD_setWidth]
  interval_cases index <;> simp

theorem cLwspUimm_eq : cLwspUimm instr = Spec.Compressed.immLwsp instr.low := by
  apply BitVec.eq_of_getLsbD_eq
  intro index present
  simp (disch := omega) only [cLwspUimm, BitVec.getLsbD_or, BitVec.getLsbD_shiftLeft,
    getLsbD_bitSliceU, getLsbD_bitSinglePNU]
  simp only [low, Spec.Compressed.immLwsp, BitVec.getLsbD_append, BitVec.getLsbD_extractLsb',
    BitVec.getLsbD_setWidth, BitVec.zeroExtend]
  interval_cases index <;> simp

theorem cSwspUimm_eq : cSwspUimm instr = Spec.Compressed.immSwsp instr.low := by
  apply BitVec.eq_of_getLsbD_eq
  intro index present
  simp (disch := omega) only [cSwspUimm, BitVec.getLsbD_or, BitVec.getLsbD_shiftLeft,
    getLsbD_bitSliceU]
  simp only [low, Spec.Compressed.immSwsp, BitVec.getLsbD_append, BitVec.getLsbD_extractLsb',
    BitVec.getLsbD_setWidth, BitVec.zeroExtend]
  interval_cases index <;> simp

end Compressed

end Instruction

end SymexVP
