import SymexVP.DecoderAgreement
import SymexVP.EncoderLayout

/-!
# The encoders and the accessors are inverse

`InstructionFactory` puts the operands of an instruction into a word with one set of
shifts and masks, the accessors of `Instruction` take them out with another, and the
immediates are scattered in between. Every call of the factory is listed here with
operands of the ranges its format has, and what the accessors read from its word is
compared with them.
-/

namespace SymexVP.InstructionFactory

open Opcode Instruction
open Spec (Register layout)

/-! ## Operands -/

/-- A signed immediate of `n` bits, in the word the source passes it in. -/
@[ext] structure Immediate (n : Nat) where
  value : BitVec 32
  lower : -2 ^ (n - 1) ≤ value.toInt
  upper : value.toInt < 2 ^ (n - 1)

/-- An even immediate. -/
@[ext] structure Offset (n : Nat) extends Immediate n where
  even : value.toInt % 2 = 0

/-- An immediate that takes the upper twenty bits of a word. -/
@[ext] structure Upper where
  value : BitVec 32
  aligned : value.toNat % 2 ^ 12 = 0

/-- What the range of an immediate says: its low bits determine it. -/
theorem Immediate.signed_value {n : Nat} (imm : Immediate n) (positive : 0 < n) (fits : n ≤ 32) :
    Spec.signed n imm.value = imm.value := by
  obtain ⟨value, lower, upper⟩ := imm
  have divides : (2 ^ n : Nat) ∣ 2 ^ 32 := Nat.pow_dvd_pow 2 fits
  have half : ((2 ^ n : Nat) : Int) = 2 * 2 ^ (n - 1) := by
    rw [← Int.pow_succ', Nat.sub_add_cancel positive]
    push_cast
    rfl
  apply BitVec.eq_of_toInt_eq
  calc (Spec.signed n value).toInt
      = (value.toNat : Int).bmod (2 ^ n) := by
        rw [Spec.signed, BitVec.toInt_signExtend_of_le fits, BitVec.toInt_setWidth]
    _ = value.toInt.bmod (2 ^ n) := by
        rw [BitVec.toInt_eq_toNat_bmod, Int.bmod_bmod_of_dvd divides]
    _ = value.toInt := by
        apply Int.bmod_eq_of_le
        · omega
        · omega

theorem Offset.getLsbD_zero {n : Nat} (imm : Offset n) : imm.value.getLsbD 0 = false := by
  have even : imm.value.toNat % 2 = 0 := by
    have even := imm.even
    rw [BitVec.toInt_eq_toNat_cond] at even
    split at even <;> omega
  simpa [BitVec.getLsbD] using even

theorem Upper.getLsbD_low (imm : Upper) : ∀ index < 12, imm.value.getLsbD index = false := by
  intro index low
  have bit := congrArg (Nat.testBit · index) imm.aligned
  rw [Nat.testBit_mod_two_pow, Nat.zero_testBit, decide_eq_true low, Bool.true_and] at bit
  exact bit

/-! ## Calls -/

/-- The encoders of three registers. -/
inductive RegisterOp
  | add | and | or | xor | sub | addw | subw

def RegisterOp.mapping : RegisterOp → Mapping
  | .add => .add
  | .and => .and
  | .or => .or
  | .xor => .xor
  | .sub => .sub
  | .addw => .addw
  | .subw => .subw

def RegisterOp.encode : RegisterOp → BitVec 32 → BitVec 32 → BitVec 32 → Instruction
  | .add => InstructionFactory.add
  | .and => InstructionFactory.and
  | .or => InstructionFactory.or
  | .xor => InstructionFactory.xor
  | .sub => InstructionFactory.sub
  | .addw => InstructionFactory.addw
  | .subw => InstructionFactory.subw

theorem RegisterOp.mapping_injective : Function.Injective RegisterOp.mapping := by
  rintro ⟨⟩ ⟨⟩ same <;> first | rfl | cases same

/-- The encoders of two registers and an immediate. -/
inductive ImmediateOp
  | lw | ld | flw | fld | addi | andi | jalr | addiw

def ImmediateOp.mapping : ImmediateOp → Mapping
  | .lw => .lw
  | .ld => .ld
  | .flw => .flw
  | .fld => .fld
  | .addi => .addi
  | .andi => .andi
  | .jalr => .jalr
  | .addiw => .addiw

def ImmediateOp.encode : ImmediateOp → BitVec 32 → BitVec 32 → BitVec 32 → Instruction
  | .lw => InstructionFactory.lw
  | .ld => InstructionFactory.ld
  | .flw => InstructionFactory.flw
  | .fld => InstructionFactory.fld
  | .addi => InstructionFactory.addi
  | .andi => InstructionFactory.andi
  | .jalr => InstructionFactory.jalr
  | .addiw => InstructionFactory.addiw

theorem ImmediateOp.mapping_injective : Function.Injective ImmediateOp.mapping := by
  rintro ⟨⟩ ⟨⟩ same <;> first | rfl | cases same

/-- The encoders of the shifts. -/
inductive ShiftOp
  | srli | srai | slli

def ShiftOp.mapping : ShiftOp → Mapping
  | .srli => .srli
  | .srai => .srai
  | .slli => .slli

def ShiftOp.encode : ShiftOp → BitVec 32 → BitVec 32 → BitVec 32 → Instruction
  | .srli => InstructionFactory.srli
  | .srai => InstructionFactory.srai
  | .slli => InstructionFactory.slli

theorem ShiftOp.mapping_injective : Function.Injective ShiftOp.mapping := by
  rintro ⟨⟩ ⟨⟩ same <;> first | rfl | cases same

/-- The encoders of the stores. -/
inductive StoreOp
  | sw | sd | fsw | fsd

def StoreOp.mapping : StoreOp → Mapping
  | .sw => .sw
  | .sd => .sd
  | .fsw => .fsw
  | .fsd => .fsd

def StoreOp.encode : StoreOp → BitVec 32 → BitVec 32 → BitVec 32 → Instruction
  | .sw => InstructionFactory.sw
  | .sd => InstructionFactory.sd
  | .fsw => InstructionFactory.fsw
  | .fsd => InstructionFactory.fsd

theorem StoreOp.mapping_injective : Function.Injective StoreOp.mapping := by
  rintro ⟨⟩ ⟨⟩ same <;> first | rfl | cases same

/-- The encoders of the branches. -/
inductive BranchOp
  | beq | bne

def BranchOp.mapping : BranchOp → Mapping
  | .beq => .beq
  | .bne => .bne

def BranchOp.encode : BranchOp → BitVec 32 → BitVec 32 → BitVec 32 → Instruction
  | .beq => InstructionFactory.beq
  | .bne => InstructionFactory.bne

theorem BranchOp.mapping_injective : Function.Injective BranchOp.mapping := by
  rintro ⟨⟩ ⟨⟩ same <;> first | rfl | cases same

/-- A call of the factory with operands its format has room for. `EBREAK` takes none. -/
inductive Call
  | register (op : RegisterOp) (rd rs1 rs2 : Register)
  | immediate (op : ImmediateOp) (rd rs1 : Register) (imm : Immediate 12)
  | shift (op : ShiftOp) (rd rs1 : Register) (shamt : BitVec 5)
  | store (op : StoreOp) (rs1 rs2 : Register) (imm : Immediate 12)
  | branch (op : BranchOp) (rs1 rs2 : Register) (imm : Offset 13)
  | lui (rd : Register) (imm : Upper)
  | jal (rd : Register) (imm : Offset 21)

namespace Call

/-- The instruction that is called for. -/
def mapping : Call → Mapping
  | register op .. => op.mapping
  | immediate op .. => op.mapping
  | shift op .. => op.mapping
  | store op .. => op.mapping
  | branch op .. => op.mapping
  | lui .. => .lui
  | jal .. => .jal

/-- The word the factory returns. -/
def word : Call → Instruction
  | register op rd rs1 rs2 => op.encode (rd.setWidth 32) (rs1.setWidth 32) (rs2.setWidth 32)
  | immediate op rd rs1 imm => op.encode (rd.setWidth 32) (rs1.setWidth 32) imm.value
  | shift op rd rs1 shamt => op.encode (rd.setWidth 32) (rs1.setWidth 32) (shamt.setWidth 32)
  | store op rs1 rs2 imm => op.encode (rs1.setWidth 32) (rs2.setWidth 32) imm.value
  | branch op rs1 rs2 imm => op.encode (rs1.setWidth 32) (rs2.setWidth 32) imm.value
  | lui rd imm => InstructionFactory.lui (rd.setWidth 32) imm.value
  | jal rd imm => InstructionFactory.jal (rd.setWidth 32) imm.value

/-- The codes of an instruction, as the decoder's table has them. -/
def code (call : Call) : Instruction := (pattern call.mapping).encoding

/-- The accessors of a format read the operands and the codes. -/
def ReadBack (word : Instruction) (call : Call) : Prop :=
  word.opcode = call.code.opcode ∧
    match call with
    | register _ rd rs1 rs2 =>
        (word.rd = rd.setWidth 32 ∧ word.rs1 = rs1.setWidth 32 ∧ word.rs2 = rs2.setWidth 32) ∧
          word.funct3 = call.code.funct3 ∧ word.funct7 = call.code.funct7
    | immediate _ rd rs1 imm =>
        (word.rd = rd.setWidth 32 ∧ word.rs1 = rs1.setWidth 32 ∧ word.iImm = imm.value) ∧
          word.funct3 = call.code.funct3
    | shift _ rd rs1 shamt =>
        (word.rd = rd.setWidth 32 ∧ word.rs1 = rs1.setWidth 32 ∧ word.shamt = shamt.setWidth 32) ∧
          word.funct3 = call.code.funct3 ∧ word.funct7 = call.code.funct7
    | store _ rs1 rs2 imm =>
        (word.rs1 = rs1.setWidth 32 ∧ word.rs2 = rs2.setWidth 32 ∧ word.sImm = imm.value) ∧
          word.funct3 = call.code.funct3
    | branch _ rs1 rs2 imm =>
        (word.rs1 = rs1.setWidth 32 ∧ word.rs2 = rs2.setWidth 32 ∧ word.bImm = imm.value) ∧
          word.funct3 = call.code.funct3
    | lui rd imm => word.rd = rd.setWidth 32 ∧ word.uImm = imm.value
    | jal rd imm => word.rd = rd.setWidth 32 ∧ word.jImm = imm.value

end Call

/-! ## Codes -/

section Codes

variable (a b c : BitVec 32)

theorem RegisterOp.matches_encode (op : RegisterOp) :
    Matches (pattern32 op.mapping) (op.encode a b c) := by
  cases op <;> exact matches_rFormat _ _ _ _ _ _ rfl (by decide)

theorem ImmediateOp.matches_encode (op : ImmediateOp) :
    Matches (pattern32 op.mapping) (op.encode a b c) := by
  cases op <;> exact matches_iFormat _ _ _ _ _ rfl (by decide)

theorem ShiftOp.matches_encode (op : ShiftOp) (shamt : BitVec 5) :
    Matches (pattern32 op.mapping) (op.encode a b (shamt.setWidth 32)) := by
  have small : ¬ (31 : BitVec 32) < shamt.setWidth 32 := by
    have bound := shamt.isLt
    rw [BitVec.lt_def, BitVec.toNat_setWidth_of_le (by decide)]
    exact Nat.not_lt.mpr (Nat.le_of_lt_succ bound)
  cases op <;> exact matches_shiftFormat32 _ _ _ _ _ small rfl (by decide)

theorem StoreOp.matches_encode (op : StoreOp) :
    Matches (pattern32 op.mapping) (op.encode a b c) := by
  cases op <;> exact matches_sFormat _ _ _ _ _ rfl (by decide)

theorem BranchOp.matches_encode (op : BranchOp) :
    Matches (pattern32 op.mapping) (op.encode a b c) := by
  cases op <;> exact matches_bFormat _ _ _ _ rfl (by decide)

/-- The pattern of the instruction fixes a field. -/
abbrev Covered (op : Mapping) (upper lower : Nat) : Prop :=
  bitRange (pattern32 op).mask upper lower = BitFields.fieldMask 32 lower (upper - lower + 1)

theorem RegisterOp.covered (op : RegisterOp) :
    Covered op.mapping 6 0 ∧ Covered op.mapping 14 12 ∧ Covered op.mapping 31 25 := by
  cases op <;> decide

theorem ImmediateOp.covered (op : ImmediateOp) :
    Covered op.mapping 6 0 ∧ Covered op.mapping 14 12 := by
  cases op <;> decide

theorem ShiftOp.covered (op : ShiftOp) :
    Covered op.mapping 6 0 ∧ Covered op.mapping 14 12 ∧ Covered op.mapping 31 25 := by
  cases op <;> decide

theorem StoreOp.covered (op : StoreOp) : Covered op.mapping 6 0 ∧ Covered op.mapping 14 12 := by
  cases op <;> decide

theorem BranchOp.covered (op : BranchOp) : Covered op.mapping 6 0 ∧ Covered op.mapping 14 12 := by
  cases op <;> decide

end Codes

namespace Call

/-- A call's word has the pattern of its instruction. -/
theorem matches_word (call : Call) : Matches (pattern32 call.mapping) call.word := by
  cases call with
  | register op => exact op.matches_encode _ _ _
  | immediate op => exact op.matches_encode _ _ _
  | shift op => exact op.matches_encode _ _ _
  | store op => exact op.matches_encode _ _ _
  | branch op => exact op.matches_encode _ _ _
  | lui => exact matches_lui _ _
  | jal => exact matches_jal _ _

/-- The table's pattern for RV32 differs from the general one in its mask only. -/
theorem code_eq (call : Call) : (pattern32 call.mapping).encoding = call.code := by
  unfold code
  generalize call.mapping = op
  cases op <;> rfl

theorem named (call : Call) : call.mapping ≠ .undefined := by
  cases call with
  | register op | immediate op | shift op | store op | branch op => cases op <;> nofun
  | lui | jal => nofun

/-- A word is built for one instruction only. -/
theorem mapping_eq_of_word {first second : Call} (same : first.word = second.word) :
    first.mapping = second.mapping := by
  have firstMatched : Matches (patternFor .rv32 first.mapping) first.word := first.matches_word
  have secondMatched : Matches (patternFor .rv32 second.mapping) first.word :=
    same ▸ second.matches_word
  exact pattern_unique .rv32 _ first.named second.named firstMatched secondMatched

end Call

/-! ## Operands -/

section Operands

variable (rd rs1 rs2 : Register) (imm : BitVec 32)

theorem RegisterOp.encode_eq (op : RegisterOp) :
    ∃ funct7 funct3 opcode,
      op.encode (rd.setWidth 32) (rs1.setWidth 32) (rs2.setWidth 32) =
        layout funct7 rs2 rs1 funct3 rd opcode := by
  cases op with
  | add => exact ⟨0, 0, 51, rFormat_eq_layout 51 0 0 rd rs1 rs2⟩
  | and => exact ⟨0, 7, 51, rFormat_eq_layout 51 7 0 rd rs1 rs2⟩
  | or => exact ⟨0, 6, 51, rFormat_eq_layout 51 6 0 rd rs1 rs2⟩
  | xor => exact ⟨0, 4, 51, rFormat_eq_layout 51 4 0 rd rs1 rs2⟩
  | sub => exact ⟨32, 0, 51, rFormat_eq_layout 51 0 32 rd rs1 rs2⟩
  | addw => exact ⟨0, 0, 59, rFormat_eq_layout 59 0 0 rd rs1 rs2⟩
  | subw => exact ⟨32, 0, 59, rFormat_eq_layout 59 0 32 rd rs1 rs2⟩

theorem ImmediateOp.encode_eq (op : ImmediateOp) :
    ∃ funct3 opcode,
      op.encode (rd.setWidth 32) (rs1.setWidth 32) imm =
        layout (imm.extractLsb' 5 7) (imm.extractLsb' 0 5) rs1 funct3 rd opcode := by
  cases op with
  | lw => exact ⟨2, 3, iFormat_eq_layout 3 2 rd rs1 imm⟩
  | ld => exact ⟨3, 3, iFormat_eq_layout 3 3 rd rs1 imm⟩
  | flw => exact ⟨2, 7, iFormat_eq_layout 7 2 rd rs1 imm⟩
  | fld => exact ⟨3, 7, iFormat_eq_layout 7 3 rd rs1 imm⟩
  | addi => exact ⟨0, 19, iFormat_eq_layout 19 0 rd rs1 imm⟩
  | andi => exact ⟨7, 19, iFormat_eq_layout 19 7 rd rs1 imm⟩
  | jalr => exact ⟨0, 103, iFormat_eq_layout 103 0 rd rs1 imm⟩
  | addiw => exact ⟨0, 27, iFormat_eq_layout 27 0 rd rs1 imm⟩

/-- The bit above the amount is clear. -/
theorem ShiftOp.encode_eq (op : ShiftOp) :
    ∃ funct7 funct3,
      op.encode (rd.setWidth 32) (rs1.setWidth 32) (rs2.setWidth 32) =
        layout funct7 rs2 rs1 funct3 rd 19 ∧ funct7.getLsbD 0 = false := by
  cases op with
  | srli => exact ⟨0, 5, shiftFormat_eq_layout 5 0 rd rs1 rs2, rfl⟩
  | srai => exact ⟨32, 5, shiftFormat_eq_layout 5 32 rd rs1 rs2, rfl⟩
  | slli => exact ⟨0, 1, shiftFormat_eq_layout 1 0 rd rs1 rs2, rfl⟩

theorem StoreOp.encode_eq (op : StoreOp) :
    ∃ funct3 opcode,
      op.encode (rs1.setWidth 32) (rs2.setWidth 32) imm =
        layout (imm.extractLsb' 5 7) rs2 rs1 funct3 (imm.extractLsb' 0 5) opcode := by
  cases op with
  | sw => exact ⟨2, 35, sFormat_eq_layout 35 2 rs1 rs2 imm⟩
  | sd => exact ⟨3, 35, sFormat_eq_layout 35 3 rs1 rs2 imm⟩
  | fsw => exact ⟨2, 39, sFormat_eq_layout 39 2 rs1 rs2 imm⟩
  | fsd => exact ⟨3, 39, sFormat_eq_layout 39 3 rs1 rs2 imm⟩

theorem BranchOp.encode_eq (op : BranchOp) :
    ∃ funct3,
      op.encode (rs1.setWidth 32) (rs2.setWidth 32) imm =
        layout (imm.extractLsb' 12 1 ++ imm.extractLsb' 5 6) rs2 rs1 funct3
          (imm.extractLsb' 1 4 ++ imm.extractLsb' 11 1) 99 := by
  cases op with
  | beq => exact ⟨0, bFormat_eq_layout 0 rs1 rs2 imm⟩
  | bne => exact ⟨1, bFormat_eq_layout 1 rs1 rs2 imm⟩

end Operands

/-! ## Words -/

namespace Call

theorem opcode_word (call : Call) : call.word.opcode = call.code.opcode := by
  rw [← call.code_eq]
  apply opcode_of_matches call.matches_word
  cases call with
  | register op => exact op.covered.1
  | immediate op => exact op.covered.1
  | shift op => exact op.covered.1
  | store op => exact op.covered.1
  | branch op => exact op.covered.1
  | lui => exact (by decide : Covered .lui 6 0)
  | jal => exact (by decide : Covered .jal 6 0)

theorem funct3_word (call : Call) (covered : Covered call.mapping 14 12) :
    call.word.funct3 = call.code.funct3 := by
  rw [← call.code_eq]
  exact funct3_of_matches call.matches_word covered

theorem funct7_word (call : Call) (covered : Covered call.mapping 31 25) :
    call.word.funct7 = call.code.funct7 := by
  rw [← call.code_eq]
  exact funct7_of_matches call.matches_word covered

/-- The accessors give back what the encoders have been given. -/
theorem readBack (call : Call) : call.ReadBack call.word := by
  refine ⟨call.opcode_word, ?_⟩
  cases call with
  | register op rd rs1 rs2 =>
      refine ⟨?_, funct3_word _ op.covered.2.1, funct7_word _ op.covered.2.2⟩
      obtain ⟨funct7, funct3, opcode, packed⟩ := op.encode_eq rd rs1 rs2
      rw [word, packed, rd_eq, rs1_eq, rs2_eq, Spec.rd_layout, Spec.rs1_layout, Spec.rs2_layout]
      exact ⟨rfl, rfl, rfl⟩
  | immediate op rd rs1 imm =>
      refine ⟨?_, funct3_word _ op.covered.2⟩
      obtain ⟨funct3, opcode, packed⟩ := op.encode_eq rd rs1 imm.value
      rw [word, packed, rd_eq, rs1_eq, iImm_eq, Spec.rd_layout, Spec.rs1_layout, Spec.immI_layout]
      exact ⟨rfl, rfl, imm.signed_value (by decide) (by decide)⟩
  | shift op rd rs1 shamt =>
      refine ⟨?_, funct3_word _ op.covered.2.1, funct7_word _ op.covered.2.2⟩
      obtain ⟨funct7, funct3, packed, short⟩ := op.encode_eq rd rs1 shamt
      rw [word, packed, rd_eq, rs1_eq, shamt_eq _ (by rwa [Spec.funct7_layout]), Spec.rd_layout,
        Spec.rs1_layout, Spec.rs2_layout]
      exact ⟨rfl, rfl, rfl⟩
  | store op rs1 rs2 imm =>
      refine ⟨?_, funct3_word _ op.covered.2⟩
      obtain ⟨funct3, opcode, packed⟩ := op.encode_eq rs1 rs2 imm.value
      rw [word, packed, rs1_eq, rs2_eq, sImm_eq, Spec.rs1_layout, Spec.rs2_layout, Spec.immS_layout]
      exact ⟨rfl, rfl, imm.signed_value (by decide) (by decide)⟩
  | branch op rs1 rs2 imm =>
      refine ⟨?_, funct3_word _ op.covered.2⟩
      obtain ⟨funct3, packed⟩ := op.encode_eq rs1 rs2 imm.value
      rw [word, packed, rs1_eq, rs2_eq, bImm_eq, Spec.rs1_layout, Spec.rs2_layout,
        Spec.immB_layout _ _ _ _ _ imm.getLsbD_zero]
      exact ⟨rfl, rfl, imm.signed_value (by decide) (by decide)⟩
  | lui rd imm =>
      rw [word, lui_eq_layout, rd_eq, uImm_eq, Spec.rd_layout,
        Spec.immU_layout _ _ _ imm.getLsbD_low]
      exact ⟨rfl, rfl⟩
  | jal rd imm =>
      rw [word, jal_eq_layout, rd_eq, jImm_eq, Spec.rd_layout,
        Spec.immJ_layout _ _ _ imm.getLsbD_zero]
      exact ⟨rfl, imm.signed_value (by decide) (by decide)⟩

/-! ## Injectivity -/

/-- The lists of operands. -/
inductive Format
  | register | immediate | shift | store | branch | lui | jal

def format : Call → Format
  | register .. => .register
  | immediate .. => .immediate
  | shift .. => .shift
  | store .. => .store
  | branch .. => .branch
  | lui .. => .lui
  | jal .. => .jal

/-- The list an instruction has. -/
def formatOf : Mapping → Option Format
  | .add | .and | .or | .xor | .sub | .addw | .subw => some .register
  | .lw | .ld | .flw | .fld | .addi | .andi | .jalr | .addiw => some .immediate
  | .srli | .srai | .slli => some .shift
  | .sw | .sd | .fsw | .fsd => some .store
  | .beq | .bne => some .branch
  | .lui => some .lui
  | .jal => some .jal
  | _ => none

theorem formatOf_mapping (call : Call) : formatOf call.mapping = some call.format := by
  cases call with
  | register op | immediate op | shift op | store op | branch op => cases op <;> rfl
  | lui | jal => rfl

/-- Registers and amounts are passed in wider words. -/
theorem register_eq {first second : BitVec 5} (same : first.setWidth 32 = second.setWidth 32) :
    first = second :=
  BitFields.setWidth_injective (by decide) same

/-- What the accessors read determines the operands of a call for an instruction. -/
theorem eq_of_readBack {word : Instruction} {first second : Call}
    (called : first.mapping = second.mapping) (firstRead : first.ReadBack word)
    (secondRead : second.ReadBack word) : first = second := by
  have formats : some first.format = some second.format := by
    rw [← formatOf_mapping, ← formatOf_mapping, called]
  cases first with
  | register op rd rs1 rs2 =>
      cases second with
      | register op' rd' rs1' rs2' =>
          obtain rfl := op.mapping_injective called
          obtain ⟨-, ⟨first, second, third⟩, -⟩ := firstRead
          obtain ⟨-, ⟨first', second', third'⟩, -⟩ := secondRead
          rw [register_eq (first.symm.trans first'), register_eq (second.symm.trans second'),
            register_eq (third.symm.trans third')]
      | _ => cases formats
  | immediate op rd rs1 imm =>
      cases second with
      | immediate op' rd' rs1' imm' =>
          obtain rfl := op.mapping_injective called
          obtain ⟨-, ⟨first, second, third⟩, -⟩ := firstRead
          obtain ⟨-, ⟨first', second', third'⟩, -⟩ := secondRead
          rw [register_eq (first.symm.trans first'), register_eq (second.symm.trans second'),
            Immediate.ext (third.symm.trans third')]
      | _ => cases formats
  | shift op rd rs1 shamt =>
      cases second with
      | shift op' rd' rs1' shamt' =>
          obtain rfl := op.mapping_injective called
          obtain ⟨-, ⟨first, second, third⟩, -⟩ := firstRead
          obtain ⟨-, ⟨first', second', third'⟩, -⟩ := secondRead
          rw [register_eq (first.symm.trans first'), register_eq (second.symm.trans second'),
            register_eq (third.symm.trans third')]
      | _ => cases formats
  | store op rs1 rs2 imm =>
      cases second with
      | store op' rs1' rs2' imm' =>
          obtain rfl := op.mapping_injective called
          obtain ⟨-, ⟨first, second, third⟩, -⟩ := firstRead
          obtain ⟨-, ⟨first', second', third'⟩, -⟩ := secondRead
          rw [register_eq (first.symm.trans first'), register_eq (second.symm.trans second'),
            Immediate.ext (third.symm.trans third')]
      | _ => cases formats
  | branch op rs1 rs2 imm =>
      cases second with
      | branch op' rs1' rs2' imm' =>
          obtain rfl := op.mapping_injective called
          obtain ⟨-, ⟨first, second, third⟩, -⟩ := firstRead
          obtain ⟨-, ⟨first', second', third'⟩, -⟩ := secondRead
          rw [register_eq (first.symm.trans first'), register_eq (second.symm.trans second'),
            Offset.ext (third.symm.trans third')]
      | _ => cases formats
  | lui rd imm =>
      cases second with
      | lui rd' imm' =>
          obtain ⟨-, first, second⟩ := firstRead
          obtain ⟨-, first', second'⟩ := secondRead
          rw [register_eq (first.symm.trans first'), Upper.ext (second.symm.trans second')]
      | _ => cases formats
  | jal rd imm =>
      cases second with
      | jal rd' imm' =>
          obtain ⟨-, first, second⟩ := firstRead
          obtain ⟨-, first', second'⟩ := secondRead
          rw [register_eq (first.symm.trans first'), Offset.ext (second.symm.trans second')]
      | _ => cases formats

end Call

/-- The accessors read the operands and the codes of every call from its word, so that two calls
with the same word are the same. -/
theorem fields_of_encoders :
    (∀ call : Call, call.ReadBack call.word) ∧ Function.Injective Call.word := by
  refine ⟨Call.readBack, fun first second same => ?_⟩
  exact Call.eq_of_readBack (Call.mapping_eq_of_word same) first.readBack (same ▸ second.readBack)

end SymexVP.InstructionFactory
