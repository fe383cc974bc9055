import SymexVP.Instruction
import SymexVP.Opcode

/-!
# The decoder for uncompressed instructions

`decodeNormal` follows the nested switches of `Instruction::decode_normal`: the
major opcode selects a group, and the group selects one candidate by its
function codes. A candidate is returned only if the whole word agrees with its
mask and encoding. A key with no case leaves the switch and ends in `undefined`.
The groups are separate definitions; in the source they are the cases of one
switch.
-/

namespace SymexVP

open Opcode

namespace Instruction

/-- `MATCH_AND_RETURN_INSTR2`: return `result` if the word has the given pattern. -/
def matchAndReturn2 (instr : Instruction) (expected : Pattern) (result : Mapping) : Mapping :=
  if instr &&& expected.mask ≠ expected.encoding then .undefined else result

/-- `MATCH_AND_RETURN_INSTR`: return an instruction if the word has its own pattern. -/
def matchAndReturn (instr : Instruction) (result : Mapping) : Mapping :=
  matchAndReturn2 instr (pattern result) result

/-- The `OP_BEQ` group: the conditional branches. -/
def decodeBranch (instr : Instruction) : Mapping :=
  if instr.funct3 = f3Beq then matchAndReturn instr .beq
  else if instr.funct3 = f3Bne then matchAndReturn instr .bne
  else if instr.funct3 = f3Blt then matchAndReturn instr .blt
  else if instr.funct3 = f3Bge then matchAndReturn instr .bge
  else if instr.funct3 = f3Bltu then matchAndReturn instr .bltu
  else if instr.funct3 = f3Bgeu then matchAndReturn instr .bgeu
  else .undefined

/-- The `OP_LB` group: the loads. -/
def decodeLoad (instr : Instruction) : Mapping :=
  if instr.funct3 = f3Lb then matchAndReturn instr .lb
  else if instr.funct3 = f3Lh then matchAndReturn instr .lh
  else if instr.funct3 = f3Lw then matchAndReturn instr .lw
  else if instr.funct3 = f3Lbu then matchAndReturn instr .lbu
  else if instr.funct3 = f3Lhu then matchAndReturn instr .lhu
  else if instr.funct3 = f3Lwu then matchAndReturn instr .lwu
  else if instr.funct3 = f3Ld then matchAndReturn instr .ld
  else .undefined

/-- The `OP_SB` group: the stores. -/
def decodeStore (instr : Instruction) : Mapping :=
  if instr.funct3 = f3Sb then matchAndReturn instr .sb
  else if instr.funct3 = f3Sh then matchAndReturn instr .sh
  else if instr.funct3 = f3Sw then matchAndReturn instr .sw
  else if instr.funct3 = f3Sd then matchAndReturn instr .sd
  else .undefined

/-- The `OP_ADDI` group: the register-immediate operations. -/
def decodeOpImm (arch : Architecture) (instr : Instruction) : Mapping :=
  if instr.funct3 = f3Addi then matchAndReturn instr .addi
  else if instr.funct3 = f3Slti then matchAndReturn instr .slti
  else if instr.funct3 = f3Sltiu then matchAndReturn instr .sltiu
  else if instr.funct3 = f3Xori then matchAndReturn instr .xori
  else if instr.funct3 = f3Ori then matchAndReturn instr .ori
  else if instr.funct3 = f3Andi then matchAndReturn instr .andi
  else if instr.funct3 = f3Slli then
    if arch = .rv32 then matchAndReturn2 instr (pattern32 .slli) .slli
    else matchAndReturn instr .slli
  else if instr.funct3 = f3Srli then
    if instr.funct6 = f6Srli then
      if arch = .rv32 then matchAndReturn2 instr (pattern32 .srli) .srli
      else matchAndReturn instr .srli
    else if instr.funct6 = f6Srai then
      if arch = .rv32 then matchAndReturn2 instr (pattern32 .srai) .srai
      else matchAndReturn instr .srai
    else .undefined
  else .undefined

/-- The `OP_ADDIW` group: the RV64 word operations with an immediate. -/
def decodeOpImmW (instr : Instruction) : Mapping :=
  if instr.funct3 = f3Addiw then matchAndReturn instr .addiw
  else if instr.funct3 = f3Slliw then matchAndReturn instr .slliw
  else if instr.funct3 = f3Srliw then
    if instr.funct7 = f7Srliw then matchAndReturn instr .srliw
    else if instr.funct7 = f7Sraiw then matchAndReturn instr .sraiw
    else .undefined
  else .undefined

/-- The `OP_ADD` group: the register-register operations and RV32M. -/
def decodeOp (instr : Instruction) : Mapping :=
  if instr.funct7 = f7Add then
    if instr.funct3 = f3Add then matchAndReturn instr .add
    else if instr.funct3 = f3Sll then matchAndReturn instr .sll
    else if instr.funct3 = f3Slt then matchAndReturn instr .slt
    else if instr.funct3 = f3Sltu then matchAndReturn instr .sltu
    else if instr.funct3 = f3Xor then matchAndReturn instr .xor
    else if instr.funct3 = f3Srl then matchAndReturn instr .srl
    else if instr.funct3 = f3Or then matchAndReturn instr .or
    else if instr.funct3 = f3And then matchAndReturn instr .and
    else .undefined
  else if instr.funct7 = f7Sub then
    if instr.funct3 = f3Sub then matchAndReturn instr .sub
    else if instr.funct3 = f3Sra then matchAndReturn instr .sra
    else .undefined
  else if instr.funct7 = f7Mul then
    if instr.funct3 = f3Mul then matchAndReturn instr .mul
    else if instr.funct3 = f3Mulh then matchAndReturn instr .mulh
    else if instr.funct3 = f3Mulhsu then matchAndReturn instr .mulhsu
    else if instr.funct3 = f3Mulhu then matchAndReturn instr .mulhu
    else if instr.funct3 = f3Div then matchAndReturn instr .div
    else if instr.funct3 = f3Divu then matchAndReturn instr .divu
    else if instr.funct3 = f3Rem then matchAndReturn instr .rem
    else if instr.funct3 = f3Remu then matchAndReturn instr .remu
    else .undefined
  else .undefined

/-- The `OP_ADDW` group: the RV64 word operations. -/
def decodeOpW (instr : Instruction) : Mapping :=
  if instr.funct7 = f7Addw then
    if instr.funct3 = f3Addw then matchAndReturn instr .addw
    else if instr.funct3 = f3Sllw then matchAndReturn instr .sllw
    else if instr.funct3 = f3Srlw then matchAndReturn instr .srlw
    else .undefined
  else if instr.funct7 = f7Subw then
    if instr.funct3 = f3Subw then matchAndReturn instr .subw
    else if instr.funct3 = f3Sraw then matchAndReturn instr .sraw
    else .undefined
  else if instr.funct7 = f7Mulw then
    if instr.funct3 = f3Mulw then matchAndReturn instr .mulw
    else if instr.funct3 = f3Divw then matchAndReturn instr .divw
    else if instr.funct3 = f3Divuw then matchAndReturn instr .divuw
    else if instr.funct3 = f3Remw then matchAndReturn instr .remw
    else if instr.funct3 = f3Remuw then matchAndReturn instr .remuw
    else .undefined
  else .undefined

/-- The `OP_FENCE` group: the fences. -/
def decodeFence (instr : Instruction) : Mapping :=
  if instr.funct3 = f3Fence then matchAndReturn instr .fence
  else if instr.funct3 = f3FenceI then matchAndReturn instr .fenceI
  else .undefined

/-- The `OP_ECALL` group: the environment, trap-return and CSR instructions. -/
def decodeSystem (instr : Instruction) : Mapping :=
  if instr.funct3 = f3Sys then
    if instr.funct12 = f12Ecall then matchAndReturn instr .ecall
    else if instr.funct12 = f12Ebreak then matchAndReturn instr .ebreak
    else if instr.funct12 = f12Uret then matchAndReturn instr .uret
    else if instr.funct12 = f12Sret then matchAndReturn instr .sret
    else if instr.funct12 = f12Mret then matchAndReturn instr .mret
    else if instr.funct12 = f12Wfi then matchAndReturn instr .wfi
    else matchAndReturn instr .sfenceVma
  else if instr.funct3 = f3Csrrw then matchAndReturn instr .csrrw
  else if instr.funct3 = f3Csrrs then matchAndReturn instr .csrrs
  else if instr.funct3 = f3Csrrc then matchAndReturn instr .csrrc
  else if instr.funct3 = f3Csrrwi then matchAndReturn instr .csrrwi
  else if instr.funct3 = f3Csrrsi then matchAndReturn instr .csrrsi
  else if instr.funct3 = f3Csrrci then matchAndReturn instr .csrrci
  else .undefined

/-- The `OP_AMO` group: the atomics, told apart by `funct5` first and the width after. -/
def decodeAmo (instr : Instruction) : Mapping :=
  if instr.funct5 = f5LrW then
    if instr.funct3 = f3AmoD then matchAndReturn instr .lrD
    else matchAndReturn instr .lrW
  else if instr.funct5 = f5ScW then
    if instr.funct3 = f3AmoD then matchAndReturn instr .scD
    else matchAndReturn instr .scW
  else if instr.funct5 = f5AmoswapW then
    if instr.funct3 = f3AmoD then matchAndReturn instr .amoswapD
    else matchAndReturn instr .amoswapW
  else if instr.funct5 = f5AmoaddW then
    if instr.funct3 = f3AmoD then matchAndReturn instr .amoaddD
    else matchAndReturn instr .amoaddW
  else if instr.funct5 = f5AmoxorW then
    if instr.funct3 = f3AmoD then matchAndReturn instr .amoxorD
    else matchAndReturn instr .amoxorW
  else if instr.funct5 = f5AmoandW then
    if instr.funct3 = f3AmoD then matchAndReturn instr .amoandD
    else matchAndReturn instr .amoandW
  else if instr.funct5 = f5AmoorW then
    if instr.funct3 = f3AmoD then matchAndReturn instr .amoorD
    else matchAndReturn instr .amoorW
  else if instr.funct5 = f5AmominW then
    if instr.funct3 = f3AmoD then matchAndReturn instr .amominD
    else matchAndReturn instr .amominW
  else if instr.funct5 = f5AmomaxW then
    if instr.funct3 = f3AmoD then matchAndReturn instr .amomaxD
    else matchAndReturn instr .amomaxW
  else if instr.funct5 = f5AmominuW then
    if instr.funct3 = f3AmoD then matchAndReturn instr .amominuD
    else matchAndReturn instr .amominuW
  else if instr.funct5 = f5AmomaxuW then
    if instr.funct3 = f3AmoD then matchAndReturn instr .amomaxuD
    else matchAndReturn instr .amomaxuW
  else .undefined

/-- The `OP_FMADD_S` group: `FMADD`. -/
def decodeFmadd (instr : Instruction) : Mapping :=
  if instr.funct2 = f2FmaddS then matchAndReturn instr .fmaddS
  else if instr.funct2 = f2FmaddD then matchAndReturn instr .fmaddD
  else .undefined

/-- The `OP_FADD_S` group: the floating-point operations. -/
def decodeOpFp (instr : Instruction) : Mapping :=
  if instr.funct7 = f7FaddS then matchAndReturn instr .faddS
  else if instr.funct7 = f7FaddD then matchAndReturn instr .faddD
  else if instr.funct7 = f7FsubS then matchAndReturn instr .fsubS
  else if instr.funct7 = f7FsubD then matchAndReturn instr .fsubD
  else if instr.funct7 = f7FcvtDS then matchAndReturn instr .fcvtDS
  else if instr.funct7 = f7FmulS then matchAndReturn instr .fmulS
  else if instr.funct7 = f7FmulD then matchAndReturn instr .fmulD
  else if instr.funct7 = f7FdivS then matchAndReturn instr .fdivS
  else if instr.funct7 = f7FdivD then matchAndReturn instr .fdivD
  else if instr.funct7 = f7FleS then
    if instr.funct3 = f3FleS then matchAndReturn instr .fleS
    else if instr.funct3 = f3FltS then matchAndReturn instr .fltS
    else if instr.funct3 = f3FeqS then matchAndReturn instr .feqS
    else .undefined
  else if instr.funct7 = f7FsgnjD then
    if instr.funct3 = f3FsgnjD then matchAndReturn instr .fsgnjD
    else if instr.funct3 = f3FsgnjnD then matchAndReturn instr .fsgnjnD
    else if instr.funct3 = f3FsgnjxD then matchAndReturn instr .fsgnjxD
    else .undefined
  else if instr.funct7 = f7FminS then
    if instr.funct3 = f3FminS then matchAndReturn instr .fminS
    else if instr.funct3 = f3FmaxS then matchAndReturn instr .fmaxS
    else .undefined
  else if instr.funct7 = f7FminD then
    if instr.funct3 = f3FminD then matchAndReturn instr .fminD
    else if instr.funct3 = f3FmaxD then matchAndReturn instr .fmaxD
    else .undefined
  else if instr.funct7 = f7FcvtSD then matchAndReturn instr .fcvtSD
  else if instr.funct7 = f7FsgnjS then
    if instr.funct3 = f3FsgnjS then matchAndReturn instr .fsgnjS
    else if instr.funct3 = f3FsgnjnS then matchAndReturn instr .fsgnjnS
    else if instr.funct3 = f3FsgnjxS then matchAndReturn instr .fsgnjxS
    else .undefined
  else if instr.funct7 = f7FleD then
    if instr.funct3 = f3FleD then matchAndReturn instr .fleD
    else if instr.funct3 = f3FltD then matchAndReturn instr .fltD
    else if instr.funct3 = f3FeqD then matchAndReturn instr .feqD
    else .undefined
  else if instr.funct7 = f7FcvtSW then
    if instr.rs2 = rs2FcvtSW then matchAndReturn instr .fcvtSW
    else if instr.rs2 = rs2FcvtSWu then matchAndReturn instr .fcvtSWu
    else if instr.rs2 = rs2FcvtSL then matchAndReturn instr .fcvtSL
    else if instr.rs2 = rs2FcvtSLu then matchAndReturn instr .fcvtSLu
    else .undefined
  else if instr.funct7 = f7FcvtDW then
    if instr.rs2 = rs2FcvtDW then matchAndReturn instr .fcvtDW
    else if instr.rs2 = rs2FcvtDWu then matchAndReturn instr .fcvtDWu
    else if instr.rs2 = rs2FcvtDL then matchAndReturn instr .fcvtDL
    else if instr.rs2 = rs2FcvtDLu then matchAndReturn instr .fcvtDLu
    else .undefined
  else if instr.funct7 = f7FcvtWD then
    if instr.rs2 = rs2FcvtWD then matchAndReturn instr .fcvtWD
    else if instr.rs2 = rs2FcvtWuD then matchAndReturn instr .fcvtWuD
    else if instr.rs2 = rs2FcvtLD then matchAndReturn instr .fcvtLD
    else if instr.rs2 = rs2FcvtLuD then matchAndReturn instr .fcvtLuD
    else .undefined
  else if instr.funct7 = f7FsqrtS then matchAndReturn instr .fsqrtS
  else if instr.funct7 = f7FsqrtD then matchAndReturn instr .fsqrtD
  else if instr.funct7 = f7FcvtWS then
    if instr.rs2 = rs2FcvtWS then matchAndReturn instr .fcvtWS
    else if instr.rs2 = rs2FcvtWuS then matchAndReturn instr .fcvtWuS
    else if instr.rs2 = rs2FcvtLS then matchAndReturn instr .fcvtLS
    else if instr.rs2 = rs2FcvtLuS then matchAndReturn instr .fcvtLuS
    else .undefined
  else if instr.funct7 = f7FmvXW then
    if instr.funct3 = f3FmvXW then matchAndReturn instr .fmvXW
    else if instr.funct3 = f3FclassS then matchAndReturn instr .fclassS
    else .undefined
  else if instr.funct7 = f7FmvXD then
    if instr.funct3 = f3FmvXD then matchAndReturn instr .fmvXD
    else if instr.funct3 = f3FclassD then matchAndReturn instr .fclassD
    else .undefined
  else if instr.funct7 = f7FmvWX then matchAndReturn instr .fmvWX
  else if instr.funct7 = f7FmvDX then matchAndReturn instr .fmvDX
  else .undefined

/-- The `OP_FLW` group: the floating-point loads. -/
def decodeLoadFp (instr : Instruction) : Mapping :=
  if instr.funct3 = f3Flw then matchAndReturn instr .flw
  else if instr.funct3 = f3Fld then matchAndReturn instr .fld
  else .undefined

/-- The `OP_FSW` group: the floating-point stores. -/
def decodeStoreFp (instr : Instruction) : Mapping :=
  if instr.funct3 = f3Fsw then matchAndReturn instr .fsw
  else if instr.funct3 = f3Fsd then matchAndReturn instr .fsd
  else .undefined

/-- The `OP_FMSUB_S` group: `FMSUB`. -/
def decodeFmsub (instr : Instruction) : Mapping :=
  if instr.funct2 = f2FmsubS then matchAndReturn instr .fmsubS
  else if instr.funct2 = f2FmsubD then matchAndReturn instr .fmsubD
  else .undefined

/-- The `OP_FNMSUB_S` group: `FNMSUB`. -/
def decodeFnmsub (instr : Instruction) : Mapping :=
  if instr.funct2 = f2FnmsubS then matchAndReturn instr .fnmsubS
  else if instr.funct2 = f2FnmsubD then matchAndReturn instr .fnmsubD
  else .undefined

/-- The `OP_FNMADD_S` group: `FNMADD`. -/
def decodeFnmadd (instr : Instruction) : Mapping :=
  if instr.funct2 = f2FnmaddS then matchAndReturn instr .fnmaddS
  else if instr.funct2 = f2FnmaddD then matchAndReturn instr .fnmaddD
  else .undefined

/-- `Instruction::decode_normal`. -/
def decodeNormal (arch : Architecture) (instr : Instruction) : Mapping :=
  if instr.opcode = opLui then matchAndReturn instr .lui
  else if instr.opcode = opAuipc then matchAndReturn instr .auipc
  else if instr.opcode = opJal then matchAndReturn instr .jal
  else if instr.opcode = opJalr then matchAndReturn instr .jalr
  else if instr.opcode = opBeq then decodeBranch instr
  else if instr.opcode = opLb then decodeLoad instr
  else if instr.opcode = opSb then decodeStore instr
  else if instr.opcode = opAddi then decodeOpImm arch instr
  else if instr.opcode = opAddiw then decodeOpImmW instr
  else if instr.opcode = opAdd then decodeOp instr
  else if instr.opcode = opAddw then decodeOpW instr
  else if instr.opcode = opFence then decodeFence instr
  else if instr.opcode = opEcall then decodeSystem instr
  else if instr.opcode = opAmo then decodeAmo instr
  else if instr.opcode = opFmaddS then decodeFmadd instr
  else if instr.opcode = opFaddS then decodeOpFp instr
  else if instr.opcode = opFlw then decodeLoadFp instr
  else if instr.opcode = opFsw then decodeStoreFp instr
  else if instr.opcode = opFmsubS then decodeFmsub instr
  else if instr.opcode = opFnmsubS then decodeFnmsub instr
  else if instr.opcode = opFnmaddS then decodeFnmadd instr
  else .undefined

end Instruction

end SymexVP
