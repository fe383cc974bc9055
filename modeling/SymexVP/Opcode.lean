/-!
# The decoder's instruction names and bit patterns

`Mapping` lists the instructions the decoder can name, `Parts` the hand-written
major opcodes and function codes its switches compare, and `pattern` the mask
and encoding that every decoded word is finally checked against. The two sets
of constants are written independently in the source; this module only records
them. Whether they agree is proved about the decoder itself.
-/

namespace SymexVP

/-- The register width a decoder call is made for. The decoder only ever asks
whether it is `rv32`. -/
inductive Architecture where
  | rv32
  | rv64
  | rv128
deriving DecidableEq, Repr

namespace Opcode

/-- The instruction names of `Opcode::Mapping`, in the source order; `undefined` is the
decoder's answer for a word it does not recognise. -/
inductive Mapping where
  | undefined
  -- RV32I base instruction set
  | lui | auipc | jal | jalr | beq | bne | blt | bge | bltu | bgeu | lb | lh | lw | lbu | lhu
  | sb | sh | sw | addi | slti | sltiu | xori | ori | andi | slli | srli | srai | add | sub | sll
  | slt | sltu | xor | srl | sra | or | and | fence | ecall | ebreak
  -- Zifencei standard extension
  | fenceI
  -- Zicsr standard extension
  | csrrw | csrrs | csrrc | csrrwi | csrrsi | csrrci
  -- RV32M standard extension
  | mul | mulh | mulhsu | mulhu | div | divu | rem | remu
  -- RV32A standard extension
  | lrW | scW | amoswapW | amoaddW | amoxorW | amoandW | amoorW | amominW | amomaxW | amominuW
  | amomaxuW
  -- RV64I base integer set (addition to RV32I)
  | lwu | ld | sd | addiw | slliw | srliw | sraiw | addw | subw | sllw | srlw | sraw
  -- RV64M standard extension (addition to RV32M)
  | mulw | divw | divuw | remw | remuw
  -- RV64A standard extension (addition to RV32A)
  | lrD | scD | amoswapD | amoaddD | amoxorD | amoandD | amoorD | amominD | amomaxD | amominuD
  | amomaxuD
  -- RV32F standard extension
  | flw | fsw | fmaddS | fmsubS | fnmaddS | fnmsubS | faddS | fsubS | fmulS | fdivS | fsqrtS
  | fsgnjS | fsgnjnS | fsgnjxS | fminS | fmaxS | fcvtWS | fcvtWuS | fmvXW | feqS | fltS | fleS
  | fclassS | fcvtSW | fcvtSWu | fmvWX
  -- RV64F standard extension (addition to RV32F)
  | fcvtLS | fcvtLuS | fcvtSL | fcvtSLu
  -- RV32D standard extension
  | fld | fsd | fmaddD | fmsubD | fnmsubD | fnmaddD | faddD | fsubD | fmulD | fdivD | fsqrtD
  | fsgnjD | fsgnjnD | fsgnjxD | fminD | fmaxD | fcvtSD | fcvtDS | feqD | fltD | fleD | fclassD
  | fcvtWD | fcvtWuD | fcvtDW | fcvtDWu
  -- RV64D standard extension (addition to RV32D)
  | fcvtLD | fcvtLuD | fmvXD | fcvtDL | fcvtDLu | fmvDX
  -- privileged instructions
  | uret | sret | mret | wfi | sfenceVma
deriving DecidableEq, Repr

/-! The constants of `Opcode::Parts` that the decoder's switches compare. -/

def opLui : BitVec 32 := 0b0110111
def opAuipc : BitVec 32 := 0b0010111
def opJal : BitVec 32 := 0b1101111
def opJalr : BitVec 32 := 0b1100111
def opLb : BitVec 32 := 0b0000011
def f3Lb : BitVec 32 := 0b000
def f3Lh : BitVec 32 := 0b001
def f3Lw : BitVec 32 := 0b010
def f3Lbu : BitVec 32 := 0b100
def f3Lhu : BitVec 32 := 0b101
def f3Lwu : BitVec 32 := 0b110
def f3Ld : BitVec 32 := 0b011
def opSb : BitVec 32 := 0b0100011
def f3Sb : BitVec 32 := 0b000
def f3Sh : BitVec 32 := 0b001
def f3Sw : BitVec 32 := 0b010
def f3Sd : BitVec 32 := 0b011
def opBeq : BitVec 32 := 0b1100011
def f3Beq : BitVec 32 := 0b000
def f3Bne : BitVec 32 := 0b001
def f3Blt : BitVec 32 := 0b100
def f3Bge : BitVec 32 := 0b101
def f3Bltu : BitVec 32 := 0b110
def f3Bgeu : BitVec 32 := 0b111
def opAddi : BitVec 32 := 0b0010011
def f3Addi : BitVec 32 := 0b000
def f3Slti : BitVec 32 := 0b010
def f3Sltiu : BitVec 32 := 0b011
def f3Xori : BitVec 32 := 0b100
def f3Ori : BitVec 32 := 0b110
def f3Andi : BitVec 32 := 0b111
def f3Slli : BitVec 32 := 0b001
def f3Srli : BitVec 32 := 0b101
def f6Srli : BitVec 32 := 0b000000
def f6Srai : BitVec 32 := 0b010000
def opAdd : BitVec 32 := 0b0110011
def f3Add : BitVec 32 := 0b000
def f7Add : BitVec 32 := 0b0000000
def f3Sub : BitVec 32 := 0b000
def f7Sub : BitVec 32 := 0b0100000
def f3Sll : BitVec 32 := 0b001
def f3Slt : BitVec 32 := 0b010
def f3Sltu : BitVec 32 := 0b011
def f3Xor : BitVec 32 := 0b100
def f3Srl : BitVec 32 := 0b101
def f3Sra : BitVec 32 := 0b101
def f3Or : BitVec 32 := 0b110
def f3And : BitVec 32 := 0b111
def f3Mul : BitVec 32 := 0b000
def f7Mul : BitVec 32 := 0b0000001
def f3Mulh : BitVec 32 := 0b001
def f3Mulhsu : BitVec 32 := 0b010
def f3Mulhu : BitVec 32 := 0b011
def f3Div : BitVec 32 := 0b100
def f3Divu : BitVec 32 := 0b101
def f3Rem : BitVec 32 := 0b110
def f3Remu : BitVec 32 := 0b111
def opFence : BitVec 32 := 0b0001111
def f3Fence : BitVec 32 := 0b000
def f3FenceI : BitVec 32 := 0b001
def opEcall : BitVec 32 := 0b1110011
def f3Sys : BitVec 32 := 0b000
def f12Ecall : BitVec 32 := 0b000000000000
def f12Ebreak : BitVec 32 := 0b000000000001
def f12Uret : BitVec 32 := 0b000000000010
def f12Sret : BitVec 32 := 0b000100000010
def f12Mret : BitVec 32 := 0b001100000010
def f12Wfi : BitVec 32 := 0b000100000101
def f3Csrrw : BitVec 32 := 0b001
def f3Csrrs : BitVec 32 := 0b010
def f3Csrrc : BitVec 32 := 0b011
def f3Csrrwi : BitVec 32 := 0b101
def f3Csrrsi : BitVec 32 := 0b110
def f3Csrrci : BitVec 32 := 0b111
def opAmo : BitVec 32 := 0b0101111
def f5LrW : BitVec 32 := 0b00010
def f5ScW : BitVec 32 := 0b00011
def f5AmoswapW : BitVec 32 := 0b00001
def f5AmoaddW : BitVec 32 := 0b00000
def f5AmoxorW : BitVec 32 := 0b00100
def f5AmoandW : BitVec 32 := 0b01100
def f5AmoorW : BitVec 32 := 0b01000
def f5AmominW : BitVec 32 := 0b10000
def f5AmomaxW : BitVec 32 := 0b10100
def f5AmominuW : BitVec 32 := 0b11000
def f5AmomaxuW : BitVec 32 := 0b11100
def f3AmoD : BitVec 32 := 0b011
def opAddiw : BitVec 32 := 0b0011011
def f3Addiw : BitVec 32 := 0b000
def f3Slliw : BitVec 32 := 0b001
def f3Srliw : BitVec 32 := 0b101
def f7Srliw : BitVec 32 := 0b0000000
def f7Sraiw : BitVec 32 := 0b0100000
def opAddw : BitVec 32 := 0b0111011
def f3Addw : BitVec 32 := 0b000
def f7Addw : BitVec 32 := 0b0000000
def f3Subw : BitVec 32 := 0b000
def f7Subw : BitVec 32 := 0b0100000
def f3Sllw : BitVec 32 := 0b001
def f3Srlw : BitVec 32 := 0b101
def f3Sraw : BitVec 32 := 0b101
def f7Mulw : BitVec 32 := 0b0000001
def f3Mulw : BitVec 32 := 0b000
def f3Divw : BitVec 32 := 0b100
def f3Divuw : BitVec 32 := 0b101
def f3Remw : BitVec 32 := 0b110
def f3Remuw : BitVec 32 := 0b111
def opFmaddS : BitVec 32 := 0b1000011
def f2FmaddS : BitVec 32 := 0b00
def f2FmaddD : BitVec 32 := 0b01
def opFaddS : BitVec 32 := 0b1010011
def f7FaddS : BitVec 32 := 0b0000000
def f7FaddD : BitVec 32 := 0b0000001
def f7FsubS : BitVec 32 := 0b0000100
def f7FsubD : BitVec 32 := 0b0000101
def f7FcvtDS : BitVec 32 := 0b0100001
def f7FmulS : BitVec 32 := 0b0001000
def f7FmulD : BitVec 32 := 0b0001001
def f7FdivS : BitVec 32 := 0b0001100
def f7FdivD : BitVec 32 := 0b0001101
def f7FleS : BitVec 32 := 0b1010000
def f3FleS : BitVec 32 := 0b000
def f3FltS : BitVec 32 := 0b001
def f3FeqS : BitVec 32 := 0b010
def f7FsgnjD : BitVec 32 := 0b0010001
def f3FsgnjD : BitVec 32 := 0b000
def f3FsgnjnD : BitVec 32 := 0b001
def f3FsgnjxD : BitVec 32 := 0b010
def f7FminS : BitVec 32 := 0b0010100
def f3FminS : BitVec 32 := 0b000
def f3FmaxS : BitVec 32 := 0b001
def f7FminD : BitVec 32 := 0b0010101
def f3FminD : BitVec 32 := 0b000
def f3FmaxD : BitVec 32 := 0b001
def f7FcvtSD : BitVec 32 := 0b0100000
def f7FsgnjS : BitVec 32 := 0b0010000
def f3FsgnjS : BitVec 32 := 0b000
def f3FsgnjnS : BitVec 32 := 0b001
def f3FsgnjxS : BitVec 32 := 0b010
def f7FleD : BitVec 32 := 0b1010001
def f3FleD : BitVec 32 := 0b000
def f3FltD : BitVec 32 := 0b001
def f3FeqD : BitVec 32 := 0b010
def f7FcvtSW : BitVec 32 := 0b1101000
def rs2FcvtSW : BitVec 32 := 0b00000
def rs2FcvtSWu : BitVec 32 := 0b00001
def rs2FcvtSL : BitVec 32 := 0b00010
def rs2FcvtSLu : BitVec 32 := 0b00011
def f7FcvtDW : BitVec 32 := 0b1101001
def rs2FcvtDW : BitVec 32 := 0b00000
def rs2FcvtDWu : BitVec 32 := 0b00001
def rs2FcvtDL : BitVec 32 := 0b00010
def rs2FcvtDLu : BitVec 32 := 0b00011
def f7FcvtWD : BitVec 32 := 0b1100001
def rs2FcvtWD : BitVec 32 := 0b00000
def rs2FcvtWuD : BitVec 32 := 0b00001
def rs2FcvtLD : BitVec 32 := 0b00010
def rs2FcvtLuD : BitVec 32 := 0b00011
def f7FsqrtS : BitVec 32 := 0b0101100
def f7FsqrtD : BitVec 32 := 0b0101101
def f7FcvtWS : BitVec 32 := 0b1100000
def rs2FcvtWS : BitVec 32 := 0b00000
def rs2FcvtWuS : BitVec 32 := 0b00001
def rs2FcvtLS : BitVec 32 := 0b00010
def rs2FcvtLuS : BitVec 32 := 0b00011
def f7FmvXW : BitVec 32 := 0b1110000
def f3FmvXW : BitVec 32 := 0b000
def f3FclassS : BitVec 32 := 0b001
def f7FmvXD : BitVec 32 := 0b1110001
def f3FmvXD : BitVec 32 := 0b000
def f3FclassD : BitVec 32 := 0b001
def f7FmvWX : BitVec 32 := 0b1111000
def f7FmvDX : BitVec 32 := 0b1111001
def opFlw : BitVec 32 := 0b0000111
def f3Flw : BitVec 32 := 0b010
def f3Fld : BitVec 32 := 0b011
def opFsw : BitVec 32 := 0b0100111
def f3Fsw : BitVec 32 := 0b010
def f3Fsd : BitVec 32 := 0b011
def opFmsubS : BitVec 32 := 0b1000111
def f2FmsubS : BitVec 32 := 0b00
def f2FmsubD : BitVec 32 := 0b01
def opFnmsubS : BitVec 32 := 0b1001011
def f2FnmsubS : BitVec 32 := 0b00
def f2FnmsubD : BitVec 32 := 0b01
def opFnmaddS : BitVec 32 := 0b1001111
def f2FnmaddS : BitVec 32 := 0b00
def f2FnmaddD : BitVec 32 := 0b01

/-- A mask selects the bits an instruction fixes; the encoding gives their values. -/
structure Pattern where
  mask : BitVec 32
  encoding : BitVec 32

/-- The `*_MASK` and `*_ENCODING` pair of each instruction. `undefined` has none in the
source and is never looked up; its entry is a placeholder. -/
def pattern : Mapping → Pattern
  | .undefined => ⟨0, 0⟩
  | .lui => ⟨0b00000000000000000000000001111111, 0b00000000000000000000000000110111⟩
  | .auipc => ⟨0b00000000000000000000000001111111, 0b00000000000000000000000000010111⟩
  | .jal => ⟨0b00000000000000000000000001111111, 0b00000000000000000000000001101111⟩
  | .jalr => ⟨0b00000000000000000111000001111111, 0b00000000000000000000000001100111⟩
  | .beq => ⟨0b00000000000000000111000001111111, 0b00000000000000000000000001100011⟩
  | .bne => ⟨0b00000000000000000111000001111111, 0b00000000000000000001000001100011⟩
  | .blt => ⟨0b00000000000000000111000001111111, 0b00000000000000000100000001100011⟩
  | .bge => ⟨0b00000000000000000111000001111111, 0b00000000000000000101000001100011⟩
  | .bltu => ⟨0b00000000000000000111000001111111, 0b00000000000000000110000001100011⟩
  | .bgeu => ⟨0b00000000000000000111000001111111, 0b00000000000000000111000001100011⟩
  | .lb => ⟨0b00000000000000000111000001111111, 0b00000000000000000000000000000011⟩
  | .lh => ⟨0b00000000000000000111000001111111, 0b00000000000000000001000000000011⟩
  | .lw => ⟨0b00000000000000000111000001111111, 0b00000000000000000010000000000011⟩
  | .lbu => ⟨0b00000000000000000111000001111111, 0b00000000000000000100000000000011⟩
  | .lhu => ⟨0b00000000000000000111000001111111, 0b00000000000000000101000000000011⟩
  | .sb => ⟨0b00000000000000000111000001111111, 0b00000000000000000000000000100011⟩
  | .sh => ⟨0b00000000000000000111000001111111, 0b00000000000000000001000000100011⟩
  | .sw => ⟨0b00000000000000000111000001111111, 0b00000000000000000010000000100011⟩
  | .addi => ⟨0b00000000000000000111000001111111, 0b00000000000000000000000000010011⟩
  | .slti => ⟨0b00000000000000000111000001111111, 0b00000000000000000010000000010011⟩
  | .sltiu => ⟨0b00000000000000000111000001111111, 0b00000000000000000011000000010011⟩
  | .xori => ⟨0b00000000000000000111000001111111, 0b00000000000000000100000000010011⟩
  | .ori => ⟨0b00000000000000000111000001111111, 0b00000000000000000110000000010011⟩
  | .andi => ⟨0b00000000000000000111000001111111, 0b00000000000000000111000000010011⟩
  | .slli => ⟨0b11111100000000000111000001111111, 0b00000000000000000001000000010011⟩
  | .srli => ⟨0b11111100000000000111000001111111, 0b00000000000000000101000000010011⟩
  | .srai => ⟨0b11111100000000000111000001111111, 0b01000000000000000101000000010011⟩
  | .add => ⟨0b11111110000000000111000001111111, 0b00000000000000000000000000110011⟩
  | .sub => ⟨0b11111110000000000111000001111111, 0b01000000000000000000000000110011⟩
  | .sll => ⟨0b11111110000000000111000001111111, 0b00000000000000000001000000110011⟩
  | .slt => ⟨0b11111110000000000111000001111111, 0b00000000000000000010000000110011⟩
  | .sltu => ⟨0b11111110000000000111000001111111, 0b00000000000000000011000000110011⟩
  | .xor => ⟨0b11111110000000000111000001111111, 0b00000000000000000100000000110011⟩
  | .srl => ⟨0b11111110000000000111000001111111, 0b00000000000000000101000000110011⟩
  | .sra => ⟨0b11111110000000000111000001111111, 0b01000000000000000101000000110011⟩
  | .or => ⟨0b11111110000000000111000001111111, 0b00000000000000000110000000110011⟩
  | .and => ⟨0b11111110000000000111000001111111, 0b00000000000000000111000000110011⟩
  | .fence => ⟨0b00000000000000000111000001111111, 0b00000000000000000000000000001111⟩
  | .ecall => ⟨0b11111111111111111111111111111111, 0b00000000000000000000000001110011⟩
  | .ebreak => ⟨0b11111111111111111111111111111111, 0b00000000000100000000000001110011⟩
  | .fenceI => ⟨0b00000000000000000111000001111111, 0b00000000000000000001000000001111⟩
  | .csrrw => ⟨0b00000000000000000111000001111111, 0b00000000000000000001000001110011⟩
  | .csrrs => ⟨0b00000000000000000111000001111111, 0b00000000000000000010000001110011⟩
  | .csrrc => ⟨0b00000000000000000111000001111111, 0b00000000000000000011000001110011⟩
  | .csrrwi => ⟨0b00000000000000000111000001111111, 0b00000000000000000101000001110011⟩
  | .csrrsi => ⟨0b00000000000000000111000001111111, 0b00000000000000000110000001110011⟩
  | .csrrci => ⟨0b00000000000000000111000001111111, 0b00000000000000000111000001110011⟩
  | .mul => ⟨0b11111110000000000111000001111111, 0b00000010000000000000000000110011⟩
  | .mulh => ⟨0b11111110000000000111000001111111, 0b00000010000000000001000000110011⟩
  | .mulhsu => ⟨0b11111110000000000111000001111111, 0b00000010000000000010000000110011⟩
  | .mulhu => ⟨0b11111110000000000111000001111111, 0b00000010000000000011000000110011⟩
  | .div => ⟨0b11111110000000000111000001111111, 0b00000010000000000100000000110011⟩
  | .divu => ⟨0b11111110000000000111000001111111, 0b00000010000000000101000000110011⟩
  | .rem => ⟨0b11111110000000000111000001111111, 0b00000010000000000110000000110011⟩
  | .remu => ⟨0b11111110000000000111000001111111, 0b00000010000000000111000000110011⟩
  | .lrW => ⟨0b11111001111100000111000001111111, 0b00010000000000000010000000101111⟩
  | .scW => ⟨0b11111000000000000111000001111111, 0b00011000000000000010000000101111⟩
  | .amoswapW => ⟨0b11111000000000000111000001111111, 0b00001000000000000010000000101111⟩
  | .amoaddW => ⟨0b11111000000000000111000001111111, 0b00000000000000000010000000101111⟩
  | .amoxorW => ⟨0b11111000000000000111000001111111, 0b00100000000000000010000000101111⟩
  | .amoandW => ⟨0b11111000000000000111000001111111, 0b01100000000000000010000000101111⟩
  | .amoorW => ⟨0b11111000000000000111000001111111, 0b01000000000000000010000000101111⟩
  | .amominW => ⟨0b11111000000000000111000001111111, 0b10000000000000000010000000101111⟩
  | .amomaxW => ⟨0b11111000000000000111000001111111, 0b10100000000000000010000000101111⟩
  | .amominuW => ⟨0b11111000000000000111000001111111, 0b11000000000000000010000000101111⟩
  | .amomaxuW => ⟨0b11111000000000000111000001111111, 0b11100000000000000010000000101111⟩
  | .lwu => ⟨0b00000000000000000111000001111111, 0b00000000000000000110000000000011⟩
  | .ld => ⟨0b00000000000000000111000001111111, 0b00000000000000000011000000000011⟩
  | .sd => ⟨0b00000000000000000111000001111111, 0b00000000000000000011000000100011⟩
  | .addiw => ⟨0b00000000000000000111000001111111, 0b00000000000000000000000000011011⟩
  | .slliw => ⟨0b11111110000000000111000001111111, 0b00000000000000000001000000011011⟩
  | .srliw => ⟨0b11111110000000000111000001111111, 0b00000000000000000101000000011011⟩
  | .sraiw => ⟨0b11111110000000000111000001111111, 0b01000000000000000101000000011011⟩
  | .addw => ⟨0b11111110000000000111000001111111, 0b00000000000000000000000000111011⟩
  | .subw => ⟨0b11111110000000000111000001111111, 0b01000000000000000000000000111011⟩
  | .sllw => ⟨0b11111110000000000111000001111111, 0b00000000000000000001000000111011⟩
  | .srlw => ⟨0b11111110000000000111000001111111, 0b00000000000000000101000000111011⟩
  | .sraw => ⟨0b11111110000000000111000001111111, 0b01000000000000000101000000111011⟩
  | .mulw => ⟨0b11111110000000000111000001111111, 0b00000010000000000000000000111011⟩
  | .divw => ⟨0b11111110000000000111000001111111, 0b00000010000000000100000000111011⟩
  | .divuw => ⟨0b11111110000000000111000001111111, 0b00000010000000000101000000111011⟩
  | .remw => ⟨0b11111110000000000111000001111111, 0b00000010000000000110000000111011⟩
  | .remuw => ⟨0b11111110000000000111000001111111, 0b00000010000000000111000000111011⟩
  | .lrD => ⟨0b11111001111100000111000001111111, 0b00010000000000000011000000101111⟩
  | .scD => ⟨0b11111000000000000111000001111111, 0b00011000000000000011000000101111⟩
  | .amoswapD => ⟨0b11111000000000000111000001111111, 0b00001000000000000011000000101111⟩
  | .amoaddD => ⟨0b11111000000000000111000001111111, 0b00000000000000000011000000101111⟩
  | .amoxorD => ⟨0b11111000000000000111000001111111, 0b00100000000000000011000000101111⟩
  | .amoandD => ⟨0b11111000000000000111000001111111, 0b01100000000000000011000000101111⟩
  | .amoorD => ⟨0b11111000000000000111000001111111, 0b01000000000000000011000000101111⟩
  | .amominD => ⟨0b11111000000000000111000001111111, 0b10000000000000000011000000101111⟩
  | .amomaxD => ⟨0b11111000000000000111000001111111, 0b10100000000000000011000000101111⟩
  | .amominuD => ⟨0b11111000000000000111000001111111, 0b11000000000000000011000000101111⟩
  | .amomaxuD => ⟨0b11111000000000000111000001111111, 0b11100000000000000011000000101111⟩
  | .flw => ⟨0b00000000000000000111000001111111, 0b00000000000000000010000000000111⟩
  | .fsw => ⟨0b00000000000000000111000001111111, 0b00000000000000000010000000100111⟩
  | .fmaddS => ⟨0b00000110000000000000000001111111, 0b00000000000000000000000001000011⟩
  | .fmsubS => ⟨0b00000110000000000000000001111111, 0b00000000000000000000000001000111⟩
  | .fnmaddS => ⟨0b00000110000000000000000001111111, 0b00000000000000000000000001001111⟩
  | .fnmsubS => ⟨0b00000110000000000000000001111111, 0b00000000000000000000000001001011⟩
  | .faddS => ⟨0b11111110000000000000000001111111, 0b00000000000000000000000001010011⟩
  | .fsubS => ⟨0b11111110000000000000000001111111, 0b00001000000000000000000001010011⟩
  | .fmulS => ⟨0b11111110000000000000000001111111, 0b00010000000000000000000001010011⟩
  | .fdivS => ⟨0b11111110000000000000000001111111, 0b00011000000000000000000001010011⟩
  | .fsqrtS => ⟨0b11111111111100000000000001111111, 0b01011000000000000000000001010011⟩
  | .fsgnjS => ⟨0b11111110000000000111000001111111, 0b00100000000000000000000001010011⟩
  | .fsgnjnS => ⟨0b11111110000000000111000001111111, 0b00100000000000000001000001010011⟩
  | .fsgnjxS => ⟨0b11111110000000000111000001111111, 0b00100000000000000010000001010011⟩
  | .fminS => ⟨0b11111110000000000111000001111111, 0b00101000000000000000000001010011⟩
  | .fmaxS => ⟨0b11111110000000000111000001111111, 0b00101000000000000001000001010011⟩
  | .fcvtWS => ⟨0b11111111111100000000000001111111, 0b11000000000000000000000001010011⟩
  | .fcvtWuS => ⟨0b11111111111100000000000001111111, 0b11000000000100000000000001010011⟩
  | .fmvXW => ⟨0b11111111111100000111000001111111, 0b11100000000000000000000001010011⟩
  | .feqS => ⟨0b11111110000000000111000001111111, 0b10100000000000000010000001010011⟩
  | .fltS => ⟨0b11111110000000000111000001111111, 0b10100000000000000001000001010011⟩
  | .fleS => ⟨0b11111110000000000111000001111111, 0b10100000000000000000000001010011⟩
  | .fclassS => ⟨0b11111111111100000111000001111111, 0b11100000000000000001000001010011⟩
  | .fcvtSW => ⟨0b11111111111100000000000001111111, 0b11010000000000000000000001010011⟩
  | .fcvtSWu => ⟨0b11111111111100000000000001111111, 0b11010000000100000000000001010011⟩
  | .fmvWX => ⟨0b11111111111100000111000001111111, 0b11110000000000000000000001010011⟩
  | .fcvtLS => ⟨0b11111111111100000000000001111111, 0b11000000001000000000000001010011⟩
  | .fcvtLuS => ⟨0b11111111111100000000000001111111, 0b11000000001100000000000001010011⟩
  | .fcvtSL => ⟨0b11111111111100000000000001111111, 0b11010000001000000000000001010011⟩
  | .fcvtSLu => ⟨0b11111111111100000000000001111111, 0b11010000001100000000000001010011⟩
  | .fld => ⟨0b00000000000000000111000001111111, 0b00000000000000000011000000000111⟩
  | .fsd => ⟨0b00000000000000000111000001111111, 0b00000000000000000011000000100111⟩
  | .fmaddD => ⟨0b00000110000000000000000001111111, 0b00000010000000000000000001000011⟩
  | .fmsubD => ⟨0b00000110000000000000000001111111, 0b00000010000000000000000001000111⟩
  | .fnmsubD => ⟨0b00000110000000000000000001111111, 0b00000010000000000000000001001011⟩
  | .fnmaddD => ⟨0b00000110000000000000000001111111, 0b00000010000000000000000001001111⟩
  | .faddD => ⟨0b11111110000000000000000001111111, 0b00000010000000000000000001010011⟩
  | .fsubD => ⟨0b11111110000000000000000001111111, 0b00001010000000000000000001010011⟩
  | .fmulD => ⟨0b11111110000000000000000001111111, 0b00010010000000000000000001010011⟩
  | .fdivD => ⟨0b11111110000000000000000001111111, 0b00011010000000000000000001010011⟩
  | .fsqrtD => ⟨0b11111111111100000000000001111111, 0b01011010000000000000000001010011⟩
  | .fsgnjD => ⟨0b11111110000000000111000001111111, 0b00100010000000000000000001010011⟩
  | .fsgnjnD => ⟨0b11111110000000000111000001111111, 0b00100010000000000001000001010011⟩
  | .fsgnjxD => ⟨0b11111110000000000111000001111111, 0b00100010000000000010000001010011⟩
  | .fminD => ⟨0b11111110000000000111000001111111, 0b00101010000000000000000001010011⟩
  | .fmaxD => ⟨0b11111110000000000111000001111111, 0b00101010000000000001000001010011⟩
  | .fcvtSD => ⟨0b11111111111100000000000001111111, 0b01000000000100000000000001010011⟩
  | .fcvtDS => ⟨0b11111111111100000000000001111111, 0b01000010000000000000000001010011⟩
  | .feqD => ⟨0b11111110000000000111000001111111, 0b10100010000000000010000001010011⟩
  | .fltD => ⟨0b11111110000000000111000001111111, 0b10100010000000000001000001010011⟩
  | .fleD => ⟨0b11111110000000000111000001111111, 0b10100010000000000000000001010011⟩
  | .fclassD => ⟨0b11111111111100000111000001111111, 0b11100010000000000001000001010011⟩
  | .fcvtWD => ⟨0b11111111111100000000000001111111, 0b11000010000000000000000001010011⟩
  | .fcvtWuD => ⟨0b11111111111100000000000001111111, 0b11000010000100000000000001010011⟩
  | .fcvtDW => ⟨0b11111111111100000000000001111111, 0b11010010000000000000000001010011⟩
  | .fcvtDWu => ⟨0b11111111111100000000000001111111, 0b11010010000100000000000001010011⟩
  | .fcvtLD => ⟨0b11111111111100000000000001111111, 0b11000010001000000000000001010011⟩
  | .fcvtLuD => ⟨0b11111111111100000000000001111111, 0b11000010001100000000000001010011⟩
  | .fmvXD => ⟨0b11111111111100000111000001111111, 0b11100010000000000000000001010011⟩
  | .fcvtDL => ⟨0b11111111111100000000000001111111, 0b11010010001000000000000001010011⟩
  | .fcvtDLu => ⟨0b11111111111100000000000001111111, 0b11010010001100000000000001010011⟩
  | .fmvDX => ⟨0b11111111111100000111000001111111, 0b11110010000000000000000001010011⟩
  | .uret => ⟨0b11111111111111111111111111111111, 0b00000000001000000000000001110011⟩
  | .sret => ⟨0b11111111111111111111111111111111, 0b00010000001000000000000001110011⟩
  | .mret => ⟨0b11111111111111111111111111111111, 0b00110000001000000000000001110011⟩
  | .wfi => ⟨0b11111111111111111111111111111111, 0b00010000010100000000000001110011⟩
  | .sfenceVma => ⟨0b11111110000000000111111111111111, 0b00010010000000000000000001110011⟩

/-- The `*_32` patterns: on RV32 the shift amount has five bits, so the immediate
shifts fix one bit more than their RV64 patterns. -/
def pattern32 : Mapping → Pattern
  | .slli => ⟨0b11111110000000000111000001111111, 0b00000000000000000001000000010011⟩
  | .srli => ⟨0b11111110000000000111000001111111, 0b00000000000000000101000000010011⟩
  | .srai => ⟨0b11111110000000000111000001111111, 0b01000000000000000101000000010011⟩
  | op => pattern op

/-- The pattern the decoder checks for an architecture. -/
def patternFor (arch : Architecture) (op : Mapping) : Pattern :=
  if arch = .rv32 then pattern32 op else pattern op

end Opcode

end SymexVP
