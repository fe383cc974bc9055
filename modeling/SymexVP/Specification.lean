import Mathlib.Tactic

/-!
# The RISC-V unprivileged specification

The abstract machine the core is compared with: the RV32I and RV32M instructions,
the word-sized atomic memory operations, and the sixteen-bit encodings of RV32C.
Everything here is written after the manual's tables, in its own terms: fields are
slices of the word, immediates are concatenations of slices, multiplication and
division are stated over the integers, and memory is a byte map. Nothing is taken
from the decoder or the core.
-/

namespace SymexVP.Spec

/-- A register number. -/
abbrev Register := BitVec 5

inductive BranchKind where
  | beq | bne | blt | bge | bltu | bgeu
deriving DecidableEq, Repr

inductive LoadKind where
  | lb | lh | lw | lbu | lhu
deriving DecidableEq, Repr

inductive StoreKind where
  | sb | sh | sw
deriving DecidableEq, Repr

inductive ImmediateKind where
  | addi | slti | sltiu | xori | ori | andi
deriving DecidableEq, Repr

inductive ShiftKind where
  | slli | srli | srai
deriving DecidableEq, Repr

inductive OpKind where
  | add | sub | sll | slt | sltu | xor | srl | sra | or | and
  | mul | mulh | mulhsu | mulhu | div | divu | rem | remu
deriving DecidableEq, Repr

inductive AmoKind where
  | swap | add | xor | and | or | min | max | minu | maxu
deriving DecidableEq, Repr

/-- An instruction with its operands. Immediates are the 32-bit values the manual
defines, after sign extension and scaling. -/
inductive Instr where
  | lui (rd : Register) (imm : BitVec 32)
  | auipc (rd : Register) (imm : BitVec 32)
  | jal (rd : Register) (imm : BitVec 32)
  | jalr (rd rs1 : Register) (imm : BitVec 32)
  | branch (kind : BranchKind) (rs1 rs2 : Register) (imm : BitVec 32)
  | load (kind : LoadKind) (rd rs1 : Register) (imm : BitVec 32)
  | store (kind : StoreKind) (rs1 rs2 : Register) (imm : BitVec 32)
  | opImm (kind : ImmediateKind) (rd rs1 : Register) (imm : BitVec 32)
  | shift (kind : ShiftKind) (rd rs1 : Register) (shamt : BitVec 5)
  | op (kind : OpKind) (rd rs1 rs2 : Register)
  | amo (kind : AmoKind) (rd rs1 rs2 : Register)
  | ebreak
deriving DecidableEq, Repr

/-! ## Encodings -/

section Fields

def opcode (w : BitVec 32) : BitVec 7 := w.extractLsb' 0 7

def funct3 (w : BitVec 32) : BitVec 3 := w.extractLsb' 12 3

def funct5 (w : BitVec 32) : BitVec 5 := w.extractLsb' 27 5

def funct7 (w : BitVec 32) : BitVec 7 := w.extractLsb' 25 7

def rd (w : BitVec 32) : Register := w.extractLsb' 7 5

def rs1 (w : BitVec 32) : Register := w.extractLsb' 15 5

def rs2 (w : BitVec 32) : Register := w.extractLsb' 20 5

def immI (w : BitVec 32) : BitVec 32 := (w.extractLsb' 20 12).signExtend 32

def immS (w : BitVec 32) : BitVec 32 :=
  (w.extractLsb' 25 7 ++ w.extractLsb' 7 5).signExtend 32

def immB (w : BitVec 32) : BitVec 32 :=
  (w.extractLsb' 31 1 ++ w.extractLsb' 7 1 ++ w.extractLsb' 25 6 ++ w.extractLsb' 8 4 ++
    0#1).signExtend 32

def immU (w : BitVec 32) : BitVec 32 := w.extractLsb' 12 20 ++ 0#12

def immJ (w : BitVec 32) : BitVec 32 :=
  (w.extractLsb' 31 1 ++ w.extractLsb' 12 8 ++ w.extractLsb' 20 1 ++ w.extractLsb' 21 10 ++
    0#1).signExtend 32

end Fields

def branchKind (funct3 : BitVec 3) : Option BranchKind :=
  if funct3 = 0b000 then some .beq
  else if funct3 = 0b001 then some .bne
  else if funct3 = 0b100 then some .blt
  else if funct3 = 0b101 then some .bge
  else if funct3 = 0b110 then some .bltu
  else if funct3 = 0b111 then some .bgeu
  else none

def loadKind (funct3 : BitVec 3) : Option LoadKind :=
  if funct3 = 0b000 then some .lb
  else if funct3 = 0b001 then some .lh
  else if funct3 = 0b010 then some .lw
  else if funct3 = 0b100 then some .lbu
  else if funct3 = 0b101 then some .lhu
  else none

def storeKind (funct3 : BitVec 3) : Option StoreKind :=
  if funct3 = 0b000 then some .sb
  else if funct3 = 0b001 then some .sh
  else if funct3 = 0b010 then some .sw
  else none

def immediateKind (funct3 : BitVec 3) : Option ImmediateKind :=
  if funct3 = 0b000 then some .addi
  else if funct3 = 0b010 then some .slti
  else if funct3 = 0b011 then some .sltiu
  else if funct3 = 0b100 then some .xori
  else if funct3 = 0b110 then some .ori
  else if funct3 = 0b111 then some .andi
  else none

def shiftKind (funct7 : BitVec 7) (funct3 : BitVec 3) : Option ShiftKind :=
  if funct3 = 0b001 ∧ funct7 = 0b0000000 then some .slli
  else if funct3 = 0b101 ∧ funct7 = 0b0000000 then some .srli
  else if funct3 = 0b101 ∧ funct7 = 0b0100000 then some .srai
  else none

def opKind (funct7 : BitVec 7) (funct3 : BitVec 3) : Option OpKind :=
  if funct7 = 0b0000000 then
    if funct3 = 0b000 then some .add
    else if funct3 = 0b001 then some .sll
    else if funct3 = 0b010 then some .slt
    else if funct3 = 0b011 then some .sltu
    else if funct3 = 0b100 then some .xor
    else if funct3 = 0b101 then some .srl
    else if funct3 = 0b110 then some .or
    else some .and
  else if funct7 = 0b0100000 then
    if funct3 = 0b000 then some .sub
    else if funct3 = 0b101 then some .sra
    else none
  else if funct7 = 0b0000001 then
    if funct3 = 0b000 then some .mul
    else if funct3 = 0b001 then some .mulh
    else if funct3 = 0b010 then some .mulhsu
    else if funct3 = 0b011 then some .mulhu
    else if funct3 = 0b100 then some .div
    else if funct3 = 0b101 then some .divu
    else if funct3 = 0b110 then some .rem
    else some .remu
  else none

def amoKind (funct5 : BitVec 5) : Option AmoKind :=
  if funct5 = 0b00001 then some .swap
  else if funct5 = 0b00000 then some .add
  else if funct5 = 0b00100 then some .xor
  else if funct5 = 0b01100 then some .and
  else if funct5 = 0b01000 then some .or
  else if funct5 = 0b10000 then some .min
  else if funct5 = 0b10100 then some .max
  else if funct5 = 0b11000 then some .minu
  else if funct5 = 0b11100 then some .maxu
  else none

/-- The instruction a 32-bit word encodes, if it is one of those described here. -/
def decode (w : BitVec 32) : Option Instr :=
  if opcode w = 0b0110111 then some (.lui (rd w) (immU w))
  else if opcode w = 0b0010111 then some (.auipc (rd w) (immU w))
  else if opcode w = 0b1101111 then some (.jal (rd w) (immJ w))
  else if opcode w = 0b1100111 then
    if funct3 w = 0b000 then some (.jalr (rd w) (rs1 w) (immI w)) else none
  else if opcode w = 0b1100011 then
    (branchKind (funct3 w)).map fun kind => .branch kind (rs1 w) (rs2 w) (immB w)
  else if opcode w = 0b0000011 then
    (loadKind (funct3 w)).map fun kind => .load kind (rd w) (rs1 w) (immI w)
  else if opcode w = 0b0100011 then
    (storeKind (funct3 w)).map fun kind => .store kind (rs1 w) (rs2 w) (immS w)
  else if opcode w = 0b0010011 then
    if funct3 w = 0b001 ∨ funct3 w = 0b101 then
      (shiftKind (funct7 w) (funct3 w)).map fun kind => .shift kind (rd w) (rs1 w) (rs2 w)
    else (immediateKind (funct3 w)).map fun kind => .opImm kind (rd w) (rs1 w) (immI w)
  else if opcode w = 0b0110011 then
    (opKind (funct7 w) (funct3 w)).map fun kind => .op kind (rd w) (rs1 w) (rs2 w)
  else if opcode w = 0b0101111 then
    if funct3 w = 0b010 then
      (amoKind (funct5 w)).map fun kind => .amo kind (rd w) (rs1 w) (rs2 w)
    else none
  else if w = 0x00100073 then some .ebreak
  else none

/-! ## Execution -/

/-- Architectural state: the registers, the program counter and byte memory. -/
structure State where
  regs : Register → BitVec 32
  pc : BitVec 32
  mem : BitVec 32 → BitVec 8

namespace State

/-- `x0` reads as zero. -/
def read (s : State) (r : Register) : BitVec 32 := if r = 0 then 0 else s.regs r

/-- A write to `x0` is discarded. -/
def write (s : State) (r : Register) (value : BitVec 32) : State :=
  if r = 0 then s else { s with regs := Function.update s.regs r value }

/-- Little-endian loads. -/
def loadHalf (s : State) (address : BitVec 32) : BitVec 16 :=
  s.mem (address + 1) ++ s.mem address

def loadWord (s : State) (address : BitVec 32) : BitVec 32 :=
  s.mem (address + 3) ++ s.mem (address + 2) ++ s.mem (address + 1) ++ s.mem address

def storeByte (s : State) (address : BitVec 32) (value : BitVec 8) : State :=
  { s with mem := Function.update s.mem address value }

/-- Little-endian stores. -/
def storeHalf (s : State) (address : BitVec 32) (value : BitVec 16) : State :=
  (s.storeByte address (value.extractLsb' 0 8)).storeByte (address + 1) (value.extractLsb' 8 8)

def storeWord (s : State) (address value : BitVec 32) : State :=
  (((s.storeByte address (value.extractLsb' 0 8)).storeByte (address + 1)
    (value.extractLsb' 8 8)).storeByte (address + 2)
    (value.extractLsb' 16 8)).storeByte (address + 3) (value.extractLsb' 24 8)

end State

/-- A comparison result in a register. -/
def ofBool (b : Bool) : BitVec 32 := if b then 1 else 0

def taken (kind : BranchKind) (a b : BitVec 32) : Bool :=
  match kind with
  | .beq => a == b
  | .bne => a != b
  | .blt => decide (a.toInt < b.toInt)
  | .bge => decide (b.toInt ≤ a.toInt)
  | .bltu => decide (a.toNat < b.toNat)
  | .bgeu => decide (b.toNat ≤ a.toNat)

def loaded (kind : LoadKind) (s : State) (address : BitVec 32) : BitVec 32 :=
  match kind with
  | .lb => (s.mem address).signExtend 32
  | .lh => (s.loadHalf address).signExtend 32
  | .lw => s.loadWord address
  | .lbu => (s.mem address).zeroExtend 32
  | .lhu => (s.loadHalf address).zeroExtend 32

def stored (kind : StoreKind) (s : State) (address value : BitVec 32) : State :=
  match kind with
  | .sb => s.storeByte address (value.extractLsb' 0 8)
  | .sh => s.storeHalf address (value.extractLsb' 0 16)
  | .sw => s.storeWord address value

def immediateResult (kind : ImmediateKind) (a imm : BitVec 32) : BitVec 32 :=
  match kind with
  | .addi => a + imm
  | .slti => ofBool (decide (a.toInt < imm.toInt))
  | .sltiu => ofBool (decide (a.toNat < imm.toNat))
  | .xori => a ^^^ imm
  | .ori => a ||| imm
  | .andi => a &&& imm

def shiftResult (kind : ShiftKind) (a : BitVec 32) (shamt : Nat) : BitVec 32 :=
  match kind with
  | .slli => a <<< shamt
  | .srli => a >>> shamt
  | .srai => a.sshiftRight shamt

/-- The quotient rounds towards zero. Dividing by zero gives all ones, and the one signed
overflow gives the dividend. -/
def signedQuotient (a b : BitVec 32) : BitVec 32 :=
  if b = 0 then BitVec.allOnes 32
  else if a = BitVec.intMin 32 ∧ b = BitVec.allOnes 32 then a
  else BitVec.ofInt 32 (a.toInt.tdiv b.toInt)

def unsignedQuotient (a b : BitVec 32) : BitVec 32 :=
  if b = 0 then BitVec.allOnes 32 else BitVec.ofNat 32 (a.toNat / b.toNat)

/-- The remainder has the sign of the dividend. The remainder by zero is the dividend, and
the signed overflow leaves no remainder. -/
def signedRemainder (a b : BitVec 32) : BitVec 32 :=
  if b = 0 then a
  else if a = BitVec.intMin 32 ∧ b = BitVec.allOnes 32 then 0
  else BitVec.ofInt 32 (a.toInt.tmod b.toInt)

def unsignedRemainder (a b : BitVec 32) : BitVec 32 :=
  if b = 0 then a else BitVec.ofNat 32 (a.toNat % b.toNat)

/-- The upper half of a 64-bit product, as a floor division. -/
def upperHalf (product : Int) : BitVec 32 := BitVec.ofInt 32 (product / 2 ^ 32)

def opResult (kind : OpKind) (a b : BitVec 32) : BitVec 32 :=
  match kind with
  | .add => a + b
  | .sub => a - b
  | .sll => a <<< (b.toNat % 32)
  | .slt => ofBool (decide (a.toInt < b.toInt))
  | .sltu => ofBool (decide (a.toNat < b.toNat))
  | .xor => a ^^^ b
  | .srl => a >>> (b.toNat % 32)
  | .sra => a.sshiftRight (b.toNat % 32)
  | .or => a ||| b
  | .and => a &&& b
  | .mul => BitVec.ofInt 32 (a.toInt * b.toInt)
  | .mulh => upperHalf (a.toInt * b.toInt)
  | .mulhsu => upperHalf (a.toInt * b.toNat)
  | .mulhu => upperHalf (a.toNat * b.toNat)
  | .div => signedQuotient a b
  | .divu => unsignedQuotient a b
  | .rem => signedRemainder a b
  | .remu => unsignedRemainder a b

def amoResult (kind : AmoKind) (old b : BitVec 32) : BitVec 32 :=
  match kind with
  | .swap => b
  | .add => old + b
  | .xor => old ^^^ b
  | .and => old &&& b
  | .or => old ||| b
  | .min => if old.toInt < b.toInt then old else b
  | .max => if b.toInt < old.toInt then old else b
  | .minu => if old.toNat < b.toNat then old else b
  | .maxu => if b.toNat < old.toNat then old else b

/-- One instruction of `length` bytes. `EBREAK` hands control to the environment and has
no successor here. -/
def execute (length : BitVec 32) (s : State) : Instr → Option State
  | .lui rd imm => some { s.write rd imm with pc := s.pc + length }
  | .auipc rd imm => some { s.write rd (s.pc + imm) with pc := s.pc + length }
  | .jal rd imm => some { s.write rd (s.pc + length) with pc := s.pc + imm }
  | .jalr rd rs1 imm =>
    some { s.write rd (s.pc + length) with pc := (s.read rs1 + imm) &&& ~~~1#32 }
  | .branch kind rs1 rs2 imm =>
    some { s with pc := s.pc + if taken kind (s.read rs1) (s.read rs2) then imm else length }
  | .load kind rd rs1 imm =>
    some { s.write rd (loaded kind s (s.read rs1 + imm)) with pc := s.pc + length }
  | .store kind rs1 rs2 imm =>
    some { stored kind s (s.read rs1 + imm) (s.read rs2) with pc := s.pc + length }
  | .opImm kind rd rs1 imm =>
    some { s.write rd (immediateResult kind (s.read rs1) imm) with pc := s.pc + length }
  | .shift kind rd rs1 shamt =>
    some { s.write rd (shiftResult kind (s.read rs1) shamt.toNat) with pc := s.pc + length }
  | .op kind rd rs1 rs2 =>
    some { s.write rd (opResult kind (s.read rs1) (s.read rs2)) with pc := s.pc + length }
  | .amo kind rd rs1 rs2 =>
    some { (s.storeWord (s.read rs1)
        (amoResult kind (s.loadWord (s.read rs1)) (s.read rs2))).write rd
          (s.loadWord (s.read rs1)) with pc := s.pc + length }
  | .ebreak => none

/-- An instruction that changes nothing but the program counter. -/
def NoEffect (i : Instr) : Prop :=
  ∀ (length : BitVec 32) (s : State), execute length s i = some { s with pc := s.pc + length }

section NoEffect

variable (r r1 r2 : Register) (imm : BitVec 32)

theorem State.write_zero (s : State) (value : BitVec 32) : s.write 0 value = s :=
  if_pos rfl

theorem State.write_read (s : State) : s.write r (s.read r) = s := by
  by_cases zero : r = 0
  · rw [zero, write_zero]
  · rw [write, if_neg zero, read, if_neg zero, Function.update_eq_self]

theorem noEffect_lui_zero : NoEffect (.lui 0 imm) := by
  intro length s
  rw [execute, State.write_zero]

theorem noEffect_opImm_zero (kind : ImmediateKind) : NoEffect (.opImm kind 0 r1 imm) := by
  intro length s
  rw [execute, State.write_zero]

theorem noEffect_op_zero (kind : OpKind) : NoEffect (.op kind 0 r1 r2) := by
  intro length s
  rw [execute, State.write_zero]

theorem noEffect_shift_zero (kind : ShiftKind) (shamt : BitVec 5) :
    NoEffect (.shift kind 0 r1 shamt) := by
  intro length s
  rw [execute, State.write_zero]

/-- Adding zero to a register in place changes nothing. -/
theorem noEffect_addi_self : NoEffect (.opImm .addi r r 0) := by
  intro length s
  have same : immediateResult .addi (s.read r) 0 = s.read r := BitVec.add_zero _
  rw [execute, same, State.write_read]

/-- So does shifting it by zero. -/
theorem noEffect_shift_self (kind : ShiftKind) : NoEffect (.shift kind r r 0) := by
  intro length s
  have same : shiftResult kind (s.read r) (0 : BitVec 5).toNat = s.read r := by
    cases kind <;> simp [shiftResult]
  rw [execute, same, State.write_read]

/-- `EBREAK` does have an effect. -/
theorem not_noEffect_ebreak : ¬ NoEffect .ebreak := by
  intro silent
  cases silent 0 ⟨fun _ => 0, 0, fun _ => 0⟩

end NoEffect

/-! ## Compressed encodings -/

/-- What the manual says about a sixteen-bit encoding on RV32: an integer instruction, a
hint, a reserved or custom code point, or an instruction of the floating-point
extensions, which is not described here. -/
inductive Meaning where
  | instr (i : Instr)
  | hint
  | reserved
  | floatingPoint
deriving DecidableEq, Repr

namespace Compressed

section Fields

variable (h : BitVec 16)

def op : BitVec 2 := h.extractLsb' 0 2

def funct3 : BitVec 3 := h.extractLsb' 13 3

def bit12 : BitVec 1 := h.extractLsb' 12 1

def rd : Register := h.extractLsb' 7 5

def rs2 : Register := h.extractLsb' 2 5

/-- `rd'` or `rs1'`: one of the registers `x8` to `x15`. -/
def rdSmall : Register := 0b01#2 ++ h.extractLsb' 7 3

/-- `rs2'`, and `rd'` in the load and stack-pointer formats. -/
def rs2Small : Register := 0b01#2 ++ h.extractLsb' 2 3

def imm6 : BitVec 32 := (h.extractLsb' 12 1 ++ h.extractLsb' 2 5).signExtend 32

def shamt : BitVec 5 := h.extractLsb' 2 5

/-- `nzuimm[5:4|9:6|2|3]` of C.ADDI4SPN. -/
def immAddi4spn : BitVec 32 :=
  (h.extractLsb' 7 4 ++ h.extractLsb' 11 2 ++ h.extractLsb' 5 1 ++ h.extractLsb' 6 1 ++
    0#2).zeroExtend 32

/-- `uimm[5:3]` and `uimm[2|6]` of C.LW and C.SW. -/
def immLw : BitVec 32 :=
  (h.extractLsb' 5 1 ++ h.extractLsb' 10 3 ++ h.extractLsb' 6 1 ++ 0#2).zeroExtend 32

/-- `imm[11|4|9:8|10|6|7|3:1|5]` of C.J and C.JAL. -/
def immJ : BitVec 32 :=
  (h.extractLsb' 12 1 ++ h.extractLsb' 8 1 ++ h.extractLsb' 9 2 ++ h.extractLsb' 6 1 ++
    h.extractLsb' 7 1 ++ h.extractLsb' 2 1 ++ h.extractLsb' 11 1 ++ h.extractLsb' 3 3 ++
    0#1).signExtend 32

/-- `nzimm[9]` and `nzimm[4|6|8:7|5]` of C.ADDI16SP. -/
def immAddi16sp : BitVec 32 :=
  (h.extractLsb' 12 1 ++ h.extractLsb' 3 2 ++ h.extractLsb' 5 1 ++ h.extractLsb' 2 1 ++
    h.extractLsb' 6 1 ++ 0#4).signExtend 32

/-- `nzimm[17]` and `nzimm[16:12]` of C.LUI. -/
def immLui : BitVec 32 := (h.extractLsb' 12 1 ++ h.extractLsb' 2 5 ++ 0#12).signExtend 32

/-- `imm[8|4:3]` and `imm[7:6|2:1|5]` of C.BEQZ and C.BNEZ. -/
def immB : BitVec 32 :=
  (h.extractLsb' 12 1 ++ h.extractLsb' 5 2 ++ h.extractLsb' 2 1 ++ h.extractLsb' 10 2 ++
    h.extractLsb' 3 2 ++ 0#1).signExtend 32

/-- `uimm[5]` and `uimm[4:2|7:6]` of C.LWSP. -/
def immLwsp : BitVec 32 :=
  (h.extractLsb' 2 2 ++ h.extractLsb' 12 1 ++ h.extractLsb' 4 3 ++ 0#2).zeroExtend 32

/-- `uimm[5:2|7:6]` of C.SWSP. -/
def immSwsp : BitVec 32 := (h.extractLsb' 7 2 ++ h.extractLsb' 9 4 ++ 0#2).zeroExtend 32

end Fields

/-- Quadrant zero of RV32C. The all-zero word is one of the reserved encodings. -/
def quadrant0 (h : BitVec 16) : Meaning :=
  if funct3 h = 0b000 then
    if immAddi4spn h = 0 then .reserved else .instr (.opImm .addi (rs2Small h) 2 (immAddi4spn h))
  else if funct3 h = 0b010 then .instr (.load .lw (rs2Small h) (rdSmall h) (immLw h))
  else if funct3 h = 0b100 then .reserved
  else if funct3 h = 0b110 then .instr (.store .sw (rdSmall h) (rs2Small h) (immLw h))
  else .floatingPoint

/-- The register-register and shift encodings of quadrant one. -/
def quadrant1Arith (h : BitVec 16) : Meaning :=
  if h.extractLsb' 10 2 = 0b00 then
    if bit12 h = 1 then .reserved
    else if shamt h = 0 then .hint
    else .instr (.shift .srli (rdSmall h) (rdSmall h) (shamt h))
  else if h.extractLsb' 10 2 = 0b01 then
    if bit12 h = 1 then .reserved
    else if shamt h = 0 then .hint
    else .instr (.shift .srai (rdSmall h) (rdSmall h) (shamt h))
  else if h.extractLsb' 10 2 = 0b10 then
    .instr (.opImm .andi (rdSmall h) (rdSmall h) (imm6 h))
  else if bit12 h = 1 then .reserved
  else if h.extractLsb' 5 2 = 0b00 then .instr (.op .sub (rdSmall h) (rdSmall h) (rs2Small h))
  else if h.extractLsb' 5 2 = 0b01 then .instr (.op .xor (rdSmall h) (rdSmall h) (rs2Small h))
  else if h.extractLsb' 5 2 = 0b10 then .instr (.op .or (rdSmall h) (rdSmall h) (rs2Small h))
  else .instr (.op .and (rdSmall h) (rdSmall h) (rs2Small h))

/-- Quadrant one of RV32C. `C.NOP` is the encoding of `ADDI x0, x0, 0`. -/
def quadrant1 (h : BitVec 16) : Meaning :=
  if funct3 h = 0b000 then
    if rd h = 0 then if imm6 h = 0 then .instr (.opImm .addi 0 0 0) else .hint
    else if imm6 h = 0 then .hint
    else .instr (.opImm .addi (rd h) (rd h) (imm6 h))
  else if funct3 h = 0b001 then .instr (.jal 1 (immJ h))
  else if funct3 h = 0b010 then
    if rd h = 0 then .hint else .instr (.opImm .addi (rd h) 0 (imm6 h))
  else if funct3 h = 0b011 then
    if rd h = 2 then
      if immAddi16sp h = 0 then .reserved else .instr (.opImm .addi 2 2 (immAddi16sp h))
    else if immLui h = 0 then .reserved
    else if rd h = 0 then .hint
    else .instr (.lui (rd h) (immLui h))
  else if funct3 h = 0b100 then quadrant1Arith h
  else if funct3 h = 0b101 then .instr (.jal 0 (immJ h))
  else if funct3 h = 0b110 then .instr (.branch .beq (rdSmall h) 0 (immB h))
  else .instr (.branch .bne (rdSmall h) 0 (immB h))

/-- Quadrant two of RV32C. -/
def quadrant2 (h : BitVec 16) : Meaning :=
  if funct3 h = 0b000 then
    if bit12 h = 1 then .reserved
    else if rd h = 0 ∨ shamt h = 0 then .hint
    else .instr (.shift .slli (rd h) (rd h) (shamt h))
  else if funct3 h = 0b010 then
    if rd h = 0 then .reserved else .instr (.load .lw (rd h) 2 (immLwsp h))
  else if funct3 h = 0b100 then
    if bit12 h = 1 then
      if rs2 h = 0 then if rd h = 0 then .instr .ebreak else .instr (.jalr 1 (rd h) 0)
      else if rd h = 0 then .hint
      else .instr (.op .add (rd h) (rd h) (rs2 h))
    else if rs2 h = 0 then if rd h = 0 then .reserved else .instr (.jalr 0 (rd h) 0)
    else if rd h = 0 then .hint
    else .instr (.op .add (rd h) 0 (rs2 h))
  else if funct3 h = 0b110 then .instr (.store .sw 2 (rs2 h) (immSwsp h))
  else .floatingPoint

/-- The meaning of a sixteen-bit encoding. Words of quadrant three are not compressed. -/
def meaning (h : BitVec 16) : Meaning :=
  if op h = 0b00 then quadrant0 h
  else if op h = 0b01 then quadrant1 h
  else if op h = 0b10 then quadrant2 h
  else .reserved

end Compressed

end SymexVP.Spec
