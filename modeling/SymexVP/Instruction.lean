import SymexVP.BitFields

/-!
# Instruction words and their fields

The decoder and the core read an instruction only through these accessors. The
word is kept in a signed integer, so a right shift of a slice that contains bit
31 copies it; where the source casts to unsigned first, the shift fills with
zeros. Register numbers and immediates are returned as 32-bit words, as in the
source.
-/

namespace SymexVP

open BitFields

/-- `Instruction`: one 32-bit word. A compressed instruction occupies its low half. -/
abbrev Instruction := BitVec 32

/-- `BIT_RANGE`: the bits `upper` down to `lower`, left in place. -/
def bitRange (word : BitVec 32) (upper lower : Nat) : BitVec 32 :=
  word &&& fieldMask 32 lower (upper - lower + 1)

/-- `BIT_SLICE` of a signed word: an arithmetic shift moves the range down. -/
def bitSlice (word : BitVec 32) (upper lower : Nat) : BitVec 32 :=
  (bitRange word upper lower).sshiftRight lower

/-- `BIT_SLICE` of an unsigned word. -/
def bitSliceU (word : BitVec 32) (upper lower : Nat) : BitVec 32 :=
  bitRange word upper lower >>> lower

/-- `BIT_SINGLE`: one bit, left in place. -/
def bitSingle (word : BitVec 32) (position : Nat) : BitVec 32 :=
  word &&& (1#32 <<< position)

/-- `BIT_SINGLE_P1`: one bit, moved to position zero. -/
def bitSingleP1 (word : BitVec 32) (position : Nat) : BitVec 32 :=
  (bitSingle word position).sshiftRight position

/-- `BIT_SINGLE_PN`: one bit, moved to another position. -/
def bitSinglePN (word : BitVec 32) (position target : Nat) : BitVec 32 :=
  bitSingleP1 word position <<< target

/-- `EXTRACT_SIGN_BIT`: copies of one bit from position `target` upwards. -/
def extractSignBit (word : BitVec 32) (position target : Nat) : BitVec 32 :=
  (bitSingleP1 word position <<< 31).sshiftRight (31 - target)

/-! ## Bits of a slice -/

section Bits

variable (word : BitVec 32) (upper lower position target index : Nat)

theorem getLsbD_bitRange (ordered : lower ≤ upper) (inside : upper < 32) :
    (bitRange word upper lower).getLsbD index =
      (word.getLsbD index && decide (lower ≤ index ∧ index ≤ upper)) := by
  rw [bitRange, BitVec.getLsbD_and, getLsbD_fieldMask _ _ _ (by omega)]
  congr 2
  rw [eq_iff_iff]
  omega

/-- A range below bit 31 is nonnegative, so the signed shift fills with zeros too. -/
theorem bitSlice_eq_bitSliceU (ordered : lower ≤ upper) (inside : upper < 31) :
    bitSlice word upper lower = bitSliceU word upper lower := by
  apply BitVec.sshiftRight_eq_of_msb_false
  rw [BitVec.msb_eq_getLsbD_last, getLsbD_bitRange _ _ _ _ ordered (by omega)]
  simp only [show ¬(lower ≤ 32 - 1 ∧ 32 - 1 ≤ upper) by omega, decide_false, Bool.and_false]

theorem getLsbD_bitSliceU (ordered : lower ≤ upper) (inside : upper < 32) :
    (bitSliceU word upper lower).getLsbD index =
      (decide (index ≤ upper - lower) && word.getLsbD (lower + index)) := by
  rw [bitSliceU, BitVec.getLsbD_ushiftRight, getLsbD_bitRange _ _ _ _ ordered inside, Bool.and_comm]
  congr 2
  rw [eq_iff_iff]
  omega

theorem getLsbD_bitSlice (ordered : lower ≤ upper) (inside : upper < 31) :
    (bitSlice word upper lower).getLsbD index =
      (decide (index ≤ upper - lower) && word.getLsbD (lower + index)) := by
  rw [bitSlice_eq_bitSliceU _ _ _ ordered inside,
    getLsbD_bitSliceU _ _ _ _ ordered (by omega)]

theorem bitSingle_eq_bitRange : bitSingle word position = bitRange word position position := by
  rw [bitSingle, bitRange, fieldMask, Nat.sub_self, Nat.zero_add]
  rfl

theorem getLsbD_bitSingleP1 (inside : position < 31) :
    (bitSingleP1 word position).getLsbD index =
      (decide (index = 0) && word.getLsbD position) := by
  rw [bitSingleP1, bitSingle_eq_bitRange]
  refine (getLsbD_bitSlice word position position index (Nat.le_refl _) inside).trans ?_
  by_cases zero : index = 0
  · simp [zero]
  · simp [zero]

theorem getLsbD_bitSinglePN (inside : position < 31) (present : index < 32) :
    (bitSinglePN word position target).getLsbD index =
      (decide (index = target) && word.getLsbD position) := by
  rw [bitSinglePN, BitVec.getLsbD_shiftLeft, getLsbD_bitSingleP1 _ _ _ inside]
  by_cases same : index = target
  · subst same
    simp [present]
  · by_cases below : index < target
    · simp [same, below]
    · simp [same, show index - target ≠ 0 by omega]

theorem getLsbD_extractSignBit (inside : position < 31) (fits : target ≤ 31) (present : index < 32) :
    (extractSignBit word position target).getLsbD index =
      (decide (target ≤ index) && word.getLsbD position) := by
  rw [extractSignBit, BitVec.getLsbD_sshiftRight]
  simp only [BitVec.msb_eq_getLsbD_last, BitVec.getLsbD_shiftLeft,
    getLsbD_bitSingleP1 _ _ _ inside, show ¬ 32 ≤ index by omega]
  by_cases high : target ≤ index
  · by_cases top : 31 - target + index < 32
    · simp [show index = target by omega, fits]
    · simp [high, top]
  · simp [high, show 31 - target + index < 31 by omega, show 31 - target + index < 32 by omega]

end Bits

/-! ## Accessors -/

namespace Instruction

def quadrant (instr : Instruction) : BitVec 32 := instr &&& 0x3

def isCompressed (instr : Instruction) : Bool := instr.quadrant < 3

def cFormat (instr : Instruction) : BitVec 32 := instr &&& 0xffff

def cOpcode (instr : Instruction) : BitVec 32 := bitSlice instr 15 13

def cB12 (instr : Instruction) : BitVec 32 := bitSingleP1 instr 12

def rd (instr : Instruction) : BitVec 32 := (bitRange instr 11 7).sshiftRight 7

def rs1 (instr : Instruction) : BitVec 32 := (bitRange instr 19 15).sshiftRight 15

def rs2 (instr : Instruction) : BitVec 32 := (bitRange instr 24 20).sshiftRight 20

def cRd (instr : Instruction) : BitVec 32 := instr.rd

def cRdSmall (instr : Instruction) : BitVec 32 := bitSlice instr 9 7 ||| 8

def cRs2Small (instr : Instruction) : BitVec 32 := bitSlice instr 4 2 ||| 8

def cRs2 (instr : Instruction) : BitVec 32 := bitSlice instr 6 2

def cImm (instr : Instruction) : BitVec 32 := bitSlice instr 6 2 ||| extractSignBit instr 12 5

def cUimm (instr : Instruction) : BitVec 32 := bitSlice instr 6 2 ||| (bitSingleP1 instr 12 <<< 5)

def cF2High (instr : Instruction) : BitVec 32 := bitSlice instr 11 10

def cF2Low (instr : Instruction) : BitVec 32 := bitSlice instr 6 5

/-- The CSR address; the source casts to unsigned, so nothing is sign-extended. -/
def csr (instr : Instruction) : BitVec 32 := bitRange instr 31 20 >>> 20

def zimm (instr : Instruction) : BitVec 32 := (bitRange instr 19 15).sshiftRight 15

def shamt (instr : Instruction) : BitVec 32 := (bitRange instr 25 20).sshiftRight 20

def funct2 (instr : Instruction) : BitVec 32 := (bitRange instr 26 25).sshiftRight 25

def funct3 (instr : Instruction) : BitVec 32 := (bitRange instr 14 12).sshiftRight 12

def funct12 (instr : Instruction) : BitVec 32 := bitRange instr 31 20 >>> 20

def funct7 (instr : Instruction) : BitVec 32 := bitRange instr 31 25 >>> 25

def funct6 (instr : Instruction) : BitVec 32 := bitRange instr 31 26 >>> 26

def funct5 (instr : Instruction) : BitVec 32 := bitRange instr 31 27 >>> 27

def opcode (instr : Instruction) : BitVec 32 := bitRange instr 6 0

def jImm (instr : Instruction) : BitVec 32 :=
  (bitSingle instr 31).sshiftRight 11 ||| bitRange instr 19 12 |||
    (bitSingle instr 20).sshiftRight 9 ||| (bitRange instr 30 21).sshiftRight 20

def iImm (instr : Instruction) : BitVec 32 := (bitRange instr 31 20).sshiftRight 20

def sImm (instr : Instruction) : BitVec 32 :=
  (bitRange instr 31 25).sshiftRight 20 ||| (bitRange instr 11 7).sshiftRight 7

def bImm (instr : Instruction) : BitVec 32 :=
  (bitSingle instr 31).sshiftRight 19 ||| (bitSingle instr 7 <<< 4) |||
    (bitRange instr 30 25).sshiftRight 20 ||| (bitRange instr 11 8).sshiftRight 7

def uImm (instr : Instruction) : BitVec 32 := bitRange instr 31 12

def data (instr : Instruction) : BitVec 32 := instr

end Instruction

end SymexVP
