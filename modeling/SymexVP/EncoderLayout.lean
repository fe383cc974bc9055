import SymexVP.SpecificationFields

/-!
# Encoded words read back by the manual

The encoders of `InstructionFactory` pack operands with shifts and masks. Each of
them is rewritten here as one concatenation of fields, the layout all formats share,
and the manual's decoder is evaluated on that layout. The result says which
instruction an encoder produces for every choice of operands.
-/

namespace SymexVP

open Opcode

/-! ## Words as concatenations -/

namespace Spec

/-- The common layout of all formats, in fields from the top bit down. -/
def layout (funct7 : BitVec 7) (rs2 rs1 : Register) (funct3 : BitVec 3) (rd : Register)
    (opcode : BitVec 7) : BitVec 32 :=
  funct7 ++ rs2 ++ rs1 ++ funct3 ++ rd ++ opcode

section Layout

variable (f7 : BitVec 7) (r2 r1 : Register) (f3 : BitVec 3) (d : Register) (o : BitVec 7)

theorem getLsbD_layout (index : Nat) :
    (layout f7 r2 r1 f3 d o).getLsbD index =
      if index < 7 then o.getLsbD index
      else if index < 12 then d.getLsbD (index - 7)
      else if index < 15 then f3.getLsbD (index - 12)
      else if index < 20 then r1.getLsbD (index - 15)
      else if index < 25 then r2.getLsbD (index - 20)
      else f7.getLsbD (index - 25) := by
  simp only [layout, BitVec.getLsbD_append]
  repeat' split
  all_goals first | rfl | omega

@[simp] theorem opcode_layout : opcode (layout f7 r2 r1 f3 d o) = o := by
  apply BitVec.eq_of_getLsbD_eq
  intro index inside
  simp only [opcode, BitVec.getLsbD_extractLsb', getLsbD_layout]
  interval_cases index <;> simp

@[simp] theorem rd_layout : rd (layout f7 r2 r1 f3 d o) = d := by
  apply BitVec.eq_of_getLsbD_eq
  intro index inside
  simp only [rd, BitVec.getLsbD_extractLsb', getLsbD_layout]
  interval_cases index <;> simp

@[simp] theorem funct3_layout : funct3 (layout f7 r2 r1 f3 d o) = f3 := by
  apply BitVec.eq_of_getLsbD_eq
  intro index inside
  simp only [funct3, BitVec.getLsbD_extractLsb', getLsbD_layout]
  interval_cases index <;> simp

@[simp] theorem rs1_layout : rs1 (layout f7 r2 r1 f3 d o) = r1 := by
  apply BitVec.eq_of_getLsbD_eq
  intro index inside
  simp only [rs1, BitVec.getLsbD_extractLsb', getLsbD_layout]
  interval_cases index <;> simp

@[simp] theorem rs2_layout : rs2 (layout f7 r2 r1 f3 d o) = r2 := by
  apply BitVec.eq_of_getLsbD_eq
  intro index inside
  simp only [rs2, BitVec.getLsbD_extractLsb', getLsbD_layout]
  interval_cases index <;> simp

@[simp] theorem funct7_layout : funct7 (layout f7 r2 r1 f3 d o) = f7 := by
  apply BitVec.eq_of_getLsbD_eq
  intro index inside
  simp only [funct7, BitVec.getLsbD_extractLsb', getLsbD_layout]
  interval_cases index <;> simp

end Layout

/-- The value of an immediate of which the word keeps the low `n` bits. -/
def signed (n : Nat) (imm : BitVec 32) : BitVec 32 := (imm.setWidth n).signExtend 32

theorem getLsbD_signed (n : Nat) (imm : BitVec 32) (index : Nat) (fits : n ≤ 32)
    (nonempty : 0 < n) (inside : index < 32) :
    (signed n imm).getLsbD index = imm.getLsbD (min index (n - 1)) := by
  simp only [signed, BitVec.getLsbD_signExtend, BitVec.msb_eq_getLsbD_last,
    BitVec.getLsbD_setWidth, inside]
  by_cases low : index < n
  · simp [low, show min index (n - 1) = index by omega]
  · simp [low, show min index (n - 1) = n - 1 by omega, nonempty]

/-- A short signed immediate survives the trip through the word. -/
theorem signed_signExtend {k : Nat} (n : Nat) (x : BitVec k) (short : k ≤ n) (fits : n ≤ 32)
    (nonempty : 0 < k) : signed n (x.signExtend 32) = x.signExtend 32 := by
  apply BitVec.eq_of_getLsbD_eq
  intro index inside
  rw [getLsbD_signed _ _ _ fits (by omega) inside]
  simp only [BitVec.getLsbD_signExtend, BitVec.msb_eq_getLsbD_last, inside,
    show min index (n - 1) < 32 by omega, decide_true, Bool.true_and]
  by_cases low : index < n
  · rw [show min index (n - 1) = index by omega]
  · rw [show min index (n - 1) = n - 1 by omega, if_neg (show ¬ index < k by omega)]
    by_cases full : n - 1 < k
    · rw [if_pos full, show n - 1 = k - 1 by omega]
    · rw [if_neg full]

/-- A short unsigned immediate survives if it leaves the sign bit free. -/
theorem signed_zeroExtend {k : Nat} (n : Nat) (x : BitVec k) (short : k < n) (fits : n ≤ 32) :
    signed n (x.zeroExtend 32) = x.zeroExtend 32 := by
  apply BitVec.eq_of_getLsbD_eq
  intro index inside
  rw [getLsbD_signed _ _ _ fits (by omega) inside]
  simp only [BitVec.zeroExtend, BitVec.getLsbD_setWidth, inside,
    show min index (n - 1) < 32 by omega, decide_true, Bool.true_and]
  by_cases low : index < n
  · rw [show min index (n - 1) = index by omega]
  · rw [BitVec.getLsbD_of_ge _ _ (show k ≤ min index (n - 1) by omega),
      BitVec.getLsbD_of_ge _ _ (show k ≤ index by omega)]

/-- The immediate of an I-format word. -/
theorem immI_layout (imm : BitVec 32) (r1 : Register) (f3 : BitVec 3) (d : Register)
    (o : BitVec 7) :
    immI (layout (imm.extractLsb' 5 7) (imm.extractLsb' 0 5) r1 f3 d o) = signed 12 imm := by
  apply BitVec.eq_of_getLsbD_eq
  intro index inside
  rw [getLsbD_signed _ _ _ (by decide) (by decide) inside]
  simp only [immI, BitVec.getLsbD_signExtend, BitVec.msb_eq_getLsbD_last,
    BitVec.getLsbD_extractLsb', getLsbD_layout]
  interval_cases index <;> simp

/-- The immediate of an S-format word. -/
theorem immS_layout (imm : BitVec 32) (r2 r1 : Register) (f3 : BitVec 3) (o : BitVec 7) :
    immS (layout (imm.extractLsb' 5 7) r2 r1 f3 (imm.extractLsb' 0 5) o) = signed 12 imm := by
  apply BitVec.eq_of_getLsbD_eq
  intro index inside
  rw [getLsbD_signed _ _ _ (by decide) (by decide) inside]
  simp only [immS, BitVec.getLsbD_signExtend, BitVec.msb_eq_getLsbD_last, BitVec.getLsbD_append,
    BitVec.getLsbD_extractLsb', getLsbD_layout]
  interval_cases index <;> simp

/-- The immediate of a B-format word. -/
theorem immB_layout (imm : BitVec 32) (r2 r1 : Register) (f3 : BitVec 3) (o : BitVec 7)
    (even : imm[0] = false) :
    immB (layout (imm.extractLsb' 12 1 ++ imm.extractLsb' 5 6) r2 r1 f3
      (imm.extractLsb' 1 4 ++ imm.extractLsb' 11 1) o) = signed 13 imm := by
  apply BitVec.eq_of_getLsbD_eq
  intro index inside
  rw [getLsbD_signed _ _ _ (by decide) (by decide) inside]
  simp only [immB, BitVec.getLsbD_signExtend, BitVec.msb_eq_getLsbD_last, BitVec.getLsbD_append,
    BitVec.getLsbD_extractLsb', getLsbD_layout]
  interval_cases index <;> simp [even]

/-- The immediate of a J-format word. -/
theorem immJ_layout (imm : BitVec 32) (d : Register) (o : BitVec 7)
    (even : imm[0] = false) :
    immJ (layout (imm.extractLsb' 20 1 ++ imm.extractLsb' 5 6)
      (imm.extractLsb' 1 4 ++ imm.extractLsb' 11 1) (imm.extractLsb' 15 5)
      (imm.extractLsb' 12 3) d o) = signed 21 imm := by
  apply BitVec.eq_of_getLsbD_eq
  intro index inside
  rw [getLsbD_signed _ _ _ (by decide) (by decide) inside]
  simp only [immJ, BitVec.getLsbD_signExtend, BitVec.msb_eq_getLsbD_last, BitVec.getLsbD_append,
    BitVec.getLsbD_extractLsb', getLsbD_layout]
  interval_cases index <;> simp [even]

/-- The immediate of a U-format word. -/
theorem immU_layout (imm : BitVec 32) (d : Register) (o : BitVec 7)
    (aligned : ∀ index < 12, imm.getLsbD index = false) :
    immU (layout (imm.extractLsb' 25 7) (imm.extractLsb' 20 5) (imm.extractLsb' 15 5)
      (imm.extractLsb' 12 3) d o) = imm := by
  apply BitVec.eq_of_getLsbD_eq
  intro index inside
  by_cases low : index < 12
  · rw [aligned index low]
    exact BitVec.getLsbD_append.trans (by simp [low])
  · simp only [immU, BitVec.getLsbD_append, BitVec.getLsbD_extractLsb', getLsbD_layout]
    interval_cases index <;> simp at low ⊢

end Spec

/-! ## Encoders as layouts -/

namespace InstructionFactory

open Spec

section Formats

variable (o : BitVec 7) (f3 : BitVec 3) (f7 : BitVec 7) (d r1 r2 : Register) (imm : BitVec 32)

theorem rFormat_eq_layout :
    rFormat (o.setWidth 32) (f3.setWidth 32) (f7.setWidth 32) (d.setWidth 32) (r1.setWidth 32)
      (r2.setWidth 32) = layout f7 r2 r1 f3 d o := by
  apply BitVec.eq_of_getLsbD_eq
  intro index inside
  simp only [rFormat, getLsbD_layout, BitVec.getLsbD_or, BitVec.getLsbD_shiftLeft,
    BitVec.getLsbD_and, BitVec.getLsbD_setWidth]
  interval_cases index <;> simp

theorem shiftFormat_eq_layout :
    shiftFormat (f3.setWidth 32) (f7.setWidth 32) (d.setWidth 32) (r1.setWidth 32)
      (r2.setWidth 32) = layout f7 r2 r1 f3 d 19 := by
  apply BitVec.eq_of_getLsbD_eq
  intro index inside
  simp only [shiftFormat, getLsbD_layout, BitVec.getLsbD_or, BitVec.getLsbD_shiftLeft,
    BitVec.getLsbD_and, BitVec.getLsbD_setWidth]
  interval_cases index <;> simp

theorem iFormat_eq_layout :
    iFormat (o.setWidth 32) (f3.setWidth 32) (d.setWidth 32) (r1.setWidth 32) imm =
      layout (imm.extractLsb' 5 7) (imm.extractLsb' 0 5) r1 f3 d o := by
  apply BitVec.eq_of_getLsbD_eq
  intro index inside
  simp only [iFormat, getLsbD_layout, BitVec.getLsbD_or, BitVec.getLsbD_shiftLeft,
    BitVec.getLsbD_and, BitVec.getLsbD_setWidth, BitVec.getLsbD_extractLsb']
  interval_cases index <;> simp

theorem sFormat_eq_layout :
    sFormat (o.setWidth 32) (f3.setWidth 32) (r1.setWidth 32) (r2.setWidth 32) imm =
      layout (imm.extractLsb' 5 7) r2 r1 f3 (imm.extractLsb' 0 5) o := by
  apply BitVec.eq_of_getLsbD_eq
  intro index inside
  simp only [sFormat, getLsbD_layout, BitVec.getLsbD_or, BitVec.getLsbD_shiftLeft,
    BitVec.getLsbD_and, BitVec.getLsbD_setWidth, BitVec.getLsbD_extractLsb']
  interval_cases index <;> simp

theorem bFormat_eq_layout :
    bFormat (f3.setWidth 32) (r1.setWidth 32) (r2.setWidth 32) imm =
      layout (imm.extractLsb' 12 1 ++ imm.extractLsb' 5 6) r2 r1 f3
        (imm.extractLsb' 1 4 ++ imm.extractLsb' 11 1) 99 := by
  apply BitVec.eq_of_getLsbD_eq
  intro index inside
  simp only [bFormat, getLsbD_layout, BitVec.getLsbD_or, BitVec.getLsbD_shiftLeft,
    BitVec.getLsbD_sshiftRight, BitVec.getLsbD_and, BitVec.getLsbD_setWidth,
    BitVec.getLsbD_append, BitVec.getLsbD_extractLsb', BitVec.msb_eq_getLsbD_last]
  interval_cases index <;> simp

theorem lui_eq_layout :
    lui (d.setWidth 32) imm =
      layout (imm.extractLsb' 25 7) (imm.extractLsb' 20 5) (imm.extractLsb' 15 5)
        (imm.extractLsb' 12 3) d 55 := by
  apply BitVec.eq_of_getLsbD_eq
  intro index inside
  simp only [lui, getLsbD_layout, BitVec.getLsbD_or, BitVec.getLsbD_shiftLeft,
    BitVec.getLsbD_and, BitVec.getLsbD_setWidth, BitVec.getLsbD_extractLsb']
  interval_cases index <;> simp

theorem jal_eq_layout :
    jal (d.setWidth 32) imm =
      layout (imm.extractLsb' 20 1 ++ imm.extractLsb' 5 6)
        (imm.extractLsb' 1 4 ++ imm.extractLsb' 11 1) (imm.extractLsb' 15 5)
        (imm.extractLsb' 12 3) d 111 := by
  apply BitVec.eq_of_getLsbD_eq
  intro index inside
  simp only [jal, getLsbD_layout, BitVec.getLsbD_or, BitVec.getLsbD_shiftLeft,
    BitVec.getLsbD_and, BitVec.getLsbD_setWidth, BitVec.getLsbD_append,
    BitVec.getLsbD_extractLsb']
  interval_cases index <;> simp

end Formats

/-! ## Reading the encoders back -/

section Decode

variable (d r1 r2 : Register) (imm : BitVec 32)

/-- A register-register word is read back with the operation its codes select. -/
theorem decode_op (kind : OpKind) (f3 : BitVec 3) (f7 : BitVec 7) (word : Instruction)
    (packed : word = layout f7 r2 r1 f3 d 51) (selected : opKind f7 f3 = some kind) :
    decode word = some (.op kind d r1 r2) := by
  rw [packed]
  simp +decide [decode, selected]

theorem decode_add :
    decode (add (d.setWidth 32) (r1.setWidth 32) (r2.setWidth 32)) = some (.op .add d r1 r2) :=
  decode_op d r1 r2 .add 0 0 _ (rFormat_eq_layout 51 0 0 d r1 r2) (by decide)

theorem decode_and :
    decode (and (d.setWidth 32) (r1.setWidth 32) (r2.setWidth 32)) = some (.op .and d r1 r2) :=
  decode_op d r1 r2 .and 7 0 _ (rFormat_eq_layout 51 7 0 d r1 r2) (by decide)

theorem decode_or :
    decode (or (d.setWidth 32) (r1.setWidth 32) (r2.setWidth 32)) = some (.op .or d r1 r2) :=
  decode_op d r1 r2 .or 6 0 _ (rFormat_eq_layout 51 6 0 d r1 r2) (by decide)

theorem decode_xor :
    decode (xor (d.setWidth 32) (r1.setWidth 32) (r2.setWidth 32)) = some (.op .xor d r1 r2) :=
  decode_op d r1 r2 .xor 4 0 _ (rFormat_eq_layout 51 4 0 d r1 r2) (by decide)

theorem decode_sub :
    decode (sub (d.setWidth 32) (r1.setWidth 32) (r2.setWidth 32)) = some (.op .sub d r1 r2) :=
  decode_op d r1 r2 .sub 0 32 _ (rFormat_eq_layout 51 0 32 d r1 r2) (by decide)

/-- An immediate shift is read back with the shift its codes select. -/
theorem decode_shift (kind : ShiftKind) (f3 : BitVec 3) (f7 : BitVec 7) (word : Instruction)
    (packed : word = layout f7 r2 r1 f3 d 19) (shifts : f3 = 0b001 ∨ f3 = 0b101)
    (selected : shiftKind f7 f3 = some kind) : decode word = some (.shift kind d r1 r2) := by
  rw [packed]
  rcases shifts with rfl | rfl
  · simp +decide [decode]
    exact selected
  · simp +decide [decode]
    exact selected

theorem decode_slli :
    decode (slli (d.setWidth 32) (r1.setWidth 32) (r2.setWidth 32)) =
      some (.shift .slli d r1 r2) :=
  decode_shift d r1 r2 .slli 1 0 _ (shiftFormat_eq_layout 1 0 d r1 r2) (by decide) (by decide)

theorem decode_srli :
    decode (srli (d.setWidth 32) (r1.setWidth 32) (r2.setWidth 32)) =
      some (.shift .srli d r1 r2) :=
  decode_shift d r1 r2 .srli 5 0 _ (shiftFormat_eq_layout 5 0 d r1 r2) (by decide) (by decide)

theorem decode_srai :
    decode (srai (d.setWidth 32) (r1.setWidth 32) (r2.setWidth 32)) =
      some (.shift .srai d r1 r2) :=
  decode_shift d r1 r2 .srai 5 32 _ (shiftFormat_eq_layout 5 32 d r1 r2) (by decide) (by decide)

theorem decode_addi :
    decode (addi (d.setWidth 32) (r1.setWidth 32) imm) =
      some (.opImm .addi d r1 (signed 12 imm)) := by
  rw [show addi (d.setWidth 32) (r1.setWidth 32) imm = _ from iFormat_eq_layout 19 0 d r1 imm]
  simp +decide [decode, immediateKind, immI_layout]

theorem decode_andi :
    decode (andi (d.setWidth 32) (r1.setWidth 32) imm) =
      some (.opImm .andi d r1 (signed 12 imm)) := by
  rw [show andi (d.setWidth 32) (r1.setWidth 32) imm = _ from iFormat_eq_layout 19 7 d r1 imm]
  simp +decide [decode, immediateKind, immI_layout]

theorem decode_lw :
    decode (lw (d.setWidth 32) (r1.setWidth 32) imm) = some (.load .lw d r1 (signed 12 imm)) := by
  rw [show lw (d.setWidth 32) (r1.setWidth 32) imm = _ from iFormat_eq_layout 3 2 d r1 imm]
  simp +decide [decode, loadKind, immI_layout]

theorem decode_jalr :
    decode (jalr (d.setWidth 32) (r1.setWidth 32) imm) = some (.jalr d r1 (signed 12 imm)) := by
  rw [show jalr (d.setWidth 32) (r1.setWidth 32) imm = _ from iFormat_eq_layout 103 0 d r1 imm]
  simp +decide [decode, immI_layout]

theorem decode_sw :
    decode (sw (r1.setWidth 32) (r2.setWidth 32) imm) =
      some (.store .sw r1 r2 (signed 12 imm)) := by
  rw [show sw (r1.setWidth 32) (r2.setWidth 32) imm = _ from sFormat_eq_layout 35 2 r1 r2 imm]
  simp +decide [decode, storeKind, immS_layout]

theorem decode_beq (even : imm[0] = false) :
    decode (beq (r1.setWidth 32) (r2.setWidth 32) imm) =
      some (.branch .beq r1 r2 (signed 13 imm)) := by
  rw [show beq (r1.setWidth 32) (r2.setWidth 32) imm = _ from bFormat_eq_layout 0 r1 r2 imm]
  simp +decide [decode, branchKind, immB_layout _ _ _ _ _ even]

theorem decode_bne (even : imm[0] = false) :
    decode (bne (r1.setWidth 32) (r2.setWidth 32) imm) =
      some (.branch .bne r1 r2 (signed 13 imm)) := by
  rw [show bne (r1.setWidth 32) (r2.setWidth 32) imm = _ from bFormat_eq_layout 1 r1 r2 imm]
  simp +decide [decode, branchKind, immB_layout _ _ _ _ _ even]

theorem decode_lui (aligned : ∀ index < 12, imm.getLsbD index = false) :
    decode (lui (d.setWidth 32) imm) = some (.lui d imm) := by
  rw [lui_eq_layout]
  simp +decide [decode, immU_layout _ _ _ aligned]

theorem decode_jal (even : imm[0] = false) :
    decode (jal (d.setWidth 32) imm) = some (.jal d (signed 21 imm)) := by
  rw [jal_eq_layout]
  simp +decide [decode, immJ_layout _ _ _ even]

end Decode

end InstructionFactory

end SymexVP
