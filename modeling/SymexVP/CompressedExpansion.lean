import SymexVP.EncoderLayout
import SymexVP.DecoderAgreement

/-!
# Compressed expansion and the RV32C tables

Every sixteen-bit encoding has a meaning in the manual: an integer instruction, a
hint, a reserved code point, or a floating-point instruction. This module compares
the decoder's expansion with that meaning. The packed word is read back with the
manual's own decoder, so an expansion conforms when it names and encodes exactly
the instruction of the table.

Both classifications look at the same fields of the half word, so the comparison is
one case for each of their branches. Three kinds of encodings do not conform:
`C.NOP` becomes an `ADD`, the `C.ADD` hints become `EBREAK`, and the two RV64 word
operations are accepted on RV32.
-/

namespace SymexVP

open Opcode

namespace Instruction

open Spec (Meaning Instr)
open InstructionFactory

/-- What an expansion owes to the meaning of its encoding. An integer instruction is named
and packed as the manual says; a hint becomes some instruction without effect; a
reserved code point is refused. Nothing is asked of floating-point encodings. -/
def Conforms : Meaning → Mapping × Instruction → Prop
  | .instr i, (op, expanded) => op = mnemonic i ∧ Spec.decode expanded = some i
  | .hint, (op, expanded) =>
    ∃ i, op = mnemonic i ∧ Spec.decode expanded = some i ∧ Spec.NoEffect i
  | .reserved, (op, _) => op = .undefined
  | .floatingPoint, _ => True

section Cases

variable (instr : Instruction)

theorem funct3_cases (f : BitVec 3) :
    f = 0 ∨ f = 1 ∨ f = 2 ∨ f = 3 ∨ f = 4 ∨ f = 5 ∨ f = 6 ∨ f = 7 := by
  revert f
  decide

theorem funct2_cases (f : BitVec 2) : f = 0 ∨ f = 1 ∨ f = 2 ∨ f = 3 := by
  revert f
  decide

theorem bit_cases (b : BitVec 1) : b = 0 ∨ b = 1 := by
  revert b
  decide

/-- A field is compared with a small constant in its own width. -/
theorem setWidth_eq_iff {k : Nat} (x : BitVec k) (n : Nat) (fits : k ≤ 32) (small : n < 2 ^ k) :
    x.setWidth 32 = BitVec.ofNat 32 n ↔ x = BitVec.ofNat k n := by
  have wide : (2 : Nat) ^ k ≤ 2 ^ 32 := Nat.pow_le_pow_right (by decide) fits
  rw [← BitVec.toNat_inj, ← BitVec.toNat_inj, BitVec.toNat_setWidth, BitVec.toNat_ofNat,
    BitVec.toNat_ofNat, Nat.mod_eq_of_lt (Nat.lt_of_lt_of_le x.isLt wide),
    Nat.mod_eq_of_lt (Nat.lt_of_lt_of_le small wide), Nat.mod_eq_of_lt small]

theorem cRd_eq_zero_iff : instr.cRd = 0#32 ↔ Spec.Compressed.rd instr.low = 0 := by
  rw [cRd_eq]
  exact setWidth_eq_iff _ 0 (by decide) (by decide)

theorem cRd_eq_two_iff : instr.cRd = 2#32 ↔ Spec.Compressed.rd instr.low = 2 := by
  rw [cRd_eq]
  exact setWidth_eq_iff _ 2 (by decide) (by decide)

theorem cRs2_eq_zero_iff : instr.cRs2 = 0#32 ↔ Spec.Compressed.rs2 instr.low = 0 := by
  rw [cRs2_eq]
  exact setWidth_eq_iff _ 0 (by decide) (by decide)

/-- The shift amount needs a sixth bit exactly when bit 12 is set. -/
theorem cUimm_large_iff : 31#32 < instr.cUimm ↔ Spec.Compressed.bit12 instr.low = 1 := by
  rw [cUimm_eq]
  generalize Spec.Compressed.bit12 instr.low = b
  generalize Spec.Compressed.shamt instr.low = n
  revert b n
  decide

theorem cUimm_of_small (small : Spec.Compressed.bit12 instr.low = 0) :
    instr.cUimm = (Spec.Compressed.shamt instr.low).setWidth 32 := by
  rw [cUimm_eq, small]
  generalize Spec.Compressed.shamt instr.low = n
  revert n
  decide

/-- A half word is made of the fields both classifications look at. -/
theorem low_eq_fields (h : BitVec 16) :
    h = Spec.Compressed.funct3 h ++ Spec.Compressed.bit12 h ++ Spec.Compressed.rd h ++
      Spec.Compressed.rs2 h ++ Spec.Compressed.op h := by
  apply BitVec.eq_of_getLsbD_eq
  intro index inside
  simp only [Spec.Compressed.funct3, Spec.Compressed.bit12, Spec.Compressed.rd,
    Spec.Compressed.rs2, Spec.Compressed.op, BitVec.getLsbD_append, BitVec.getLsbD_extractLsb']
  interval_cases index <;> simp

theorem imm6_eq_zero_iff (h : BitVec 16) :
    Spec.Compressed.imm6 h = 0 ↔ Spec.Compressed.bit12 h = 0 ∧ Spec.Compressed.rs2 h = 0 := by
  change (Spec.Compressed.bit12 h ++ Spec.Compressed.rs2 h).signExtend 32 = 0 ↔ _
  generalize Spec.Compressed.bit12 h = b
  generalize Spec.Compressed.rs2 h = r
  revert b r
  decide

/-- The one word the classifier calls `C.NOP`. -/
theorem low_eq_one_iff (h : BitVec 16) (one : Spec.Compressed.op h = 1)
    (zero : Spec.Compressed.funct3 h = 0) :
    h = 1 ↔ Spec.Compressed.rd h = 0 ∧ Spec.Compressed.imm6 h = 0 := by
  constructor
  · rintro rfl
    decide
  · rintro ⟨register, immediate⟩
    obtain ⟨bit, operand⟩ := (imm6_eq_zero_iff h).mp immediate
    rw [low_eq_fields h, zero, bit, register, operand, one]
    decide

theorem cFormat_eq_one_iff : instr.cFormat = 1#32 ↔ instr.low = 1 := by
  rw [cFormat_eq]
  exact setWidth_eq_iff _ 1 (by decide) (by decide)

theorem cFormat_eq_zero_iff : instr.cFormat = 0#32 ↔ instr.low = 0 := by
  rw [cFormat_eq]
  exact setWidth_eq_iff _ 0 (by decide) (by decide)

end Cases

/-! ## Expansions

For each class of encodings, the word its expansion packs is the instruction the
manual gives it. -/

section Expansions

open Compressed

variable (instr : Instruction)

/-- An expansion that packs the word of `i` under the name of `i` conforms to `i`. -/
theorem conforms_instr {i : Instr} {expanded : Instruction} (packed : Spec.decode expanded = some i) :
    Conforms (.instr i) (mnemonic i, expanded) :=
  ⟨rfl, packed⟩

/-- If `i` has no effect, it conforms to a hint as well. -/
theorem conforms_hint {i : Instr} {expanded : Instruction} (packed : Spec.decode expanded = some i)
    (silent : Spec.NoEffect i) : Conforms .hint (mnemonic i, expanded) :=
  ⟨i, rfl, packed, silent⟩

theorem decode_cAddi4spn :
    Spec.decode (addi instr.cRs2Small 2 (cAddi4spnNzuimm instr.data)) =
      some (.opImm .addi (Spec.Compressed.rs2Small instr.low) 2
        (Spec.Compressed.immAddi4spn instr.low)) := by
  rw [data, cRs2Small_eq, cAddi4spnNzuimm_eq]
  refine (decode_addi _ 2 _).trans ?_
  rw [Spec.Compressed.immAddi4spn, Spec.signed_zeroExtend 12 _ (by decide) (by decide)]

theorem decode_cLw :
    Spec.decode (lw instr.cRs2Small instr.cRdSmall (cLwUimm instr.data)) =
      some (.load .lw (Spec.Compressed.rs2Small instr.low) (Spec.Compressed.rdSmall instr.low)
        (Spec.Compressed.immLw instr.low)) := by
  rw [data, cRs2Small_eq, cRdSmall_eq, cLwUimm_eq, decode_lw, Spec.Compressed.immLw,
    Spec.signed_zeroExtend 12 _ (by decide) (by decide)]

theorem decode_cSw :
    Spec.decode (sw instr.cRdSmall instr.cRs2Small (cSwUimm instr.data)) =
      some (.store .sw (Spec.Compressed.rdSmall instr.low) (Spec.Compressed.rs2Small instr.low)
        (Spec.Compressed.immLw instr.low)) := by
  rw [data, cRs2Small_eq, cRdSmall_eq, cSwUimm, cLwUimm_eq, decode_sw, Spec.Compressed.immLw,
    Spec.signed_zeroExtend 12 _ (by decide) (by decide)]

theorem decode_cAddi :
    Spec.decode (addi instr.cRd instr.cRd instr.cImm) =
      some (.opImm .addi (Spec.Compressed.rd instr.low) (Spec.Compressed.rd instr.low)
        (Spec.Compressed.imm6 instr.low)) := by
  rw [cRd_eq, cImm_eq, decode_addi, Spec.Compressed.imm6,
    Spec.signed_signExtend 12 _ (by decide) (by decide) (by decide)]

theorem decode_cLi :
    Spec.decode (addi instr.cRd 0 instr.cImm) =
      some (.opImm .addi (Spec.Compressed.rd instr.low) 0 (Spec.Compressed.imm6 instr.low)) := by
  rw [cRd_eq, cImm_eq]
  refine (decode_addi _ 0 _).trans ?_
  rw [Spec.Compressed.imm6, Spec.signed_signExtend 12 _ (by decide) (by decide) (by decide)]

theorem decode_cAndi :
    Spec.decode (andi instr.cRdSmall instr.cRdSmall instr.cImm) =
      some (.opImm .andi (Spec.Compressed.rdSmall instr.low) (Spec.Compressed.rdSmall instr.low)
        (Spec.Compressed.imm6 instr.low)) := by
  rw [cRdSmall_eq, cImm_eq, decode_andi, Spec.Compressed.imm6,
    Spec.signed_signExtend 12 _ (by decide) (by decide) (by decide)]

/-- Jump and branch offsets are written with a zero at the end. -/
theorem even_signExtend {k : Nat} (x : BitVec k) :
    ((x ++ 0#1).signExtend 32).getLsbD 0 = false := by
  simp only [BitVec.getLsbD_signExtend, BitVec.getLsbD_append]
  simp

/-- `C.JAL` and `C.J` share their offset. -/
theorem decode_cJal (link : Spec.Register) :
    Spec.decode (jal (link.setWidth 32) (cJalImm instr.data)) =
      some (.jal link (Spec.Compressed.immJ instr.low)) := by
  have even : (Spec.Compressed.immJ instr.low)[0] = false := even_signExtend _
  rw [data, cJalImm_eq, decode_jal _ _ even, Spec.Compressed.immJ,
    Spec.signed_signExtend 21 _ (by decide) (by decide) (by decide)]

theorem decode_cAddi16sp :
    Spec.decode (addi 2 2 (cAddi16spNzimm instr.data)) =
      some (.opImm .addi 2 2 (Spec.Compressed.immAddi16sp instr.low)) := by
  rw [data, cAddi16spNzimm_eq]
  refine (decode_addi 2 2 _).trans ?_
  rw [Spec.Compressed.immAddi16sp,
    Spec.signed_signExtend 12 _ (by decide) (by decide) (by decide)]

theorem decode_cLui :
    Spec.decode (lui instr.cRd (cLuiNzimm instr.data)) =
      some (.lui (Spec.Compressed.rd instr.low) (Spec.Compressed.immLui instr.low)) := by
  have aligned : ∀ index < 12, (Spec.Compressed.immLui instr.low).getLsbD index = false := by
    intro index inside
    simp only [Spec.Compressed.immLui, BitVec.getLsbD_signExtend, BitVec.getLsbD_append]
    simp [inside, show index < 18 by omega]
  rw [data, cRd_eq, cLuiNzimm_eq, decode_lui _ _ aligned]

theorem decode_cBeqz :
    Spec.decode (beq instr.cRdSmall 0 (cBranchImm instr.data)) =
      some (.branch .beq (Spec.Compressed.rdSmall instr.low) 0
        (Spec.Compressed.immB instr.low)) := by
  rw [data, cRdSmall_eq, cBranchImm_eq]
  refine (decode_beq _ 0 _ (even_signExtend _)).trans ?_
  rw [Spec.Compressed.immB, Spec.signed_signExtend 13 _ (by decide) (by decide) (by decide)]

theorem decode_cBnez :
    Spec.decode (InstructionFactory.bne instr.cRdSmall 0 (cBranchImm instr.data)) =
      some (.branch .bne (Spec.Compressed.rdSmall instr.low) 0
        (Spec.Compressed.immB instr.low)) := by
  rw [data, cRdSmall_eq, cBranchImm_eq]
  refine (decode_bne _ 0 _ (even_signExtend _)).trans ?_
  rw [Spec.Compressed.immB, Spec.signed_signExtend 13 _ (by decide) (by decide) (by decide)]

theorem decode_cLwsp :
    Spec.decode (lw instr.cRd 2 (cLwspUimm instr.data)) =
      some (.load .lw (Spec.Compressed.rd instr.low) 2 (Spec.Compressed.immLwsp instr.low)) := by
  rw [data, cRd_eq, cLwspUimm_eq]
  refine (decode_lw _ 2 _).trans ?_
  rw [Spec.Compressed.immLwsp, Spec.signed_zeroExtend 12 _ (by decide) (by decide)]

theorem decode_cSwsp :
    Spec.decode (sw 2 instr.cRs2 (cSwspUimm instr.data)) =
      some (.store .sw 2 (Spec.Compressed.rs2 instr.low) (Spec.Compressed.immSwsp instr.low)) := by
  rw [data, cRs2_eq, cSwspUimm_eq]
  refine (decode_sw 2 _ _).trans ?_
  rw [Spec.Compressed.immSwsp, Spec.signed_zeroExtend 12 _ (by decide) (by decide)]

/-- `C.JR` and `C.JALR` differ in the link register only. -/
theorem decode_cJalr (link : Spec.Register) :
    Spec.decode (jalr (link.setWidth 32) instr.cRd 0) =
      some (.jalr link (Spec.Compressed.rd instr.low) 0) := by
  rw [cRd_eq, decode_jalr, show Spec.signed 12 0 = 0 by decide]

theorem decode_cAdd :
    Spec.decode (add instr.cRd instr.cRd instr.cRs2) =
      some (.op .add (Spec.Compressed.rd instr.low) (Spec.Compressed.rd instr.low)
        (Spec.Compressed.rs2 instr.low)) := by
  rw [cRd_eq, cRs2_eq, decode_add]

theorem decode_cMv :
    Spec.decode (add instr.cRd 0 instr.cRs2) =
      some (.op .add (Spec.Compressed.rd instr.low) 0 (Spec.Compressed.rs2 instr.low)) := by
  rw [cRd_eq, cRs2_eq]
  exact decode_add _ 0 _

/-- The register-register expansions over the small registers. -/
theorem decode_cSub :
    Spec.decode (sub instr.cRdSmall instr.cRdSmall instr.cRs2Small) =
      some (.op .sub (Spec.Compressed.rdSmall instr.low) (Spec.Compressed.rdSmall instr.low)
        (Spec.Compressed.rs2Small instr.low)) := by
  rw [cRdSmall_eq, cRs2Small_eq, decode_sub]

theorem decode_cXor :
    Spec.decode (InstructionFactory.xor instr.cRdSmall instr.cRdSmall instr.cRs2Small) =
      some (.op .xor (Spec.Compressed.rdSmall instr.low) (Spec.Compressed.rdSmall instr.low)
        (Spec.Compressed.rs2Small instr.low)) := by
  rw [cRdSmall_eq, cRs2Small_eq, decode_xor]

theorem decode_cOr :
    Spec.decode (InstructionFactory.or instr.cRdSmall instr.cRdSmall instr.cRs2Small) =
      some (.op .or (Spec.Compressed.rdSmall instr.low) (Spec.Compressed.rdSmall instr.low)
        (Spec.Compressed.rs2Small instr.low)) := by
  rw [cRdSmall_eq, cRs2Small_eq, decode_or]

theorem decode_cAnd :
    Spec.decode (InstructionFactory.and instr.cRdSmall instr.cRdSmall instr.cRs2Small) =
      some (.op .and (Spec.Compressed.rdSmall instr.low) (Spec.Compressed.rdSmall instr.low)
        (Spec.Compressed.rs2Small instr.low)) := by
  rw [cRdSmall_eq, cRs2Small_eq, decode_and]

/-- The shifts accept an amount of five bits; bit 12 would be the sixth. -/
theorem decode_cSlli (small : Spec.Compressed.bit12 instr.low = 0) :
    Spec.decode (slli instr.cRd instr.cRd instr.cUimm) =
      some (.shift .slli (Spec.Compressed.rd instr.low) (Spec.Compressed.rd instr.low)
        (Spec.Compressed.shamt instr.low)) := by
  rw [cRd_eq, cUimm_of_small instr small, decode_slli]

theorem decode_cSrli (small : Spec.Compressed.bit12 instr.low = 0) :
    Spec.decode (srli instr.cRdSmall instr.cRdSmall instr.cUimm) =
      some (.shift .srli (Spec.Compressed.rdSmall instr.low) (Spec.Compressed.rdSmall instr.low)
        (Spec.Compressed.shamt instr.low)) := by
  rw [cRdSmall_eq, cUimm_of_small instr small, decode_srli]

theorem decode_cSrai (small : Spec.Compressed.bit12 instr.low = 0) :
    Spec.decode (srai instr.cRdSmall instr.cRdSmall instr.cUimm) =
      some (.shift .srai (Spec.Compressed.rdSmall instr.low) (Spec.Compressed.rdSmall instr.low)
        (Spec.Compressed.shamt instr.low)) := by
  rw [cRdSmall_eq, cUimm_of_small instr small, decode_srai]

end Expansions

/-! ## Classes -/

section Classes

open Compressed

variable (instr : Instruction)

/-- The expansion of quadrant zero conforms. -/
theorem conforms_quadrant0 :
    Conforms (Spec.Compressed.quadrant0 instr.low)
      (expandCompressed .rv32 instr (decodeQuadrant0 .rv32 instr)) := by
  rcases funct3_cases (Spec.Compressed.funct3 instr.low) with f | f | f | f | f | f | f | f
  · have spec : Spec.Compressed.quadrant0 instr.low =
        if Spec.Compressed.immAddi4spn instr.low = 0#32 then .reserved
        else .instr (.opImm .addi (Spec.Compressed.rs2Small instr.low) 2
          (Spec.Compressed.immAddi4spn instr.low)) := by
      simp +decide [Spec.Compressed.quadrant0, f]
    by_cases zero : Spec.Compressed.immAddi4spn instr.low = 0#32
    · rw [spec, if_pos zero]
      by_cases format : instr.cFormat = 0#32
      · simp +decide [decodeQuadrant0, cOpcode_eq, f, format, expandCompressed, Conforms]
      · simp +decide [decodeQuadrant0, cOpcode_eq, f, format, expandCompressed, Conforms, data,
          cAddi4spnNzuimm_eq, zero]
    · have format : instr.cFormat ≠ 0#32 := by
        intro format
        rw [(cFormat_eq_zero_iff instr).mp format] at zero
        exact zero (by decide)
      have code : decodeQuadrant0 .rv32 instr = cAddi4spn := by
        simp +decide [decodeQuadrant0, cOpcode_eq, f, format]
      have accepted : cAddi4spnNzuimm instr.data ≠ 0 := by
        rwa [data, cAddi4spnNzuimm_eq]
      rw [spec, if_neg zero, code, expandCompressed, if_neg accepted]
      exact conforms_instr (decode_cAddi4spn instr)
  · simp +decide [Spec.Compressed.quadrant0, f, Conforms]
  · have code : decodeQuadrant0 .rv32 instr = cLw := by
      simp +decide [decodeQuadrant0, cOpcode_eq, f]
    rw [code]
    simp +decide only [Spec.Compressed.quadrant0, f, if_true, if_false]
    exact conforms_instr (decode_cLw instr)
  · simp +decide [Spec.Compressed.quadrant0, f, Conforms]
  · simp +decide [decodeQuadrant0, Spec.Compressed.quadrant0, cOpcode_eq, f, Conforms,
      expandCompressed]
  · simp +decide [Spec.Compressed.quadrant0, f, Conforms]
  · have code : decodeQuadrant0 .rv32 instr = cSw := by
      simp +decide [decodeQuadrant0, cOpcode_eq, f]
    rw [code]
    simp +decide only [Spec.Compressed.quadrant0, f, if_true, if_false]
    exact conforms_instr (decode_cSw instr)
  · simp +decide [Spec.Compressed.quadrant0, f, Conforms]

/-- The `C.ADDI` row: the hints are those with a zero register or a zero immediate. -/
theorem conforms_addi (one : Spec.Compressed.op instr.low = 1)
    (f : Spec.Compressed.funct3 instr.low = 0) (notNop : instr.low ≠ 1) :
    Conforms (Spec.Compressed.quadrant1 instr.low)
      (expandCompressed .rv32 instr (decodeQuadrant1 .rv32 instr)) := by
  have format : instr.cFormat ≠ 1#32 := fun format => notNop ((cFormat_eq_one_iff instr).mp format)
  have code : decodeQuadrant1 .rv32 instr = cAddi := by
    simp +decide [decodeQuadrant1, cOpcode_eq, f, format]
  have packed := decode_cAddi instr
  rw [code, expandCompressed]
  simp +decide only [Spec.Compressed.quadrant1, f, if_true, if_false]
  by_cases register : Spec.Compressed.rd instr.low = 0
  · have immediate : Spec.Compressed.imm6 instr.low ≠ 0 :=
      fun immediate => notNop ((low_eq_one_iff _ one f).mpr ⟨register, immediate⟩)
    rw [if_pos register, if_neg immediate]
    rw [register] at packed
    exact conforms_hint packed (Spec.noEffect_opImm_zero _ _ _)
  · rw [if_neg register]
    by_cases immediate : Spec.Compressed.imm6 instr.low = 0
    · rw [if_pos immediate]
      rw [immediate] at packed
      exact conforms_hint packed (Spec.noEffect_addi_self _)
    · rw [if_neg immediate]
      exact conforms_instr packed

/-- The `C.LUI` row, with `C.ADDI16SP` in the place of `rd = 2`. -/
theorem conforms_lui (f : Spec.Compressed.funct3 instr.low = 3) :
    Conforms (Spec.Compressed.quadrant1 instr.low)
      (expandCompressed .rv32 instr (decodeQuadrant1 .rv32 instr)) := by
  by_cases stack : Spec.Compressed.rd instr.low = 2
  · have code : decodeQuadrant1 .rv32 instr = cAddi16sp := by
      simp +decide [decodeQuadrant1, cOpcode_eq, f, (cRd_eq_two_iff instr).mpr stack]
    rw [code, expandCompressed]
    simp +decide only [Spec.Compressed.quadrant1, f, if_true, if_false]
    rw [if_pos stack]
    by_cases zero : Spec.Compressed.immAddi16sp instr.low = 0
    · rw [if_pos zero, if_pos (by rwa [data, cAddi16spNzimm_eq])]
      exact rfl
    · rw [if_neg zero, if_neg (by rwa [data, cAddi16spNzimm_eq])]
      exact conforms_instr (decode_cAddi16sp instr)
  · have other : instr.cRd ≠ 2#32 := fun same => stack ((cRd_eq_two_iff instr).mp same)
    have code : decodeQuadrant1 .rv32 instr = cLui := by
      simp +decide [decodeQuadrant1, cOpcode_eq, f, other]
    have packed := decode_cLui instr
    rw [code, expandCompressed]
    simp +decide only [Spec.Compressed.quadrant1, f, if_true, if_false]
    rw [if_neg stack]
    by_cases zero : Spec.Compressed.immLui instr.low = 0
    · rw [if_pos zero, if_pos (by rwa [data, cLuiNzimm_eq])]
      exact rfl
    · have accepted : cLuiNzimm instr.data ≠ 0 := by
        rwa [data, cLuiNzimm_eq]
      rw [if_neg zero, if_neg accepted]
      by_cases register : Spec.Compressed.rd instr.low = 0
      · rw [if_pos register]
        rw [register] at packed
        exact conforms_hint packed (Spec.noEffect_lui_zero _)
      · rw [if_neg register]
        exact conforms_instr packed

theorem amount_fits (small : Spec.Compressed.bit12 instr.low = 0) :
    ¬(Architecture.rv32 = .rv32 ∧ 31 < instr.cUimm) := by
  rintro ⟨-, large⟩
  rw [(cUimm_large_iff instr).mp large] at small
  cases small

/-- A shift row: bit 12 makes it reserved, a zero amount makes it a hint. -/
theorem conforms_shift (kind : Spec.ShiftKind) (op : Mapping) (register : Spec.Register)
    (expanded : Instruction) (named : op = mnemonic (.shift kind register register 0))
    (packed : Spec.Compressed.bit12 instr.low = 0 →
      Spec.decode expanded =
        some (.shift kind register register (Spec.Compressed.shamt instr.low))) :
    Conforms
      (if Spec.Compressed.bit12 instr.low = 1 then .reserved
        else if Spec.Compressed.shamt instr.low = 0 then .hint
        else .instr (.shift kind register register (Spec.Compressed.shamt instr.low)))
      (if Architecture.rv32 = .rv32 ∧ 31 < instr.cUimm then (.undefined, instr)
        else (op, expanded)) := by
  rcases bit_cases (Spec.Compressed.bit12 instr.low) with small | large
  · have named' : op = mnemonic (.shift kind register register (Spec.Compressed.shamt instr.low)) := by
      cases kind <;> exact named
    rw [small, if_neg (by decide), if_neg (amount_fits instr small), named']
    by_cases zero : Spec.Compressed.shamt instr.low = 0
    · rw [if_pos zero]
      have packed' := packed small
      rw [zero] at packed' ⊢
      exact conforms_hint packed' (Spec.noEffect_shift_self _ _)
    · rw [if_neg zero]
      exact conforms_instr (packed small)
  · rw [if_pos large, if_pos ⟨rfl, (cUimm_large_iff instr).mpr large⟩]
    exact rfl

/-- A `C.SLLI` of `x0` is a hint, unless bit 12 makes it reserved. -/
theorem conforms_slli_zero (register : Spec.Compressed.rd instr.low = 0) :
    Conforms (if Spec.Compressed.bit12 instr.low = 1 then .reserved else .hint)
      (expandCompressed .rv32 instr cSlli) := by
  rw [expandCompressed]
  rcases bit_cases (Spec.Compressed.bit12 instr.low) with small | large
  · have packed := decode_cSlli instr small
    rw [register] at packed
    rw [small, if_neg (by decide), if_neg (amount_fits instr small)]
    exact conforms_hint packed (Spec.noEffect_shift_zero _ _ _)
  · rw [if_pos large, if_pos ⟨rfl, (cUimm_large_iff instr).mpr large⟩]
    exact rfl

/-- The two RV64 word operations, which are reserved on RV32. -/
def WordOperation (h : BitVec 16) : Prop :=
  Spec.Compressed.op h = 1 ∧ Spec.Compressed.funct3 h = 4 ∧ h.extractLsb' 10 2 = 3 ∧
    Spec.Compressed.bit12 h = 1 ∧ (h.extractLsb' 5 2 = 0 ∨ h.extractLsb' 5 2 = 1)

/-- The arithmetic row. -/
theorem conforms_arith (one : Spec.Compressed.op instr.low = 1)
    (f : Spec.Compressed.funct3 instr.low = 4) (narrow : ¬ WordOperation instr.low) :
    Conforms (Spec.Compressed.quadrant1Arith instr.low)
      (expandCompressed .rv32 instr (decodeQuadrant1Arith instr)) := by
  rcases funct2_cases (instr.low.extractLsb' 10 2) with high | high | high | high
  · have code : decodeQuadrant1Arith instr = cSrli := by
      simp +decide [decodeQuadrant1Arith, cF2High_eq, high]
    rw [code]
    simp +decide only [Spec.Compressed.quadrant1Arith, high, if_true, if_false]
    exact conforms_shift instr .srli .srli _ _ rfl (decode_cSrli instr)
  · have code : decodeQuadrant1Arith instr = cSrai := by
      simp +decide [decodeQuadrant1Arith, cF2High_eq, high]
    rw [code]
    simp +decide only [Spec.Compressed.quadrant1Arith, high, if_true, if_false]
    exact conforms_shift instr .srai .srai _ _ rfl (decode_cSrai instr)
  · have code : decodeQuadrant1Arith instr = cAndi := by
      simp +decide [decodeQuadrant1Arith, cF2High_eq, high]
    rw [code]
    simp +decide only [Spec.Compressed.quadrant1Arith, high, if_true, if_false]
    exact conforms_instr (decode_cAndi instr)
  · rcases bit_cases (Spec.Compressed.bit12 instr.low) with bit | bit
    · rcases funct2_cases (instr.low.extractLsb' 5 2) with f2 | f2 | f2 | f2
      · have code : decodeQuadrant1Arith instr = cSub := by
          simp +decide [decodeQuadrant1Arith, cF2High_eq, cF2Low_eq, cB12_eq, high, bit, f2]
        rw [code]
        simp +decide only [Spec.Compressed.quadrant1Arith, high, bit, f2, if_true, if_false]
        exact conforms_instr (decode_cSub instr)
      · have code : decodeQuadrant1Arith instr = cXor := by
          simp +decide [decodeQuadrant1Arith, cF2High_eq, cF2Low_eq, cB12_eq, high, bit, f2]
        rw [code]
        simp +decide only [Spec.Compressed.quadrant1Arith, high, bit, f2, if_true, if_false]
        exact conforms_instr (decode_cXor instr)
      · have code : decodeQuadrant1Arith instr = cOr := by
          simp +decide [decodeQuadrant1Arith, cF2High_eq, cF2Low_eq, cB12_eq, high, bit, f2]
        rw [code]
        simp +decide only [Spec.Compressed.quadrant1Arith, high, bit, f2, if_true, if_false]
        exact conforms_instr (decode_cOr instr)
      · have code : decodeQuadrant1Arith instr = cAnd := by
          simp +decide [decodeQuadrant1Arith, cF2High_eq, cF2Low_eq, cB12_eq, high, bit, f2]
        rw [code]
        simp +decide only [Spec.Compressed.quadrant1Arith, high, bit, f2, if_false]
        exact conforms_instr (decode_cAnd instr)
    · have reserved : decodeQuadrant1Arith instr = cReserved := by
        rcases funct2_cases (instr.low.extractLsb' 5 2) with f2 | f2 | f2 | f2
        · exact absurd ⟨one, f, high, bit, Or.inl f2⟩ narrow
        · exact absurd ⟨one, f, high, bit, Or.inr f2⟩ narrow
        · simp +decide [decodeQuadrant1Arith, cF2High_eq, cF2Low_eq, cB12_eq, high, bit, f2]
        · simp +decide [decodeQuadrant1Arith, cF2High_eq, cF2Low_eq, cB12_eq, high, bit, f2]
      rw [reserved]
      simp +decide only [Spec.Compressed.quadrant1Arith, high, bit, if_true, if_false]
      exact rfl

/-- The expansion of quadrant one conforms, apart from `C.NOP` and the word operations. -/
theorem conforms_quadrant1 (one : Spec.Compressed.op instr.low = 1) (notNop : instr.low ≠ 1)
    (narrow : ¬ WordOperation instr.low) :
    Conforms (Spec.Compressed.quadrant1 instr.low)
      (expandCompressed .rv32 instr (decodeQuadrant1 .rv32 instr)) := by
  rcases funct3_cases (Spec.Compressed.funct3 instr.low) with f | f | f | f | f | f | f | f
  · exact conforms_addi instr one f notNop
  · have code : decodeQuadrant1 .rv32 instr = cJal := by
      simp +decide [decodeQuadrant1, cOpcode_eq, f]
    rw [code]
    simp +decide only [Spec.Compressed.quadrant1, f, if_true, if_false]
    exact conforms_instr (decode_cJal instr 1)
  · have code : decodeQuadrant1 .rv32 instr = cLi := by
      simp +decide [decodeQuadrant1, cOpcode_eq, f]
    have packed := decode_cLi instr
    rw [code, expandCompressed]
    simp +decide only [Spec.Compressed.quadrant1, f, if_true, if_false]
    by_cases register : Spec.Compressed.rd instr.low = 0
    · rw [if_pos register]
      rw [register] at packed
      exact conforms_hint packed (Spec.noEffect_opImm_zero _ _ _)
    · rw [if_neg register]
      exact conforms_instr packed
  · exact conforms_lui instr f
  · have code : decodeQuadrant1 .rv32 instr = decodeQuadrant1Arith instr := by
      simp +decide [decodeQuadrant1, cOpcode_eq, f]
    rw [code]
    simp +decide only [Spec.Compressed.quadrant1, f, if_true, if_false]
    exact conforms_arith instr one f narrow
  · have code : decodeQuadrant1 .rv32 instr = cJ := by
      simp +decide [decodeQuadrant1, cOpcode_eq, f]
    rw [code]
    simp +decide only [Spec.Compressed.quadrant1, f, if_true, if_false]
    exact conforms_instr (decode_cJal instr 0)
  · have code : decodeQuadrant1 .rv32 instr = cBeqz := by
      simp +decide [decodeQuadrant1, cOpcode_eq, f]
    rw [code]
    simp +decide only [Spec.Compressed.quadrant1, f, if_true, if_false]
    exact conforms_instr (decode_cBeqz instr)
  · have code : decodeQuadrant1 .rv32 instr = cBnez := by
      simp +decide [decodeQuadrant1, cOpcode_eq, f]
    rw [code]
    simp +decide only [Spec.Compressed.quadrant1, f, if_false]
    exact conforms_instr (decode_cBnez instr)

/-- The `C.ADD` encodings with a zero destination and a nonzero source: hints. -/
def AddHint (h : BitVec 16) : Prop :=
  Spec.Compressed.op h = 2 ∧ Spec.Compressed.funct3 h = 4 ∧ Spec.Compressed.bit12 h = 1 ∧
    Spec.Compressed.rd h = 0 ∧ Spec.Compressed.rs2 h ≠ 0

/-- The jump, move and add row of quadrant two. -/
theorem conforms_move (two : Spec.Compressed.op instr.low = 2)
    (f : Spec.Compressed.funct3 instr.low = 4) (notHint : ¬ AddHint instr.low) :
    Conforms (Spec.Compressed.quadrant2 instr.low)
      (expandCompressed .rv32 instr (decodeQuadrant2 .rv32 instr)) := by
  have destination := cRd_eq_zero_iff instr
  have source := cRs2_eq_zero_iff instr
  rcases bit_cases (Spec.Compressed.bit12 instr.low) with bit | bit
  · by_cases zeroSource : Spec.Compressed.rs2 instr.low = 0
    · have code : decodeQuadrant2 .rv32 instr = cJr := by
        simp +decide [decodeQuadrant2, cOpcode_eq, cB12_eq, f, bit, source.mpr zeroSource]
      rw [code, expandCompressed]
      simp +decide only [Spec.Compressed.quadrant2, f, bit, zeroSource, if_true, if_false]
      by_cases zeroDestination : Spec.Compressed.rd instr.low = 0
      · rw [if_pos zeroDestination, if_pos (show instr.cRd = 0 from destination.mpr zeroDestination)]
        exact rfl
      · rw [if_neg zeroDestination,
          if_neg (show ¬ instr.cRd = 0 from mt destination.mp zeroDestination)]
        exact conforms_instr (decode_cJalr instr 0)
    · have code : decodeQuadrant2 .rv32 instr = cMv := by
        simp +decide [decodeQuadrant2, cOpcode_eq, cB12_eq, f, bit, mt source.mp zeroSource]
      have packed := decode_cMv instr
      rw [code, expandCompressed]
      simp +decide only [Spec.Compressed.quadrant2, f, bit, zeroSource, if_true, if_false]
      by_cases zeroDestination : Spec.Compressed.rd instr.low = 0
      · rw [if_pos zeroDestination]
        rw [zeroDestination] at packed
        exact conforms_hint packed (Spec.noEffect_op_zero _ _ _)
      · rw [if_neg zeroDestination]
        exact conforms_instr packed
  · by_cases zeroDestination : Spec.Compressed.rd instr.low = 0
    · have zeroSource : Spec.Compressed.rs2 instr.low = 0 := by
        by_contra operand
        exact notHint ⟨two, f, bit, zeroDestination, operand⟩
      have code : decodeQuadrant2 .rv32 instr = cEbreak := by
        simp +decide [decodeQuadrant2, cOpcode_eq, cB12_eq, f, bit, destination.mpr zeroDestination]
      rw [code]
      simp +decide only [Spec.Compressed.quadrant2, f, bit, zeroSource, zeroDestination, if_true,
        if_false]
      exact ⟨rfl, by decide⟩
    · by_cases zeroSource : Spec.Compressed.rs2 instr.low = 0
      · have code : decodeQuadrant2 .rv32 instr = cJalr := by
          simp +decide [decodeQuadrant2, cOpcode_eq, cB12_eq, f, bit, source.mpr zeroSource,
            mt destination.mp zeroDestination]
        rw [code]
        simp +decide only [Spec.Compressed.quadrant2, f, bit, zeroSource, zeroDestination, if_true,
          if_false]
        exact conforms_instr (decode_cJalr instr 1)
      · have code : decodeQuadrant2 .rv32 instr = cAdd := by
          simp +decide [decodeQuadrant2, cOpcode_eq, cB12_eq, f, bit, mt source.mp zeroSource,
            mt destination.mp zeroDestination]
        rw [code]
        simp +decide only [Spec.Compressed.quadrant2, f, bit, zeroSource, zeroDestination, if_true,
          if_false]
        exact conforms_instr (decode_cAdd instr)

/-- The expansion of quadrant two conforms, apart from the `C.ADD` hints. -/
theorem conforms_quadrant2 (two : Spec.Compressed.op instr.low = 2)
    (notHint : ¬ AddHint instr.low) :
    Conforms (Spec.Compressed.quadrant2 instr.low)
      (expandCompressed .rv32 instr (decodeQuadrant2 .rv32 instr)) := by
  have destination := cRd_eq_zero_iff instr
  rcases funct3_cases (Spec.Compressed.funct3 instr.low) with f | f | f | f | f | f | f | f
  · have code : decodeQuadrant2 .rv32 instr = cSlli := by
      simp +decide [decodeQuadrant2, cOpcode_eq, f]
    rw [code]
    simp +decide only [Spec.Compressed.quadrant2, f, if_true, if_false]
    by_cases register : Spec.Compressed.rd instr.low = 0
    · rw [if_pos (Or.inl register : _ ∨ Spec.Compressed.shamt instr.low = 0)]
      exact conforms_slli_zero instr register
    · simp only [register, false_or]
      exact conforms_shift instr .slli .slli _ _ rfl (decode_cSlli instr)
  · simp +decide [Spec.Compressed.quadrant2, f, Conforms]
  · have code : decodeQuadrant2 .rv32 instr = cLwsp := by
      simp +decide [decodeQuadrant2, cOpcode_eq, f]
    rw [code, expandCompressed]
    simp +decide only [Spec.Compressed.quadrant2, f, if_true, if_false]
    by_cases register : Spec.Compressed.rd instr.low = 0
    · rw [if_pos register, if_pos (show instr.cRd = 0 from destination.mpr register)]
      exact rfl
    · rw [if_neg register, if_neg (show ¬ instr.cRd = 0 from mt destination.mp register)]
      exact conforms_instr (decode_cLwsp instr)
  · simp +decide [Spec.Compressed.quadrant2, f, Conforms]
  · exact conforms_move instr two f notHint
  · simp +decide [Spec.Compressed.quadrant2, f, Conforms]
  · have code : decodeQuadrant2 .rv32 instr = cSwsp := by
      simp +decide [decodeQuadrant2, cOpcode_eq, f]
    rw [code]
    simp +decide only [Spec.Compressed.quadrant2, f, if_true, if_false]
    exact conforms_instr (decode_cSwsp instr)
  · simp +decide [Spec.Compressed.quadrant2, f, Conforms]

end Classes

/-! ## The low half word decides -/

section Low

variable {arch : Architecture} {first second : Instruction}

theorem bitSliceU_congr (same : first.low = second.low) (upper lower : Nat)
    (ordered : lower ≤ upper) (inside : upper < 16) :
    bitSliceU first upper lower = bitSliceU second upper lower := by
  rw [← bitSlice_eq_bitSliceU _ _ _ ordered (by omega),
    ← bitSlice_eq_bitSliceU _ _ _ ordered (by omega),
    bitSlice_eq_extract_low _ _ _ ordered inside, bitSlice_eq_extract_low _ _ _ ordered inside,
    same]

theorem cLdUimm_congr (same : first.low = second.low) : cLdUimm first = cLdUimm second := by
  simp (disch := decide) only [cLdUimm, bitSliceU_congr same]

theorem cSdspUimm_congr (same : first.low = second.low) : cSdspUimm first = cSdspUimm second := by
  simp (disch := decide) only [cSdspUimm, bitSliceU_congr same]

theorem cLdspUimm_congr (same : first.low = second.low) : cLdspUimm first = cLdspUimm second := by
  simp (disch := decide) only [cLdspUimm, bitSinglePNU, bitSingleP1U_eq_bitSliceU,
    bitSliceU_congr same]

/-- The class of a word is decided by its low half. -/
theorem decodeCompressed_congr (same : first.low = second.low) :
    decodeCompressed arch first = decodeCompressed arch second := by
  simp only [decodeCompressed, decodeQuadrant0, decodeQuadrant1, decodeQuadrant1Arith,
    decodeQuadrant2, quadrant_eq, cOpcode_eq, cFormat_eq, cRd_eq, cRs2_eq, cB12_eq, cF2High_eq,
    cF2Low_eq, same]

/-- So are the name and the packed word of its expansion. A refused word is left as it
was, upper half included. -/
theorem expandCompressed_congr (same : first.low = second.low) (cOp : Compressed) :
    (expandCompressed arch first cOp).1 = (expandCompressed arch second cOp).1 ∧
      ((expandCompressed arch first cOp).1 ≠ .undefined →
        (expandCompressed arch first cOp).2 = (expandCompressed arch second cOp).2) := by
  cases cOp <;>
    simp only [expandCompressed, data, cRd_eq, cRs2_eq, cRdSmall_eq, cRs2Small_eq, cImm_eq,
      cUimm_eq, cLwUimm_eq, cSwUimm, cSdUimm, cLdUimm_congr same, cSdspUimm_congr same,
      cLdspUimm_congr same, cAddi4spnNzuimm_eq, cJalImm_eq, cJImm, cAddi16spNzimm_eq,
      cLuiNzimm_eq, cBranchImm_eq, cLwspUimm_eq, cSwspUimm_eq, same, true_and] <;>
    (try split_ifs) <;> simp

end Low

/-! ## Conformance of the decoder -/

/-- The compressed decoder treats a word as the manual says: it returns, its answer is
decided by the low half word, and the answer conforms to the meaning of that half. -/
def FollowsManual (instr : Instruction) : Prop :=
  ∃ op expanded, decodeAndExpandCompressed .rv32 instr = .ok (op, expanded) ∧
    (∀ other : Instruction, other.low = instr.low →
      ∃ expanded', decodeAndExpandCompressed .rv32 other = .ok (op, expanded') ∧
        (op ≠ .undefined → expanded' = expanded)) ∧
    Conforms (Spec.Compressed.meaning instr.low) (op, expanded)

/-- The encodings the decoder gets wrong on RV32: `C.NOP` is packed as an `ADD`, the hints
of `C.ADD` are taken for `EBREAK`, and the word operations of RV64 are accepted. -/
def Deviates (h : BitVec 16) : Prop := h = 1 ∨ AddHint h ∨ WordOperation h

instance (h : BitVec 16) : Decidable (AddHint h) := inferInstanceAs (Decidable (_ ∧ _))

instance (h : BitVec 16) : Decidable (WordOperation h) := inferInstanceAs (Decidable (_ ∧ _))

instance (h : BitVec 16) : Decidable (Deviates h) := inferInstanceAs (Decidable (_ ∨ _))

section Manual

open Compressed

variable (instr : Instruction)

/-- The quadrant selects the same table on both sides. -/
theorem decodeCompressed_eq (compressed : instr.isCompressed = true) :
    (Spec.Compressed.op instr.low = 0 ∧
        decodeCompressed .rv32 instr = .ok (decodeQuadrant0 .rv32 instr)) ∨
      (Spec.Compressed.op instr.low = 1 ∧
        decodeCompressed .rv32 instr = .ok (decodeQuadrant1 .rv32 instr)) ∨
      (Spec.Compressed.op instr.low = 2 ∧
        decodeCompressed .rv32 instr = .ok (decodeQuadrant2 .rv32 instr)) := by
  rcases funct2_cases (Spec.Compressed.op instr.low) with q | q | q | q
  · exact Or.inl ⟨q, by simp +decide [decodeCompressed, quadrant_eq, q]⟩
  · exact Or.inr (Or.inl ⟨q, by simp +decide [decodeCompressed, quadrant_eq, q]⟩)
  · exact Or.inr (Or.inr ⟨q, by simp +decide [decodeCompressed, quadrant_eq, q]⟩)
  · rw [isCompressed, quadrant_eq, q] at compressed
    exact absurd compressed (by decide)

/-- Every compressed word is classified, and following the manual comes down to its
expansion. -/
theorem followsManual_iff (cOp : Compressed) (classified : decodeCompressed .rv32 instr = .ok cOp) :
    FollowsManual instr ↔
      Conforms (Spec.Compressed.meaning instr.low) (expandCompressed .rv32 instr cOp) := by
  have accepted : decodeAndExpandCompressed .rv32 instr = .ok (expandCompressed .rv32 instr cOp) :=
    decodeAndExpandCompressed_eq_ok_iff.mpr ⟨cOp, classified, rfl⟩
  constructor
  · rintro ⟨op, expanded, result, -, conforms⟩
    rw [accepted] at result
    rwa [Except.ok.inj result]
  · intro conforms
    refine ⟨(expandCompressed .rv32 instr cOp).1, (expandCompressed .rv32 instr cOp).2, accepted, ?_,
      conforms⟩
    intro other same
    obtain ⟨name, word⟩ := @expandCompressed_congr .rv32 _ _ same cOp
    have classified' : decodeCompressed .rv32 other = .ok cOp := by
      rw [decodeCompressed_congr same, classified]
    refine ⟨(expandCompressed .rv32 other cOp).2, ?_, ?_⟩
    · rw [decodeAndExpandCompressed_eq_ok_iff]
      exact ⟨cOp, classified', Prod.ext name rfl⟩
    · intro named
      exact word (by rwa [name])

/-- Off the deviating encodings every expansion conforms. -/
theorem followsManual_of_not_deviates (compressed : instr.isCompressed = true)
    (regular : ¬ Deviates instr.low) : FollowsManual instr := by
  have notNop : instr.low ≠ 1 := fun nop => regular (Or.inl nop)
  have notHint : ¬ AddHint instr.low := fun hint => regular (Or.inr (Or.inl hint))
  have narrow : ¬ WordOperation instr.low := fun word => regular (Or.inr (Or.inr word))
  rcases decodeCompressed_eq instr compressed with ⟨q, code⟩ | ⟨q, code⟩ | ⟨q, code⟩
  · rw [followsManual_iff instr _ code]
    simp +decide only [Spec.Compressed.meaning, q, if_true]
    exact conforms_quadrant0 instr
  · rw [followsManual_iff instr _ code]
    simp +decide only [Spec.Compressed.meaning, q, if_true, if_false]
    exact conforms_quadrant1 instr q notNop narrow
  · rw [followsManual_iff instr _ code]
    simp +decide only [Spec.Compressed.meaning, q, if_true, if_false]
    exact conforms_quadrant2 instr q notHint

/-- `C.NOP` is `ADDI x0, x0, 0` in the manual and `ADD x0, x0, x0` here. -/
theorem not_followsManual_nop (nop : instr.low = 1) : ¬ FollowsManual instr := by
  have classified : decodeCompressed .rv32 instr = .ok cNop := by
    rw [@decodeCompressed_congr .rv32 instr 1 nop]
    decide
  rw [followsManual_iff instr _ classified, nop]
  rintro ⟨name, -⟩
  cases name

/-- The hints of `C.ADD` become `EBREAK`, which has an effect. -/
theorem not_followsManual_addHint (hint : AddHint instr.low) : ¬ FollowsManual instr := by
  obtain ⟨two, f, bit, destination, source⟩ := hint
  have classified : decodeCompressed .rv32 instr = .ok cEbreak := by
    simp +decide [decodeCompressed, quadrant_eq, two, decodeQuadrant2, cOpcode_eq, f, cB12_eq, bit,
      (cRd_eq_zero_iff instr).mpr destination]
  have meaning : Spec.Compressed.meaning instr.low = .hint := by
    simp +decide [Spec.Compressed.meaning, two, Spec.Compressed.quadrant2, f, bit, destination]
    exact source
  rw [followsManual_iff instr _ classified, meaning]
  rintro ⟨i, -, packed, silent⟩
  have ebreak : i = .ebreak := (Option.some.inj packed).symm
  rw [ebreak] at silent
  exact Spec.not_noEffect_ebreak silent

/-- The word operations are accepted although they are reserved. -/
theorem not_followsManual_wordOperation (word : WordOperation instr.low) :
    ¬ FollowsManual instr := by
  obtain ⟨one, f, high, bit, operation⟩ := word
  have meaning : Spec.Compressed.meaning instr.low = .reserved := by
    simp +decide [Spec.Compressed.meaning, one, Spec.Compressed.quadrant1, f,
      Spec.Compressed.quadrant1Arith, high, bit]
  rcases operation with f2 | f2
  · have classified : decodeCompressed .rv32 instr = .ok cSubw := by
      simp +decide [decodeCompressed, quadrant_eq, one, decodeQuadrant1, cOpcode_eq, f,
        decodeQuadrant1Arith, cF2High_eq, high, cB12_eq, bit, cF2Low_eq, f2]
    rw [followsManual_iff instr _ classified, meaning]
    intro refused
    cases refused
  · have classified : decodeCompressed .rv32 instr = .ok cAddw := by
      simp +decide [decodeCompressed, quadrant_eq, one, decodeQuadrant1, cOpcode_eq, f,
        decodeQuadrant1Arith, cF2High_eq, high, cB12_eq, bit, cF2Low_eq, f2]
    rw [followsManual_iff instr _ classified, meaning]
    intro refused
    cases refused

end Manual

/-- On every compressed word the decoder follows the manual exactly when the half word is
neither `C.NOP`, nor a hint of `C.ADD`, nor one of the two word operations. -/
theorem followsManual_iff_not_deviates (instr : Instruction)
    (compressed : instr.isCompressed = true) : FollowsManual instr ↔ ¬ Deviates instr.low := by
  constructor
  · rintro follows (nop | hint | word)
    · exact not_followsManual_nop instr nop follows
    · exact not_followsManual_addHint instr hint follows
    · exact not_followsManual_wordOperation instr word follows
  · exact followsManual_of_not_deviates instr compressed

/-- `C.ADDI x1, 1` is treated as the manual says. -/
theorem followsManual_cAddi : FollowsManual 0x0085 :=
  (followsManual_iff_not_deviates 0x0085 (by decide)).mpr (by decide)

/-- The hint `C.ADD x0, x1` is decoded as `EBREAK`, so the decoder does not follow the
manual on it. -/
theorem not_followsManual_hint :
    decodeAndExpandCompressed .rv32 0x9006 = .ok (.ebreak, 0x00100073) ∧
      Spec.Compressed.meaning 0x9006 = .hint ∧ ¬ FollowsManual 0x9006 :=
  ⟨rfl, by decide, not_followsManual_addHint 0x9006 (by decide)⟩

end Instruction

end SymexVP
