import SymexVP.DecodeNormal

/-!
# The decoder is its table of masks and encodings

The nested switches of `decode_normal` compare function codes that are written
separately from the masks and encodings. This module shows that the two agree on
every word: the switches return an instruction exactly when the word has its
pattern, and no word has two patterns.

A word that has a pattern agrees with the pattern's encoding on every field the
mask covers, so each switch on such a field takes the branch that the encoding
itself would take. Conversely every branch ends in a comparison with the pattern
of the instruction it returns.
-/

namespace SymexVP.Instruction

open Opcode BitFields

/-- The word has the pattern: it agrees with the encoding on every bit of the mask. -/
def Matches (expected : Pattern) (instr : Instruction) : Prop :=
  instr &&& expected.mask = expected.encoding

instance (expected : Pattern) (instr : Instruction) : Decidable (Matches expected instr) :=
  inferInstanceAs (Decidable (_ = _))

section Fields

variable {instr : Instruction} {expected : Pattern}

/-- A word agrees with its pattern's encoding on every range the mask covers. -/
theorem bitRange_of_matches (upper lower : Nat) (matched : Matches expected instr)
    (covered : bitRange expected.mask upper lower = fieldMask 32 lower (upper - lower + 1)) :
    bitRange instr upper lower = bitRange expected.encoding upper lower := by
  have same : expected.mask &&& fieldMask 32 lower (upper - lower + 1) =
      fieldMask 32 lower (upper - lower + 1) := covered
  calc bitRange instr upper lower
      = instr &&& (expected.mask &&& fieldMask 32 lower (upper - lower + 1)) := by
        rw [same, bitRange]
    _ = (instr &&& expected.mask) &&& fieldMask 32 lower (upper - lower + 1) := by
        rw [BitVec.and_assoc]
    _ = bitRange expected.encoding upper lower := by
        rw [matched, bitRange]

/-- The major opcode of a word is the one of its pattern. -/
theorem opcode_of_matches (matched : Matches expected instr)
    (covered : bitRange expected.mask 6 0 = fieldMask 32 0 7) :
    instr.opcode = opcode expected.encoding :=
  bitRange_of_matches 6 0 matched covered

theorem funct2_of_matches (matched : Matches expected instr)
    (covered : bitRange expected.mask 26 25 = fieldMask 32 25 2) :
    instr.funct2 = funct2 expected.encoding := by
  rw [funct2, funct2, bitRange_of_matches 26 25 matched covered]

theorem funct3_of_matches (matched : Matches expected instr)
    (covered : bitRange expected.mask 14 12 = fieldMask 32 12 3) :
    instr.funct3 = funct3 expected.encoding := by
  rw [funct3, funct3, bitRange_of_matches 14 12 matched covered]

theorem funct5_of_matches (matched : Matches expected instr)
    (covered : bitRange expected.mask 31 27 = fieldMask 32 27 5) :
    instr.funct5 = funct5 expected.encoding := by
  rw [funct5, funct5, bitRange_of_matches 31 27 matched covered]

theorem funct6_of_matches (matched : Matches expected instr)
    (covered : bitRange expected.mask 31 26 = fieldMask 32 26 6) :
    instr.funct6 = funct6 expected.encoding := by
  rw [funct6, funct6, bitRange_of_matches 31 26 matched covered]

theorem funct7_of_matches (matched : Matches expected instr)
    (covered : bitRange expected.mask 31 25 = fieldMask 32 25 7) :
    instr.funct7 = funct7 expected.encoding := by
  rw [funct7, funct7, bitRange_of_matches 31 25 matched covered]

theorem funct12_of_matches (matched : Matches expected instr)
    (covered : bitRange expected.mask 31 20 = fieldMask 32 20 12) :
    instr.funct12 = funct12 expected.encoding := by
  rw [funct12, funct12, bitRange_of_matches 31 20 matched covered]

theorem rs2_of_matches (matched : Matches expected instr)
    (covered : bitRange expected.mask 24 20 = fieldMask 32 20 5) :
    instr.rs2 = rs2 expected.encoding := by
  rw [rs2, rs2, bitRange_of_matches 24 20 matched covered]

/-- `SFENCE.VMA` leaves the low five bits of `funct12` free, so its `funct12` is not
determined. It still differs from every code whose upper seven bits differ. -/
theorem funct12_ne_of_matches (key : BitVec 32) (matched : Matches expected instr)
    (covered : bitRange expected.mask 31 25 = fieldMask 32 25 7)
    (different : funct7 expected.encoding ≠ key >>> 5) :
    instr.funct12 ≠ key := by
  intro same
  apply different
  rw [← same, ← funct7_of_matches matched covered]
  apply BitVec.eq_of_getLsbD_eq
  intro index inside
  simp only [funct7, funct12, bitRange, BitVec.getLsbD_ushiftRight, BitVec.getLsbD_and]
  rw [getLsbD_fieldMask _ _ _ (by decide), getLsbD_fieldMask _ _ _ (by decide),
    show 20 + (5 + index) = 25 + index by omega]
  simp [show 20 ≤ 25 + index by omega]

end Fields

/-- The immediate shifts: the only instructions with a pattern of their own on RV32. -/
def shiftOps : List Mapping := [.slli, .srli, .srai]

theorem patternFor_eq_pattern (arch : Architecture) (op : Mapping) (unshifted : op ∉ shiftOps) :
    patternFor arch op = pattern op := by
  unfold patternFor
  split
  · cases op <;> first | rfl | exact absurd (by decide) unshifted
  · rfl

/-! ## Every pattern is reached -/

section Complete

variable {instr : Instruction} {op : Mapping}

/-- The final comparison of a switch accepts a word that has the pattern. -/
theorem matchAndReturn2_of_matches {expected : Pattern} (matched : Matches expected instr) :
    matchAndReturn2 instr expected op = op :=
  if_neg (not_not_intro matched)

theorem matchAndReturn_of_matches (matched : Matches (pattern op) instr) :
    matchAndReturn instr op = op :=
  matchAndReturn2_of_matches matched

/-! The groups of the outer switch. In each of them a word that has a member's
pattern drives every inner switch to that member: all the function codes the
group compares are decided by the encoding. -/

def branchOps : List Mapping := [.beq, .bne, .blt, .bge, .bltu, .bgeu]

theorem decodeBranch_of_matches (member : op ∈ branchOps) (matched : Matches (pattern op) instr) :
    decodeBranch instr = op := by
  fin_cases member <;>
    simp +decide [decodeBranch, funct3_of_matches matched, matchAndReturn_of_matches matched]

def loadOps : List Mapping := [.lb, .lh, .lw, .lbu, .lhu, .lwu, .ld]

theorem decodeLoad_of_matches (member : op ∈ loadOps) (matched : Matches (pattern op) instr) :
    decodeLoad instr = op := by
  fin_cases member <;>
    simp +decide [decodeLoad, funct3_of_matches matched, matchAndReturn_of_matches matched]

def storeOps : List Mapping := [.sb, .sh, .sw, .sd]

theorem decodeStore_of_matches (member : op ∈ storeOps) (matched : Matches (pattern op) instr) :
    decodeStore instr = op := by
  fin_cases member <;>
    simp +decide [decodeStore, funct3_of_matches matched, matchAndReturn_of_matches matched]

def opImmOps : List Mapping := [.addi, .slti, .sltiu, .xori, .ori, .andi, .slli, .srli, .srai]

theorem decodeOpImm_of_matches (arch : Architecture) (member : op ∈ opImmOps)
    (matched : Matches (patternFor arch op) instr) :
    decodeOpImm arch instr = op := by
  by_cases narrow : arch = .rv32
  · simp only [patternFor, narrow, if_true] at matched
    have final := @matchAndReturn2_of_matches instr op _ matched
    fin_cases member <;>
      simp +decide [decodeOpImm, narrow, matchAndReturn, funct3_of_matches matched,
        funct6_of_matches matched] <;>
      exact final
  · simp only [patternFor, narrow, if_false] at matched
    fin_cases member <;>
      simp +decide [decodeOpImm, narrow, funct3_of_matches matched, funct6_of_matches matched,
        matchAndReturn_of_matches matched]

def opImmWOps : List Mapping := [.addiw, .slliw, .srliw, .sraiw]

theorem decodeOpImmW_of_matches (member : op ∈ opImmWOps) (matched : Matches (pattern op) instr) :
    decodeOpImmW instr = op := by
  fin_cases member <;>
    simp +decide [decodeOpImmW, funct3_of_matches matched, funct7_of_matches matched,
      matchAndReturn_of_matches matched]

def opOps : List Mapping :=
  [.add, .sll, .slt, .sltu, .xor, .srl, .or, .and, .sub, .sra, .mul, .mulh, .mulhsu, .mulhu,
   .div, .divu, .rem, .remu]

theorem decodeOp_of_matches (member : op ∈ opOps) (matched : Matches (pattern op) instr) :
    decodeOp instr = op := by
  fin_cases member <;>
    simp +decide [decodeOp, funct3_of_matches matched, funct7_of_matches matched,
      matchAndReturn_of_matches matched]

def opWOps : List Mapping :=
  [.addw, .sllw, .srlw, .subw, .sraw, .mulw, .divw, .divuw, .remw, .remuw]

theorem decodeOpW_of_matches (member : op ∈ opWOps) (matched : Matches (pattern op) instr) :
    decodeOpW instr = op := by
  fin_cases member <;>
    simp +decide [decodeOpW, funct3_of_matches matched, funct7_of_matches matched,
      matchAndReturn_of_matches matched]

def fenceOps : List Mapping := [.fence, .fenceI]

theorem decodeFence_of_matches (member : op ∈ fenceOps) (matched : Matches (pattern op) instr) :
    decodeFence instr = op := by
  fin_cases member <;>
    simp +decide [decodeFence, funct3_of_matches matched, matchAndReturn_of_matches matched]

def systemOps : List Mapping :=
  [.ecall, .ebreak, .uret, .sret, .mret, .wfi, .sfenceVma, .csrrw, .csrrs, .csrrc, .csrrwi,
   .csrrsi, .csrrci]

theorem decodeSystem_of_matches (member : op ∈ systemOps) (matched : Matches (pattern op) instr) :
    decodeSystem instr = op := by
  fin_cases member <;>
    simp +decide [decodeSystem, funct3_of_matches matched, funct12_of_matches matched,
      funct12_ne_of_matches _ matched, matchAndReturn_of_matches matched]

def amoOps : List Mapping :=
  [.lrD, .lrW, .scD, .scW, .amoswapD, .amoswapW, .amoaddD, .amoaddW, .amoxorD, .amoxorW,
   .amoandD, .amoandW, .amoorD, .amoorW, .amominD, .amominW, .amomaxD, .amomaxW, .amominuD,
   .amominuW, .amomaxuD, .amomaxuW]

theorem decodeAmo_of_matches (member : op ∈ amoOps) (matched : Matches (pattern op) instr) :
    decodeAmo instr = op := by
  fin_cases member <;>
    simp +decide [decodeAmo, funct3_of_matches matched, funct5_of_matches matched,
      matchAndReturn_of_matches matched]

def fmaddOps : List Mapping := [.fmaddS, .fmaddD]

theorem decodeFmadd_of_matches (member : op ∈ fmaddOps) (matched : Matches (pattern op) instr) :
    decodeFmadd instr = op := by
  fin_cases member <;>
    simp +decide [decodeFmadd, funct2_of_matches matched, matchAndReturn_of_matches matched]

def opFpOps : List Mapping :=
  [.faddS, .faddD, .fsubS, .fsubD, .fcvtDS, .fmulS, .fmulD, .fdivS, .fdivD, .fleS, .fltS,
   .feqS, .fsgnjD, .fsgnjnD, .fsgnjxD, .fminS, .fmaxS, .fminD, .fmaxD, .fcvtSD, .fsgnjS,
   .fsgnjnS, .fsgnjxS, .fleD, .fltD, .feqD, .fcvtSW, .fcvtSWu, .fcvtSL, .fcvtSLu, .fcvtDW,
   .fcvtDWu, .fcvtDL, .fcvtDLu, .fcvtWD, .fcvtWuD, .fcvtLD, .fcvtLuD, .fsqrtS, .fsqrtD,
   .fcvtWS, .fcvtWuS, .fcvtLS, .fcvtLuS, .fmvXW, .fclassS, .fmvXD, .fclassD, .fmvWX, .fmvDX]

theorem decodeOpFp_of_matches (member : op ∈ opFpOps) (matched : Matches (pattern op) instr) :
    decodeOpFp instr = op := by
  fin_cases member <;>
    simp +decide [decodeOpFp, funct3_of_matches matched, funct7_of_matches matched,
      rs2_of_matches matched, matchAndReturn_of_matches matched]

def loadFpOps : List Mapping := [.flw, .fld]

theorem decodeLoadFp_of_matches (member : op ∈ loadFpOps) (matched : Matches (pattern op) instr) :
    decodeLoadFp instr = op := by
  fin_cases member <;>
    simp +decide [decodeLoadFp, funct3_of_matches matched, matchAndReturn_of_matches matched]

def storeFpOps : List Mapping := [.fsw, .fsd]

theorem decodeStoreFp_of_matches (member : op ∈ storeFpOps) (matched : Matches (pattern op) instr) :
    decodeStoreFp instr = op := by
  fin_cases member <;>
    simp +decide [decodeStoreFp, funct3_of_matches matched, matchAndReturn_of_matches matched]

def fmsubOps : List Mapping := [.fmsubS, .fmsubD]

theorem decodeFmsub_of_matches (member : op ∈ fmsubOps) (matched : Matches (pattern op) instr) :
    decodeFmsub instr = op := by
  fin_cases member <;>
    simp +decide [decodeFmsub, funct2_of_matches matched, matchAndReturn_of_matches matched]

def fnmsubOps : List Mapping := [.fnmsubS, .fnmsubD]

theorem decodeFnmsub_of_matches (member : op ∈ fnmsubOps) (matched : Matches (pattern op) instr) :
    decodeFnmsub instr = op := by
  fin_cases member <;>
    simp +decide [decodeFnmsub, funct2_of_matches matched, matchAndReturn_of_matches matched]

def fnmaddOps : List Mapping := [.fnmaddS, .fnmaddD]

theorem decodeFnmadd_of_matches (member : op ∈ fnmaddOps) (matched : Matches (pattern op) instr) :
    decodeFnmadd instr = op := by
  fin_cases member <;>
    simp +decide [decodeFnmadd, funct2_of_matches matched, matchAndReturn_of_matches matched]

/-- A word that has the pattern of a group's member has the group's major opcode. -/
theorem opcode_of_member (arch : Architecture) (group : List Mapping) (key : BitVec 32)
    (consistent : ∀ op ∈ group, ∀ expected ∈ [pattern op, pattern32 op],
      bitRange expected.mask 6 0 = fieldMask 32 0 7 ∧ opcode expected.encoding = key)
    (member : op ∈ group) (matched : Matches (patternFor arch op) instr) :
    instr.opcode = key := by
  have listed : patternFor arch op ∈ [pattern op, pattern32 op] := by
    unfold patternFor
    split <;> simp
  obtain ⟨covered, encoded⟩ := consistent op member _ listed
  rw [opcode_of_matches matched covered, encoded]

/-- The outer switch: four instructions of their own, and the groups. -/
theorem mapping_cases (op : Mapping) :
    op = .undefined ∨ op ∈ opImmOps ∨ op ∈ [.lui, .auipc, .jal, .jalr] ∨
      op ∈ branchOps ∨ op ∈ loadOps ∨ op ∈ storeOps ∨ op ∈ opImmWOps ∨ op ∈ opOps ∨ op ∈
      opWOps ∨ op ∈ fenceOps ∨ op ∈ systemOps ∨ op ∈ amoOps ∨ op ∈ fmaddOps ∨ op ∈ opFpOps ∨
      op ∈ loadFpOps ∨ op ∈ storeFpOps ∨ op ∈ fmsubOps ∨ op ∈ fnmsubOps ∨ op ∈ fnmaddOps := by
  cases op <;> decide

/-- A word that has an instruction's pattern is decoded as that instruction. -/
theorem decodeNormal_of_matches (arch : Architecture) (named : op ≠ .undefined)
    (matched : Matches (patternFor arch op) instr) : decodeNormal arch instr = op := by
  by_cases immediate : op ∈ opImmOps
  · have major := opcode_of_member arch opImmOps opAddi (by decide) immediate matched
    simp +decide [decodeNormal, major, decodeOpImm_of_matches arch immediate matched]
  have unshifted : op ∉ shiftOps :=
    fun member => immediate ((by decide : shiftOps ⊆ opImmOps) member)
  have plain : Matches (pattern op) instr := by
    rwa [patternFor_eq_pattern arch op unshifted] at matched
  rcases mapping_cases op with absent | member | member |
    member | member | member | member | member | member | member | member | member | member
    | member | member | member | member | member | member
  · exact absurd absent named
  · exact absurd member immediate
  · fin_cases member <;>
      simp +decide [decodeNormal, opcode_of_matches plain, matchAndReturn_of_matches plain]
  · have major := opcode_of_member arch branchOps opBeq (by decide) member matched
    simp +decide [decodeNormal, major, decodeBranch_of_matches member plain]
  · have major := opcode_of_member arch loadOps opLb (by decide) member matched
    simp +decide [decodeNormal, major, decodeLoad_of_matches member plain]
  · have major := opcode_of_member arch storeOps opSb (by decide) member matched
    simp +decide [decodeNormal, major, decodeStore_of_matches member plain]
  · have major := opcode_of_member arch opImmWOps opAddiw (by decide) member matched
    simp +decide [decodeNormal, major, decodeOpImmW_of_matches member plain]
  · have major := opcode_of_member arch opOps opAdd (by decide) member matched
    simp +decide [decodeNormal, major, decodeOp_of_matches member plain]
  · have major := opcode_of_member arch opWOps opAddw (by decide) member matched
    simp +decide [decodeNormal, major, decodeOpW_of_matches member plain]
  · have major := opcode_of_member arch fenceOps opFence (by decide) member matched
    simp +decide [decodeNormal, major, decodeFence_of_matches member plain]
  · have major := opcode_of_member arch systemOps opEcall (by decide) member matched
    simp +decide [decodeNormal, major, decodeSystem_of_matches member plain]
  · have major := opcode_of_member arch amoOps opAmo (by decide) member matched
    simp +decide [decodeNormal, major, decodeAmo_of_matches member plain]
  · have major := opcode_of_member arch fmaddOps opFmaddS (by decide) member matched
    simp +decide [decodeNormal, major, decodeFmadd_of_matches member plain]
  · have major := opcode_of_member arch opFpOps opFaddS (by decide) member matched
    simp +decide [decodeNormal, major, decodeOpFp_of_matches member plain]
  · have major := opcode_of_member arch loadFpOps opFlw (by decide) member matched
    simp +decide [decodeNormal, major, decodeLoadFp_of_matches member plain]
  · have major := opcode_of_member arch storeFpOps opFsw (by decide) member matched
    simp +decide [decodeNormal, major, decodeStoreFp_of_matches member plain]
  · have major := opcode_of_member arch fmsubOps opFmsubS (by decide) member matched
    simp +decide [decodeNormal, major, decodeFmsub_of_matches member plain]
  · have major := opcode_of_member arch fnmsubOps opFnmsubS (by decide) member matched
    simp +decide [decodeNormal, major, decodeFnmsub_of_matches member plain]
  · have major := opcode_of_member arch fnmaddOps opFnmaddS (by decide) member matched
    simp +decide [decodeNormal, major, decodeFnmadd_of_matches member plain]

end Complete

/-! ## Only patterns are returned -/

/-- Every branch ends in a comparison with the pattern of the instruction it returns. -/
def Checked (arch : Architecture) (instr : Instruction) (result : Mapping) : Prop :=
  result ≠ .undefined → Matches (patternFor arch result) instr

section Checked

variable {arch : Architecture} {instr : Instruction}

theorem checked_undefined : Checked arch instr .undefined :=
  fun named => absurd rfl named

theorem checked_ite {condition : Prop} [Decidable condition] {left right : Mapping}
    (first : Checked arch instr left) (second : Checked arch instr right) :
    Checked arch instr (if condition then left else right) := by
  split
  · exact first
  · exact second

theorem checked_matchAndReturn2 {op : Mapping} {expected : Pattern}
    (own : expected = patternFor arch op) :
    Checked arch instr (matchAndReturn2 instr expected op) := by
  intro named
  rw [matchAndReturn2] at named ⊢
  split at named
  · exact absurd rfl named
  · rename_i matched
    rw [if_neg matched, ← own]
    exact not_not.mp matched

theorem checked_matchAndReturn {op : Mapping} (unshifted : op ∉ shiftOps) :
    Checked arch instr (matchAndReturn instr op) :=
  checked_matchAndReturn2 (patternFor_eq_pattern arch op unshifted).symm

/-- The immediate shifts compare with the pattern of the architecture. -/
theorem checked_shift {op : Mapping} :
    Checked arch instr (if arch = .rv32 then matchAndReturn2 instr (pattern32 op) op
      else matchAndReturn instr op) := by
  by_cases narrow : arch = .rv32
  · rw [if_pos narrow]
    exact checked_matchAndReturn2 (by rw [patternFor, if_pos narrow])
  · rw [if_neg narrow]
    exact checked_matchAndReturn2 (by rw [patternFor, if_neg narrow])

/-- Whatever the switches select has been compared with its own pattern. -/
theorem checked_decodeNormal (arch : Architecture) (instr : Instruction) :
    Checked arch instr (decodeNormal arch instr) := by
  unfold decodeNormal decodeBranch decodeLoad decodeStore decodeOpImm decodeOpImmW decodeOp decodeOpW
    decodeFence decodeSystem decodeAmo decodeFmadd decodeOpFp decodeLoadFp decodeStoreFp decodeFmsub
    decodeFnmsub decodeFnmadd
  with_reducible
    repeat' first
      | exact checked_undefined
      | exact checked_shift
      | apply checked_matchAndReturn
      | apply checked_ite
  all_goals decide

end Checked

/-! ## Agreement -/

/-- Two different instructions never have patterns that one word satisfies: the
decoder returns both. -/
theorem pattern_unique (arch : Architecture) (instr : Instruction) {first second : Mapping}
    (firstNamed : first ≠ .undefined) (secondNamed : second ≠ .undefined)
    (firstMatched : Matches (patternFor arch first) instr)
    (secondMatched : Matches (patternFor arch second) instr) : first = second := by
  rw [← decodeNormal_of_matches arch firstNamed firstMatched,
    decodeNormal_of_matches arch secondNamed secondMatched]

/-- `decode_normal` is its table: on every architecture and every word it returns an
instruction exactly when the word has that instruction's pattern, and at most one
pattern fits. -/
theorem decodeNormal_eq_iff_matches (arch : Architecture) (instr : Instruction) (op : Mapping)
    (named : op ≠ .undefined) :
    (decodeNormal arch instr = op ↔ Matches (patternFor arch op) instr) ∧
      ∀ other, other ≠ .undefined → Matches (patternFor arch op) instr →
        Matches (patternFor arch other) instr → other = op := by
  refine ⟨⟨?_, decodeNormal_of_matches arch named⟩, ?_⟩
  · rintro rfl
    exact checked_decodeNormal arch instr named
  · intro other otherNamed matched otherMatched
    exact pattern_unique arch instr otherNamed named otherMatched matched

/-- On RV32 the word `0x00311093` is decoded as `SLLI`, through the five-bit pattern. -/
theorem decodeNormal_slli : decodeNormal .rv32 0x00311093 = .slli :=
  (decodeNormal_eq_iff_matches .rv32 0x00311093 .slli (by decide)).1.mpr (by decide)

end SymexVP.Instruction
