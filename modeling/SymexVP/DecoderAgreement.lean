import SymexVP.MaskTable
import SymexVP.DecodeCompressed

/-!
# The two decoders agree

`expand_compressed` names the base instruction and packs its word by two separate
statements. The word is right when the uncompressed decoder reads the same name
back. Each encoder places its operands outside the positions its instruction's
mask selects, so the packed word has the pattern of the name, and the table
theorem does the rest.

One expansion packs the word of another instruction: on RV64 `C.ADDIW` returns
`ADDIW` over a word made by the `ADDI` encoder. The agreement holds on every other
word, and there only.
-/

namespace SymexVP

open Opcode BitFields

/-! ## Encoders produce their own pattern -/

namespace InstructionFactory

open Instruction

variable {op : Mapping}

/-- Register-register words: the mask leaves out the three registers. -/
theorem matches_rFormat (opcode funct3 funct7 rd rs1 rs2 : BitVec 32)
    (masked : (pattern op).mask = 0xfe00707f)
    (encoded : (opcode ||| funct3 <<< 12 ||| funct7 <<< 25) &&& 0xfe00707f =
      (pattern op).encoding) :
    Matches (pattern op) (rFormat opcode funct3 funct7 rd rs1 rs2) := by
  rw [Matches, masked, ← encoded]
  simp only [rFormat, BitVec.and_or_distrib_right]
  rw [shiftLeft_and_eq_zero rd _ _ _ (by decide), shiftLeft_and_eq_zero rs1 _ _ _ (by decide),
    shiftLeft_and_eq_zero rs2 _ _ _ (by decide)]
  simp only [BitVec.zero_or]

/-- Words with a twelve-bit immediate. -/
theorem matches_iFormat (opcode funct3 rd rs1 iImm : BitVec 32)
    (masked : (pattern op).mask = 0x0000707f)
    (encoded : (opcode ||| funct3 <<< 12) &&& 0x0000707f = (pattern op).encoding) :
    Matches (pattern op) (iFormat opcode funct3 rd rs1 iImm) := by
  rw [Matches, masked, ← encoded]
  simp only [iFormat, BitVec.and_or_distrib_right]
  rw [shiftLeft_and_eq_zero iImm _ _ _ (by decide), shiftLeft_and_eq_zero rd _ _ _ (by decide),
    shiftLeft_and_eq_zero rs1 _ _ _ (by decide)]
  simp only [BitVec.zero_or]

/-- Store words. -/
theorem matches_sFormat (opcode funct3 rs1 rs2 sImm : BitVec 32)
    (masked : (pattern op).mask = 0x0000707f)
    (encoded : (opcode ||| funct3 <<< 12) &&& 0x0000707f = (pattern op).encoding) :
    Matches (pattern op) (sFormat opcode funct3 rs1 rs2 sImm) := by
  rw [Matches, masked, ← encoded]
  simp only [sFormat, BitVec.and_or_distrib_right]
  rw [shiftLeft_and_eq_zero sImm _ _ _ (by decide), shiftLeft_and_eq_zero sImm _ _ _ (by decide),
    shiftLeft_and_eq_zero rs1 _ _ _ (by decide), shiftLeft_and_eq_zero rs2 _ _ _ (by decide)]
  simp only [BitVec.zero_or]

/-- Branch words. One bit of the immediate moves down instead of up. -/
theorem matches_bFormat (funct3 rs1 rs2 bImm : BitVec 32)
    (masked : (pattern op).mask = 0x0000707f)
    (encoded : (99#32 ||| funct3 <<< 12) &&& 0x0000707f = (pattern op).encoding) :
    Matches (pattern op) (bFormat funct3 rs1 rs2 bImm) := by
  rw [Matches, masked, ← encoded]
  simp only [bFormat, BitVec.and_or_distrib_right]
  rw [shiftLeft_and_eq_zero bImm 0b11110 _ _ (by decide),
    sshiftRight_and_eq_zero bImm (1#32 <<< 11) _ _ (by decide) (by decide),
    shiftLeft_and_eq_zero bImm (0b111111#32 <<< 5) _ _ (by decide),
    shiftLeft_and_eq_zero bImm (1#32 <<< 12) _ _ (by decide),
    shiftLeft_and_eq_zero rs1 _ _ _ (by decide), shiftLeft_and_eq_zero rs2 _ _ _ (by decide)]
  simp only [BitVec.zero_or]

/-- Upper-immediate words. -/
theorem matches_lui (rd uImm : BitVec 32) : Matches (pattern .lui) (lui rd uImm) := by
  have operand : uImm &&& (1048575#32 <<< 12) &&& 0x7f = 0#32 := by
    rw [BitVec.and_assoc, show (1048575#32 <<< 12) &&& 0x7f = 0#32 by decide, BitVec.and_zero]
  change lui rd uImm &&& 0x7f = 0x37
  simp only [lui, BitVec.and_or_distrib_right]
  rw [operand, shiftLeft_and_eq_zero rd _ _ _ (by decide)]
  decide

/-- Jump words. -/
theorem matches_jal (rd jImm : BitVec 32) : Matches (pattern .jal) (jal rd jImm) := by
  have operand : jImm &&& (0b11111111#32 <<< 12) &&& 0x7f = 0#32 := by
    rw [BitVec.and_assoc, show (0b11111111#32 <<< 12) &&& 0x7f = 0#32 by decide, BitVec.and_zero]
  change jal rd jImm &&& 0x7f = 0x6f
  simp only [jal, BitVec.and_or_distrib_right]
  rw [operand, shiftLeft_and_eq_zero rd _ _ _ (by decide),
    shiftLeft_and_eq_zero jImm (1#32 <<< 11) _ _ (by decide),
    shiftLeft_and_eq_zero jImm 0b11111111110 _ _ (by decide),
    shiftLeft_and_eq_zero jImm (1#32 <<< 20) _ _ (by decide)]
  decide

/-- Immediate shifts: the mask of the wide architectures leaves out six bits of amount. -/
theorem matches_shiftFormat (funct3 funct7 rd rs1 shamt : BitVec 32)
    (masked : (pattern op).mask = 0xfc00707f)
    (encoded : (19#32 ||| funct3 <<< 12 ||| funct7 <<< 25) &&& 0xfc00707f = (pattern op).encoding) :
    Matches (pattern op) (shiftFormat funct3 funct7 rd rs1 shamt) := by
  rw [Matches, masked, ← encoded]
  simp only [shiftFormat, BitVec.and_or_distrib_right]
  rw [shiftLeft_and_eq_zero rd _ _ _ (by decide), shiftLeft_and_eq_zero rs1 _ _ _ (by decide),
    shiftLeft_and_eq_zero shamt _ _ _ (by decide)]
  simp only [BitVec.zero_or]

/-- The mask of RV32 leaves out five bits only, enough for an amount below 32. -/
theorem matches_shiftFormat32 (funct3 funct7 rd rs1 shamt : BitVec 32) (small : ¬ 31 < shamt)
    (masked : (pattern32 op).mask = 0xfe00707f)
    (encoded : (19#32 ||| funct3 <<< 12 ||| funct7 <<< 25) &&& 0xfe00707f =
      (pattern32 op).encoding) :
    Matches (pattern32 op) (shiftFormat funct3 funct7 rd rs1 shamt) := by
  have amount : shamt &&& 63 = shamt &&& 0x1f := by
    have bound : shamt.toNat ≤ 31 := by
      simpa [BitVec.lt_def] using small
    apply BitVec.eq_of_toNat_eq
    rw [BitVec.toNat_and, BitVec.toNat_and]
    exact (Nat.and_two_pow_sub_one_eq_mod _ 6).trans (by
      rw [show (0x1f : BitVec 32).toNat = 2 ^ 5 - 1 by decide, Nat.and_two_pow_sub_one_eq_mod]; omega)
  rw [Matches, masked, ← encoded]
  simp only [shiftFormat, BitVec.and_or_distrib_right, amount]
  rw [shiftLeft_and_eq_zero rd _ _ _ (by decide), shiftLeft_and_eq_zero rs1 _ _ _ (by decide),
    shiftLeft_and_eq_zero shamt _ _ _ (by decide)]
  simp only [BitVec.zero_or]

end InstructionFactory

/-! ## Expansions -/

namespace Instruction

open InstructionFactory Compressed

variable {arch : Architecture} {instr : Instruction}

/-- A shift expansion accepts only amounts its architecture can hold. -/
theorem matches_shift (op : Mapping) (funct3 funct7 rd rs1 shamt : BitVec 32)
    (small : ¬(arch = .rv32 ∧ 31 < shamt))
    (masks : (pattern op).mask = 0xfc00707f ∧ (pattern32 op).mask = 0xfe00707f)
    (encodings : (19#32 ||| funct3 <<< 12 ||| funct7 <<< 25) &&& 0xfc00707f = (pattern op).encoding ∧
      (19#32 ||| funct3 <<< 12 ||| funct7 <<< 25) &&& 0xfe00707f = (pattern32 op).encoding) :
    Matches (patternFor arch op) (shiftFormat funct3 funct7 rd rs1 shamt) := by
  by_cases narrow : arch = .rv32
  · rw [patternFor, if_pos narrow]
    exact matches_shiftFormat32 _ _ _ _ _ (fun large => small ⟨narrow, large⟩) masks.2 encodings.2
  · rw [patternFor, if_neg narrow]
    exact matches_shiftFormat _ _ _ _ _ masks.1 encodings.1

/-- Every other encoder has one pattern for all architectures. -/
theorem matches_patternFor {word : Instruction} (op : Mapping) (unshifted : op ∉ shiftOps)
    (matched : Matches (pattern op) word) : Matches (patternFor arch op) word := by
  rwa [patternFor_eq_pattern arch op unshifted]

/-- Every expansion but the one of `C.ADDIW` leaves a word with the pattern of the
opcode it returns. -/
theorem expandCompressed_matches (cOp : Compressed) (other : cOp ≠ cAddiw)
    (named : (expandCompressed arch instr cOp).1 ≠ .undefined) :
    Matches (patternFor arch (expandCompressed arch instr cOp).1)
      (expandCompressed arch instr cOp).2 := by
  cases cOp with
  | cAddiw => exact absurd rfl other
  | cIllegal | cReserved | cLq | cSq | cLqsp | cSqsp => exact absurd rfl named
  | cNop | cAdd | cMv | cAnd | cOr | cXor | cSub | cAddw | cSubw =>
    dsimp only [expandCompressed]
    exact matches_patternFor _ (by decide) (matches_rFormat _ _ _ _ _ _ rfl (by decide))
  | cLw | cLd | cFlw | cFld | cAddi | cLi | cAndi | cFlwsp | cFldsp | cJalr =>
    dsimp only [expandCompressed]
    exact matches_patternFor _ (by decide) (matches_iFormat _ _ _ _ _ rfl (by decide))
  | cSw | cSd | cFsw | cFsd | cSwsp | cSdsp | cFswsp | cFsdsp =>
    dsimp only [expandCompressed]
    exact matches_patternFor _ (by decide) (matches_sFormat _ _ _ _ _ rfl (by decide))
  | cBeqz | cBnez =>
    dsimp only [expandCompressed]
    exact matches_patternFor _ (by decide) (matches_bFormat _ _ _ _ rfl (by decide))
  | cJal | cJ =>
    dsimp only [expandCompressed]
    exact matches_patternFor _ (by decide) (matches_jal _ _)
  | cEbreak =>
    dsimp only [expandCompressed]
    exact matches_patternFor _ (by decide) (by decide)
  | cAddi4spn | cAddi16sp | cLwsp | cLdsp | cJr =>
    simp only [expandCompressed] at named ⊢
    split at named
    case isTrue => exact absurd rfl named
    case isFalse accepted =>
      rw [if_neg accepted]
      dsimp only
      exact matches_patternFor _ (by decide) (matches_iFormat _ _ _ _ _ rfl (by decide))
  | cLui =>
    simp only [expandCompressed] at named ⊢
    split at named
    case isTrue => exact absurd rfl named
    case isFalse accepted =>
      rw [if_neg accepted]
      dsimp only
      exact matches_patternFor _ (by decide) (matches_lui _ _)
  | cSlli | cSrli | cSrai =>
    simp only [expandCompressed] at named ⊢
    split at named
    case isTrue => exact absurd rfl named
    case isFalse accepted =>
      rw [if_neg accepted]
      dsimp only
      exact matches_shift _ _ _ _ _ _ accepted ⟨rfl, rfl⟩ ⟨by decide, by decide⟩

/-! ## Agreement -/

/-- The words whose expansion packs another instruction than it names: `C.ADDIW` with a
nonzero register, on any architecture but RV32. -/
def MispackedAddiw (arch : Architecture) (instr : Instruction) : Prop :=
  arch ≠ .rv32 ∧ instr.quadrant = 1 ∧ instr.cOpcode = 1 ∧ instr.cRd ≠ 0

instance (arch : Architecture) (instr : Instruction) : Decidable (MispackedAddiw arch instr) :=
  inferInstanceAs (Decidable (_ ∧ _))

theorem ite_ne {condition : Prop} [Decidable condition] {left right excluded : Compressed}
    (first : left ≠ excluded) (second : right ≠ excluded) :
    (if condition then left else right) ≠ excluded := by
  split
  · exact first
  · exact second

theorem decodeQuadrant0_ne_cAddiw : decodeQuadrant0 arch instr ≠ cAddiw := by
  unfold decodeQuadrant0
  with_reducible repeat' apply ite_ne
  all_goals decide

theorem decodeQuadrant2_ne_cAddiw : decodeQuadrant2 arch instr ≠ cAddiw := by
  unfold decodeQuadrant2
  with_reducible repeat' apply ite_ne
  all_goals decide

theorem decodeQuadrant1_ne_cAddiw (elsewhere : instr.cOpcode ≠ 1) :
    decodeQuadrant1 arch instr ≠ cAddiw := by
  unfold decodeQuadrant1 decodeQuadrant1Arith
  rw [if_neg elsewhere]
  with_reducible repeat' apply ite_ne
  all_goals decide

/-- The classifier answers `C.ADDIW` only in quadrant one, and never on RV32. -/
theorem decodeCompressed_eq_cAddiw_iff :
    decodeCompressed arch instr = .ok cAddiw ↔
      arch ≠ .rv32 ∧ instr.quadrant = 1 ∧ instr.cOpcode = 1 := by
  constructor
  · intro classified
    unfold decodeCompressed at classified
    split at classified
    · exact absurd (Except.ok.inj classified) decodeQuadrant0_ne_cAddiw
    split at classified
    case isTrue one =>
      by_cases oneOp : instr.cOpcode = 1
      · refine ⟨?_, one, oneOp⟩
        rintro rfl
        simp +decide [decodeQuadrant1, oneOp] at classified
      · exact absurd (Except.ok.inj classified) (decodeQuadrant1_ne_cAddiw oneOp)
    split at classified
    · exact absurd (Except.ok.inj classified) decodeQuadrant2_ne_cAddiw
    · cases classified
  · rintro ⟨wide, one, oneOp⟩
    simp +decide [decodeCompressed, decodeQuadrant1, wide, one, oneOp]

/-- A word with an instruction's pattern is uncompressed. -/
theorem quadrant_of_matches {word : Instruction} {op : Mapping} (named : op ≠ .undefined)
    (matched : Matches (patternFor arch op) word) : word.quadrant = 3 := by
  have uncompressed : ∀ expected ∈ [pattern op, pattern32 op],
      bitRange expected.mask 1 0 = fieldMask 32 0 2 ∧ quadrant expected.encoding = 3 := by
    cases op <;> first | exact absurd rfl named | decide
  have listed : patternFor arch op ∈ [pattern op, pattern32 op] := by
    unfold patternFor
    split <;> simp
  obtain ⟨covered, encoded⟩ := uncompressed _ listed
  exact (bitRange_of_matches 1 0 matched covered).trans encoded

/-- The two decoders agree on a compressed word: whenever the compressed decoder accepts
it, the word it leaves behind is uncompressed and is decoded as the same instruction. -/
def DecodersAgree (arch : Architecture) (instr : Instruction) : Prop :=
  ∀ op expanded, decodeAndExpandCompressed arch instr = .ok (op, expanded) → op ≠ .undefined →
    expanded.quadrant = 3 ∧ decodeNormal arch expanded = op

/-- An accepted word was classified, and its expansion is the one of its class. -/
theorem decodeAndExpandCompressed_eq_ok_iff {op : Mapping} {expanded : Instruction} :
    decodeAndExpandCompressed arch instr = .ok (op, expanded) ↔
      ∃ cOp, decodeCompressed arch instr = .ok cOp ∧
        expandCompressed arch instr cOp = (op, expanded) := by
  unfold decodeAndExpandCompressed
  cases decodeCompressed arch instr with
  | error message => simp [bind, Except.bind]
  | ok cOp => simp [bind, Except.bind, pure, Except.pure]

/-- On an `ADDIW` that was packed by the `ADDI` encoder the uncompressed decoder reads
`ADDI`. -/
theorem not_decodersAgree_of_mispacked (mispacked : MispackedAddiw arch instr) :
    ¬ DecodersAgree arch instr := by
  obtain ⟨wide, one, oneOp, register⟩ := mispacked
  intro agree
  have classified := decodeCompressed_eq_cAddiw_iff.mpr ⟨wide, one, oneOp⟩
  have expanded : expandCompressed arch instr cAddiw =
      (.addiw, addi instr.cRd instr.cRd instr.cImm) := by
    rw [expandCompressed, if_neg register]
  have read := (agree _ _ (decodeAndExpandCompressed_eq_ok_iff.mpr ⟨_, classified, expanded⟩)
    (by decide)).2
  have packed : Matches (patternFor arch .addi) (addi instr.cRd instr.cRd instr.cImm) :=
    matches_patternFor _ (by decide) (matches_iFormat _ _ _ _ _ rfl (by decide))
  rw [decodeNormal_of_matches arch (by decide) packed] at read
  cases read

/-- Off the mispacked words every expansion has its own pattern, so both decoders read
the same instruction. -/
theorem decodersAgree_of_not_mispacked (sound : ¬ MispackedAddiw arch instr) :
    DecodersAgree arch instr := by
  intro op expanded accepted named
  obtain ⟨cOp, classified, expansion⟩ := decodeAndExpandCompressed_eq_ok_iff.mp accepted
  by_cases addiw : cOp = cAddiw
  · subst addiw
    obtain ⟨wide, one, oneOp⟩ := decodeCompressed_eq_cAddiw_iff.mp classified
    have register : instr.cRd = 0 := by
      by_contra register
      exact sound ⟨wide, one, oneOp, register⟩
    rw [expandCompressed, if_pos register] at expansion
    cases expansion
    exact absurd rfl named
  · have matched := @expandCompressed_matches arch instr cOp addiw
      (by rwa [expansion])
    rw [expansion] at matched
    exact ⟨quadrant_of_matches named matched, decodeNormal_of_matches arch named matched⟩

/-- The two decoders agree on a compressed word exactly when it is not a `C.ADDIW` with a
nonzero register on a wide architecture. -/
theorem decodersAgree_iff_not_mispackedAddiw (arch : Architecture) (instr : Instruction) :
    DecodersAgree arch instr ↔ ¬ MispackedAddiw arch instr :=
  ⟨fun agree mispacked => not_decodersAgree_of_mispacked mispacked agree,
    decodersAgree_of_not_mispacked⟩

/-- `C.ADDIW x1, 1` on RV64: the name is `ADDIW`, the packed word is `ADDI x1, x1, 1`. -/
theorem not_decodersAgree_addiw :
    decodeAndExpandCompressed .rv64 0x2085 = .ok (.addiw, 0x00108093) ∧
      decodeNormal .rv64 0x00108093 = .addi ∧ ¬ DecodersAgree .rv64 0x2085 := by
  refine ⟨rfl, by decide, ?_⟩
  intro agree
  exact absurd (agree .addiw 0x00108093 rfl (by decide)).2 (by decide)

end Instruction

end SymexVP
