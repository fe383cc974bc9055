import SymexVP.MaskTable
import SymexVP.SpecificationFields

/-!
# The decoder names the manual's instructions

The manual's tables classify a word by its opcode and function codes. Each code is a
slice of the word, and the mask of an instruction is the union of the slices its format
compares. A word the tables give an instruction therefore has the pattern of that
instruction, and `decode_normal` returns its name.
-/

namespace SymexVP

namespace Spec

/-- The formats of the tables: what a word is compared with, and the operands it has. -/
inductive Encodes (w : BitVec 32) : Instr → Prop
  | lui (major : opcode w = 0b0110111) : Encodes w (.lui (rd w) (immU w))
  | auipc (major : opcode w = 0b0010111) : Encodes w (.auipc (rd w) (immU w))
  | jal (major : opcode w = 0b1101111) : Encodes w (.jal (rd w) (immJ w))
  | jalr (major : opcode w = 0b1100111) (minor : funct3 w = 0b000) :
      Encodes w (.jalr (rd w) (rs1 w) (immI w))
  | branch {kind : BranchKind} (major : opcode w = 0b1100011)
      (minor : branchKind (funct3 w) = some kind) :
      Encodes w (.branch kind (rs1 w) (rs2 w) (immB w))
  | load {kind : LoadKind} (major : opcode w = 0b0000011)
      (minor : loadKind (funct3 w) = some kind) : Encodes w (.load kind (rd w) (rs1 w) (immI w))
  | store {kind : StoreKind} (major : opcode w = 0b0100011)
      (minor : storeKind (funct3 w) = some kind) :
      Encodes w (.store kind (rs1 w) (rs2 w) (immS w))
  | opImm {kind : ImmediateKind} (major : opcode w = 0b0010011)
      (minor : immediateKind (funct3 w) = some kind) :
      Encodes w (.opImm kind (rd w) (rs1 w) (immI w))
  | shift {kind : ShiftKind} (major : opcode w = 0b0010011)
      (minor : shiftKind (funct7 w) (funct3 w) = some kind) :
      Encodes w (.shift kind (rd w) (rs1 w) (rs2 w))
  | op {kind : OpKind} (major : opcode w = 0b0110011)
      (minor : opKind (funct7 w) (funct3 w) = some kind) :
      Encodes w (.op kind (rd w) (rs1 w) (rs2 w))
  | amo {kind : AmoKind} (major : opcode w = 0b0101111) (width : funct3 w = 0b010)
      (minor : amoKind (funct5 w) = some kind) : Encodes w (.amo kind (rd w) (rs1 w) (rs2 w))
  | ebreak (whole : w = 0x00100073) : Encodes w .ebreak

/-- A table that lists `i` lists it in the first row, or behind it. -/
theorem row_cases {condition : Prop} [Decidable condition] {first rest : Option Instr} {i : Instr}
    (listed : (if condition then first else rest) = some i) :
    condition ∧ first = some i ∨ rest = some i := by
  by_cases holds : condition
  · exact .inl ⟨holds, (if_pos holds).symm.trans listed⟩
  · exact .inr ((if_neg holds).symm.trans listed)

/-- A word the tables give an instruction has the format of one. -/
theorem encodes_of_decode {w : BitVec 32} {i : Instr} (decoded : decode w = some i) :
    Encodes w i := by
  unfold decode at decoded
  obtain ⟨major, found⟩ | decoded := row_cases decoded
  · cases found
    exact .lui major
  obtain ⟨major, found⟩ | decoded := row_cases decoded
  · cases found
    exact .auipc major
  obtain ⟨major, found⟩ | decoded := row_cases decoded
  · cases found
    exact .jal major
  obtain ⟨major, found⟩ | decoded := row_cases decoded
  · obtain ⟨minor, found⟩ | absent := row_cases found
    · cases found
      exact .jalr major minor
    · cases absent
  obtain ⟨major, found⟩ | decoded := row_cases decoded
  · obtain ⟨kind, minor, rfl⟩ := Option.map_eq_some_iff.mp found
    exact .branch major minor
  obtain ⟨major, found⟩ | decoded := row_cases decoded
  · obtain ⟨kind, minor, rfl⟩ := Option.map_eq_some_iff.mp found
    exact .load major minor
  obtain ⟨major, found⟩ | decoded := row_cases decoded
  · obtain ⟨kind, minor, rfl⟩ := Option.map_eq_some_iff.mp found
    exact .store major minor
  obtain ⟨major, found⟩ | decoded := row_cases decoded
  · obtain ⟨-, found⟩ | found := row_cases found
    · obtain ⟨kind, minor, rfl⟩ := Option.map_eq_some_iff.mp found
      exact .shift major minor
    · obtain ⟨kind, minor, rfl⟩ := Option.map_eq_some_iff.mp found
      exact .opImm major minor
  obtain ⟨major, found⟩ | decoded := row_cases decoded
  · obtain ⟨kind, minor, rfl⟩ := Option.map_eq_some_iff.mp found
    exact .op major minor
  obtain ⟨major, found⟩ | decoded := row_cases decoded
  · obtain ⟨width, found⟩ | absent := row_cases found
    · obtain ⟨kind, minor, rfl⟩ := Option.map_eq_some_iff.mp found
      exact .amo major width minor
    · cases absent
  obtain ⟨whole, found⟩ | absent := row_cases decoded
  · cases found
    exact .ebreak whole
  · cases absent

/-- Both codes of the shifts leave the lowest bit clear, which is where a sixth bit of the amount
would be. -/
theorem getLsbD_of_shiftKind {upper : BitVec 7} {minor : BitVec 3} {kind : ShiftKind}
    (found : shiftKind upper minor = some kind) : upper.getLsbD 0 = false := by
  unfold shiftKind at found
  split at found
  · next row => rw [row.2]; rfl
  split at found
  · next row => rw [row.2]; rfl
  split at found
  · next row => rw [row.2]; rfl
  · cases found

end Spec

namespace Instruction

open Opcode BitFields
open Spec (Instr Encodes BranchKind LoadKind StoreKind ImmediateKind ShiftKind OpKind AmoKind)

section Masks

variable (word : BitVec 32)

/-- The bits a field's mask keeps are the field, in its place. -/
theorem and_fieldMask (lo len : Nat) (fits : lo + len ≤ 32) :
    word &&& fieldMask 32 lo len = (word.extractLsb' lo len).setWidth 32 <<< lo := by
  apply BitVec.eq_of_getLsbD_eq
  intro index inside
  rw [BitVec.getLsbD_and, getLsbD_fieldMask _ _ _ fits, BitVec.getLsbD_shiftLeft,
    BitVec.getLsbD_setWidth, BitVec.getLsbD_extractLsb']
  by_cases above : lo ≤ index
  · simp only [above, inside, true_and, Bool.true_and, Nat.add_sub_cancel' above,
      decide_true, show ¬index < lo by omega, decide_false, Bool.not_false,
      show index - lo < 32 by omega]
    rw [Bool.and_comm]
    congr 2
    rw [eq_iff_iff]
    omega
  · simp [above, show index < lo by omega]

/-- The mask of the formats with an opcode alone. -/
theorem and_major : word &&& 0x7f#32 = (Spec.opcode word).setWidth 32 := by
  have field := and_fieldMask word 0 7 (by decide)
  rw [BitVec.shiftLeft_zero] at field
  exact field

/-- The mask of the formats with one function code. -/
theorem and_minor :
    word &&& 0x707f#32 =
      (Spec.opcode word).setWidth 32 ||| (Spec.funct3 word).setWidth 32 <<< 12 := by
  have field := and_fieldMask word 12 3 (by decide)
  calc word &&& 0x707f#32
      = word &&& 0x7f#32 ||| word &&& fieldMask 32 12 3 := by
        rw [← BitVec.and_or_distrib_left]
        rfl
    _ = (Spec.opcode word).setWidth 32 ||| (Spec.funct3 word).setWidth 32 <<< 12 := by
        rw [and_major, field]
        rfl

/-- The mask of the register formats. -/
theorem and_funct7 : word &&& 0xfe00707f#32 =
    (Spec.opcode word).setWidth 32 ||| (Spec.funct3 word).setWidth 32 <<< 12 |||
      (Spec.funct7 word).setWidth 32 <<< 25 := by
  have field := and_fieldMask word 25 7 (by decide)
  calc word &&& 0xfe00707f#32
      = word &&& 0x707f#32 ||| word &&& fieldMask 32 25 7 := by
        rw [← BitVec.and_or_distrib_left]
        rfl
    _ = _ := by
        rw [and_minor, field]
        rfl

/-- The mask of the atomic operations, which leaves out the two ordering bits. -/
theorem and_funct5 : word &&& 0xf800707f#32 =
    (Spec.opcode word).setWidth 32 ||| (Spec.funct3 word).setWidth 32 <<< 12 |||
      (Spec.funct5 word).setWidth 32 <<< 27 := by
  have field := and_fieldMask word 27 5 (by decide)
  calc word &&& 0xf800707f#32
      = word &&& 0x707f#32 ||| word &&& fieldMask 32 27 5 := by
        rw [← BitVec.and_or_distrib_left]
        rfl
    _ = _ := by
        rw [and_minor, field]
        rfl

end Masks

/-! ## Function codes

The code a table lists for an instruction is the one in the instruction's encoding. -/

theorem encoding_branch (kind : BranchKind) (code : BitVec 3)
    (found : Spec.branchKind code = some kind) :
    0b1100011#32 ||| code.setWidth 32 <<< 12 =
      (pattern32 (mnemonic (.branch kind 0 0 0))).encoding := by
  revert code
  cases kind <;> decide

theorem encoding_load (kind : LoadKind) (code : BitVec 3) (found : Spec.loadKind code = some kind) :
    0b0000011#32 ||| code.setWidth 32 <<< 12 =
      (pattern32 (mnemonic (.load kind 0 0 0))).encoding := by
  revert code
  cases kind <;> decide

theorem encoding_store (kind : StoreKind) (code : BitVec 3)
    (found : Spec.storeKind code = some kind) :
    0b0100011#32 ||| code.setWidth 32 <<< 12 =
      (pattern32 (mnemonic (.store kind 0 0 0))).encoding := by
  revert code
  cases kind <;> decide

theorem encoding_opImm (kind : ImmediateKind) (code : BitVec 3)
    (found : Spec.immediateKind code = some kind) :
    0b0010011#32 ||| code.setWidth 32 <<< 12 =
      (pattern32 (mnemonic (.opImm kind 0 0 0))).encoding := by
  revert code
  cases kind <;> decide

theorem encoding_shift (kind : ShiftKind) (upper : BitVec 7) (code : BitVec 3)
    (found : Spec.shiftKind upper code = some kind) :
    0b0010011#32 ||| code.setWidth 32 <<< 12 ||| upper.setWidth 32 <<< 25 =
      (pattern32 (mnemonic (.shift kind 0 0 0))).encoding := by
  unfold Spec.shiftKind at found
  split_ifs at found with left logical arithmetic
  · obtain ⟨rfl, rfl⟩ := left
    cases found
    rfl
  · obtain ⟨rfl, rfl⟩ := logical
    cases found
    rfl
  · obtain ⟨rfl, rfl⟩ := arithmetic
    cases found
    rfl

theorem encoding_op (kind : OpKind) (upper : BitVec 7) (code : BitVec 3)
    (found : Spec.opKind upper code = some kind) :
    0b0110011#32 ||| code.setWidth 32 <<< 12 ||| upper.setWidth 32 <<< 25 =
      (pattern32 (mnemonic (.op kind 0 0 0))).encoding := by
  by_cases base : upper = 0b0000000
  · subst base
    revert code
    cases kind <;> decide
  by_cases alternative : upper = 0b0100000
  · subst alternative
    revert code
    cases kind <;> decide
  by_cases product : upper = 0b0000001
  · subst product
    revert code
    cases kind <;> decide
  · rw [Spec.opKind, if_neg base, if_neg alternative, if_neg product] at found
    cases found

theorem encoding_amo (kind : AmoKind) (upper : BitVec 5) (found : Spec.amoKind upper = some kind) :
    0b0101111#32 ||| 0b010#32 <<< 12 ||| upper.setWidth 32 <<< 27 =
      (pattern32 (mnemonic (.amo kind 0 0 0))).encoding := by
  revert upper
  cases kind <;> decide

/-! ## The decoder -/

/-- A word the manual gives an instruction is decoded under that instruction's name. -/
theorem decodeNormal_of_encodes {word : BitVec 32} {i : Instr} (encodes : Encodes word i) :
    decodeNormal .rv32 word = mnemonic i := by
  have named : mnemonic i ≠ .undefined := by
    intro absent
    cases i with
    | branch kind | load kind | store kind | opImm kind | shift kind | op kind | amo kind =>
        cases kind <;> cases absent
    | _ => cases absent
  refine decodeNormal_of_matches .rv32 named ?_
  cases encodes with
  | lui major | auipc major | jal major => exact (and_major word).trans (by rw [major]; rfl)
  | jalr major minor => exact (and_minor word).trans (by rw [major, minor]; rfl)
  | @branch kind major minor =>
      have code := encoding_branch kind _ minor
      rw [← show (Spec.opcode word).setWidth 32 = 0b1100011#32 by rw [major]; rfl,
        ← and_minor] at code
      cases kind <;> exact code
  | @load kind major minor =>
      have code := encoding_load kind _ minor
      rw [← show (Spec.opcode word).setWidth 32 = 0b0000011#32 by rw [major]; rfl,
        ← and_minor] at code
      cases kind <;> exact code
  | @store kind major minor =>
      have code := encoding_store kind _ minor
      rw [← show (Spec.opcode word).setWidth 32 = 0b0100011#32 by rw [major]; rfl,
        ← and_minor] at code
      cases kind <;> exact code
  | @opImm kind major minor =>
      have code := encoding_opImm kind _ minor
      rw [← show (Spec.opcode word).setWidth 32 = 0b0010011#32 by rw [major]; rfl,
        ← and_minor] at code
      cases kind <;> exact code
  | @shift kind major minor =>
      have code := encoding_shift kind _ _ minor
      rw [← show (Spec.opcode word).setWidth 32 = 0b0010011#32 by rw [major]; rfl,
        ← and_funct7] at code
      cases kind <;> exact code
  | @op kind major minor =>
      have code := encoding_op kind _ _ minor
      rw [← show (Spec.opcode word).setWidth 32 = 0b0110011#32 by rw [major]; rfl,
        ← and_funct7] at code
      cases kind <;> exact code
  | @amo kind major width minor =>
      have code := encoding_amo kind _ minor
      rw [← show (Spec.opcode word).setWidth 32 = 0b0101111#32 by rw [major]; rfl,
        ← show (Spec.funct3 word).setWidth 32 = 0b010#32 by rw [width]; rfl, ← and_funct5] at code
      cases kind <;> exact code
  | ebreak whole =>
      rw [whole]
      exact (by decide : Matches (patternFor .rv32 .ebreak) 0x00100073)

/-- It has thirty-two bits. -/
theorem not_isCompressed_of_encodes {word : BitVec 32} {i : Instr} (encodes : Encodes word i) :
    isCompressed word = false := by
  have low : ∀ code : BitVec 7, Spec.opcode word = code →
      isCompressed word = decide (code.setWidth 32 &&& 3 < 3#32) := by
    rintro _ rfl
    have short : word &&& 3 = (Spec.opcode word).setWidth 32 &&& 3 := by
      rw [← and_major, BitVec.and_assoc]
      rfl
    rw [isCompressed, quadrant]
    exact congrArg (fun bits => decide (bits < 3#32)) short
  cases encodes with
  | lui major | auipc major | jal major | jalr major | branch major | load major | store major
  | opImm major | shift major | op major | amo major => exact (low _ major).trans rfl
  | ebreak whole =>
      rw [whole]
      rfl

end Instruction

end SymexVP
