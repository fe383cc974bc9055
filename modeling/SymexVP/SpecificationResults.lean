import SymexVP.Clover
import SymexVP.Specification

/-!
# The library's operations compute the manual's results

The manual states multiplication and division over the integers, and comparisons as
single conditions. The concolic library has the operations of bit-vector solvers: a
product of twice the width, a division that is left undefined at zero, and comparisons
of a single bit. Both give the same words.
-/

namespace SymexVP

namespace Spec

/-! ## Products -/

theorem signExtend_eq_ofInt (a : BitVec 32) : a.signExtend 64 = BitVec.ofInt 64 a.toInt := rfl

theorem setWidth_eq_ofInt (a : BitVec 32) : a.setWidth 64 = BitVec.ofInt 64 a.toNat := by
  rw [BitVec.ofInt_natCast]
  apply BitVec.eq_of_toNat_eq
  rw [BitVec.toNat_setWidth, BitVec.toNat_ofNat]

/-- The low half of a product of 64 bits. -/
theorem extract_low (product : Int) :
    (BitVec.ofInt 64 product).extractLsb' 0 32 = BitVec.ofInt 32 product := by
  apply BitVec.eq_of_toNat_eq
  rw [BitVec.extractLsb'_toNat, BitVec.toNat_ofInt, BitVec.toNat_ofInt, Nat.shiftRight_zero]
  omega

/-- The high half. -/
theorem extract_high (product : Int) :
    (BitVec.ofInt 64 product).extractLsb' 32 32 = upperHalf product := by
  apply BitVec.eq_of_toNat_eq
  rw [upperHalf, BitVec.extractLsb'_toNat, BitVec.toNat_ofInt, BitVec.toNat_ofInt,
    Nat.shiftRight_eq_div_pow]
  omega

/-! ## Quotients and remainders -/

theorem sdiv_eq (a b : BitVec 32) : a.sdiv b = BitVec.ofInt 32 (a.toInt.tdiv b.toInt) := by
  apply BitVec.eq_of_toInt_eq
  rw [BitVec.toInt_sdiv, BitVec.toInt_ofInt]

theorem srem_eq (a b : BitVec 32) : a.srem b = BitVec.ofInt 32 (a.toInt.tmod b.toInt) := by
  rw [← BitVec.toInt_srem, BitVec.ofInt_toInt]

theorem udiv_eq (a b : BitVec 32) : a / b = BitVec.ofNat 32 (a.toNat / b.toNat) := by
  rw [← BitVec.toNat_udiv, BitVec.ofNat_toNat, BitVec.setWidth_eq]

theorem umod_eq (a b : BitVec 32) : a % b = BitVec.ofNat 32 (a.toNat % b.toNat) := by
  rw [← BitVec.toNat_umod, BitVec.ofNat_toNat, BitVec.setWidth_eq]

/-! ## Comparisons -/

/-- A single bit as a word. -/
theorem setWidth_ofBool (bit : Bool) : (BitVec.ofBool bit).setWidth 32 = ofBool bit := by
  cases bit <;> rfl

theorem ofBool_eq_one (bit : Bool) : (BitVec.ofBool bit == 1) = bit := by
  cases bit <;> rfl

/-- The two comparisons that single out the quotient that does not fit. -/
theorem ofBool_and_ofBool {a b : BitVec 32} :
    BitVec.ofBool (a == 0x80000000#32) &&& BitVec.ofBool (b == 0xffffffff#32) = 1#1 ↔
      a = BitVec.intMin 32 ∧ b = BitVec.allOnes 32 := by
  have least : BitVec.intMin 32 = 0x80000000#32 := rfl
  have last : BitVec.allOnes 32 = 0xffffffff#32 := rfl
  have bit := Bool.eq_iff_iff.mp (ofBool_eq_one (a == 0x80000000#32 && b == 0xffffffff#32))
  rw [least, last, BitVec.ofBool_and_ofBool, ← beq_iff_eq]
  refine bit.trans ?_
  rw [Bool.and_eq_true, beq_iff_eq, beq_iff_eq]

/-- The comparison a branch makes. -/
def BranchKind.comparison : BranchKind → CompareOp
  | .beq => .eq
  | .bne => .ne
  | .blt => .slt
  | .bge => .sge
  | .bltu => .ult
  | .bgeu => .uge

theorem apply_comparison (kind : BranchKind) (a b : BitVec 32) :
    kind.comparison.apply a b = BitVec.ofBool (taken kind a b) := by
  cases kind <;> rfl

theorem apply_sge (a b : BitVec 32) : CompareOp.sge.apply a b = 1#1 ↔ b.toInt ≤ a.toInt := by
  have bit := Bool.eq_iff_iff.mp (ofBool_eq_one (b.sle a))
  exact beq_iff_eq.symm.trans (bit.trans BitVec.sle_iff_toInt_le)

theorem apply_uge (a b : BitVec 32) : CompareOp.uge.apply a b = 1#1 ↔ b.toNat ≤ a.toNat := by
  have bit := Bool.eq_iff_iff.mp (ofBool_eq_one (b.ule a))
  exact beq_iff_eq.symm.trans (bit.trans BitVec.ule_iff_le)

/-! ## Minima and maxima -/

theorem amoResult_min (a b : BitVec 32) :
    (if CompareOp.sge.apply a b = 1#1 then b else a) = amoResult .min a b := by
  rw [← ite_not]
  exact if_congr ((not_congr (apply_sge a b)).trans Int.not_le) rfl rfl

theorem amoResult_minu (a b : BitVec 32) :
    (if CompareOp.uge.apply a b = 1#1 then b else a) = amoResult .minu a b := by
  rw [← ite_not]
  exact if_congr ((not_congr (apply_uge a b)).trans Nat.not_le) rfl rfl

/-- Equal operands are both the maximum. -/
theorem amoResult_max (a b : BitVec 32) :
    (if CompareOp.sge.apply a b = 1#1 then a else b) = amoResult .max a b := by
  rw [amoResult, if_congr (apply_sge a b) rfl rfl]
  obtain below | equal | above := lt_trichotomy b.toInt a.toInt
  · rw [if_pos below, if_pos below.le]
  · rw [BitVec.eq_of_toInt_eq equal, ite_self, ite_self]
  · rw [if_neg above.not_ge, if_neg above.asymm]

theorem amoResult_maxu (a b : BitVec 32) :
    (if CompareOp.uge.apply a b = 1#1 then a else b) = amoResult .maxu a b := by
  rw [amoResult, if_congr (apply_uge a b) rfl rfl]
  obtain below | equal | above := lt_trichotomy b.toNat a.toNat
  · rw [if_pos below, if_pos below.le]
  · rw [BitVec.eq_of_toNat_eq equal, ite_self, ite_self]
  · rw [if_neg above.not_ge, if_neg above.asymm]

end Spec

end SymexVP
