import Mathlib.Tactic

/-!
# Bit fields of fixed-width words

A field is a run of adjacent bits. Its mask is written as the usual shifted
`(1 << len) - 1`, a masked update replaces exactly the selected bits, and
reading a field moves it down to bit zero. Every law is read off one bit at a
time; the width and the field position are arbitrary.
-/

namespace SymexVP.BitFields

variable {w : Nat}

/-- The `len` bits from position `lo` upwards. -/
def fieldMask (w lo len : Nat) : BitVec w := ((1#w <<< len) - 1#w) <<< lo

/-- Take the bits selected by `mask` from `value` and keep the others of `old`. -/
def merge (mask old value : BitVec w) : BitVec w := (old &&& ~~~mask) ||| (value &&& mask)

/-- Read the field of `len` bits at `lo`, moved down to bit zero. -/
def getField (lo len : Nat) (word : BitVec w) : BitVec w :=
  (word &&& fieldMask w lo len) >>> lo

/-- Replace the field of `len` bits at `lo` by the low bits of `value`. -/
def setField (lo len : Nat) (word value : BitVec w) : BitVec w :=
  merge (fieldMask w lo len) word (value <<< lo)

/-- The unshifted mask has exactly its `len` low bits set, also when it spans the
whole word and the shifted one has overflowed to zero. -/
theorem getLsbD_lowMask (len index : Nat) (fits : len ≤ w) :
    ((1#w <<< len) - 1#w).getLsbD index = decide (index < len) := by
  have positive : 0 < 2 ^ len := Nat.two_pow_pos len
  have value : (1#w <<< len) - 1#w = BitVec.ofNat w (2 ^ len - 1) := by
    apply BitVec.eq_of_toNat_eq
    rcases Nat.eq_or_lt_of_le fits with rfl | shorter
    · by_cases empty : len = 0
      · subst empty
        simp
      · have large : 1 < 2 ^ len := Nat.one_lt_two_pow empty
        simp [Nat.mod_eq_of_lt large]
    · have below : 2 ^ len < 2 ^ w := Nat.pow_lt_pow_right (by decide) shorter
      have one : 1 < 2 ^ w := by omega
      simp only [BitVec.toNat_sub, BitVec.toNat_shiftLeft, BitVec.toNat_ofNat, Nat.shiftLeft_eq]
      rw [Nat.mod_eq_of_lt one, Nat.one_mul, Nat.mod_eq_of_lt below,
        Nat.mod_eq_of_lt (by omega : 2 ^ len - 1 < 2 ^ w),
        show 2 ^ w - 1 + 2 ^ len = 2 ^ len - 1 + 2 ^ w by omega,
        Nat.add_mod_right, Nat.mod_eq_of_lt (by omega)]
  rw [value, BitVec.getLsbD_ofNat, Nat.testBit_two_pow_sub_one]
  by_cases inside : index < len
  · simp [inside, Nat.lt_of_lt_of_le inside fits]
  · simp [inside]

/-- A field's mask selects exactly the positions of the field. -/
theorem getLsbD_fieldMask (lo len index : Nat) (fits : lo + len ≤ w) :
    (fieldMask w lo len).getLsbD index = decide (lo ≤ index ∧ index < lo + len) := by
  rw [fieldMask, BitVec.getLsbD_shiftLeft, getLsbD_lowMask _ _ (by omega)]
  by_cases above : lo ≤ index
  · by_cases inside : index < lo + len
    · simp [above, inside, show index < w by omega, show index - lo < len by omega]
    · simp [inside, show ¬ index - lo < len by omega]
  · simp [above, show index < lo by omega]

/-- A merge reads the new value under the mask and the old one elsewhere. -/
theorem getLsbD_merge (mask old value : BitVec w) (index : Nat) :
    (merge mask old value).getLsbD index =
      if mask.getLsbD index then value.getLsbD index else old.getLsbD index := by
  by_cases inside : index < w
  · simp only [merge, BitVec.getLsbD_or, BitVec.getLsbD_and, BitVec.getLsbD_not, inside,
      decide_true, Bool.true_and]
    cases mask.getLsbD index <;> simp
  · simp [merge, BitVec.getLsbD_of_ge _ _ (Nat.le_of_not_lt inside)]

/-- A masked write is invisible outside the mask. -/
theorem merge_and_of_disjoint {mask keep : BitVec w} (apart : mask &&& keep = 0)
    (old value : BitVec w) : merge mask old value &&& keep = old &&& keep := by
  apply BitVec.eq_of_getLsbD_eq
  intro index inside
  have bit := congrArg (BitVec.getLsbD · index) apart
  simp only [BitVec.getLsbD_and, getLsbD_merge] at bit ⊢
  split
  · simp_all
  · rfl

/-- Under its mask a masked write is the new value. -/
theorem merge_and_of_subset {mask keep : BitVec w} (inside : keep &&& ~~~mask = 0)
    (old value : BitVec w) : merge mask old value &&& keep = value &&& keep := by
  apply BitVec.eq_of_getLsbD_eq
  intro index bound
  have bit := congrArg (BitVec.getLsbD · index) inside
  simp only [BitVec.getLsbD_and, BitVec.getLsbD_not, getLsbD_merge, bound, decide_true] at bit ⊢
  split
  · rfl
  · simp_all

/-- A field that leaves out the top bits of the word is the same slice of it. -/
theorem getField_eq_extract (lo len : Nat) (word : BitVec w) (fits : lo + len ≤ w) :
    getField lo len word = (word.extractLsb' lo len).setWidth w := by
  apply BitVec.eq_of_getLsbD_eq
  intro index inside
  rw [getField, BitVec.getLsbD_ushiftRight, BitVec.getLsbD_and, getLsbD_fieldMask _ _ _ fits]
  by_cases low : index < len
  · simp [low, inside]
  · simp [low]

/-- A bit field of a word, as a compiler lays out a bit-field member. -/
structure BitField (w : Nat) where
  lo : Nat
  len : Nat
  fits : lo + len ≤ w

namespace BitField

/-- Read the field, moved down to bit zero. -/
def get (field : BitField w) (word : BitVec w) : BitVec w := getField field.lo field.len word

/-- Assign the field; only the low bits of the value that fit are taken. -/
def set (field : BitField w) (word value : BitVec w) : BitVec w :=
  setField field.lo field.len word value

/-- Two fields without a common bit. -/
def Apart (first second : BitField w) : Prop :=
  first.lo + first.len ≤ second.lo ∨ second.lo + second.len ≤ first.lo

instance (first second : BitField w) : Decidable (Apart first second) := by
  unfold Apart
  infer_instance

theorem getLsbD_get (field : BitField w) (word : BitVec w) (index : Nat) :
    (field.get word).getLsbD index =
      (decide (index < field.len) && word.getLsbD (field.lo + index)) := by
  have fits := field.fits
  rw [get, getField, BitVec.getLsbD_ushiftRight, BitVec.getLsbD_and,
    getLsbD_fieldMask _ _ _ fits]
  by_cases low : index < field.len
  · simp [low, Nat.add_lt_add_left low field.lo]
  · simp [low]

theorem getLsbD_set (field : BitField w) (word value : BitVec w) (index : Nat) :
    (field.set word value).getLsbD index =
      if field.lo ≤ index ∧ index < field.lo + field.len then value.getLsbD (index - field.lo)
      else word.getLsbD index := by
  have fits := field.fits
  rw [set, setField, getLsbD_merge, getLsbD_fieldMask _ _ _ fits]
  simp only [decide_eq_true_eq]
  by_cases inside : field.lo ≤ index ∧ index < field.lo + field.len
  · rw [if_pos inside, if_pos inside, BitVec.getLsbD_shiftLeft]
    simp [show index < w by omega, show ¬ index < field.lo by omega]
  · rw [if_neg inside, if_neg inside]

/-- Reading a field back gives the low bits that were assigned to it. -/
theorem get_set_self (field : BitField w) (word value : BitVec w) (index : Nat) :
    ((field.get (field.set word value)).getLsbD index) =
      (decide (index < field.len) && value.getLsbD index) := by
  rw [getLsbD_get, getLsbD_set]
  by_cases low : index < field.len
  · simp [low]
  · simp [low]

/-- Assigning a field is invisible through a mask that leaves it out. -/
theorem set_and_of_disjoint {field : BitField w} {keep : BitVec w}
    (apart : fieldMask w field.lo field.len &&& keep = 0) (word value : BitVec w) :
    field.set word value &&& keep = word &&& keep :=
  merge_and_of_disjoint apart word _

theorem get_merge_of_disjoint {field : BitField w} {mask : BitVec w}
    (apart : mask &&& fieldMask w field.lo field.len = 0) (old value : BitVec w) :
    field.get (merge mask old value) = field.get old := by
  rw [get, get, getField, getField, merge_and_of_disjoint apart]

theorem get_merge_of_subset {field : BitField w} {mask : BitVec w}
    (inside : fieldMask w field.lo field.len &&& ~~~mask = 0) (old value : BitVec w) :
    field.get (merge mask old value) = field.get value := by
  rw [get, get, getField, getField, merge_and_of_subset inside]

/-- A value that fits a field can be read back from it. -/
theorem get_set_of_fits {field : BitField w} {value : BitVec w}
    (fits : value.toNat < 2 ^ field.len) (word : BitVec w) :
    field.get (field.set word value) = value := by
  apply BitVec.eq_of_getLsbD_eq
  intro index _
  rw [get_set_self]
  by_cases low : index < field.len
  · simp [low]
  · have above : 2 ^ field.len ≤ 2 ^ index :=
      Nat.pow_le_pow_right (by decide) (Nat.le_of_not_lt low)
    have clear : value.getLsbD index = false :=
      Nat.testBit_lt_two_pow (Nat.lt_of_lt_of_le fits above)
    simp [low, clear]

/-- What is read from a field fits it. -/
theorem toNat_get_lt (field : BitField w) (word : BitVec w) :
    (field.get word).toNat < 2 ^ field.len := by
  rw [get, getField_eq_extract _ _ _ field.fits, BitVec.toNat_setWidth]
  exact lt_of_le_of_lt (Nat.mod_le _ _) (BitVec.isLt _)

theorem Apart.symm {first second : BitField w} (apart : Apart first second) :
    Apart second first := Or.symm apart

/-- Assigning a field does not change the others. -/
theorem get_set_of_apart {first second : BitField w} (apart : Apart first second)
    (word value : BitVec w) : first.get (second.set word value) = first.get word := by
  apply BitVec.eq_of_getLsbD_eq
  intro index _
  rw [getLsbD_get, getLsbD_get, getLsbD_set]
  by_cases low : index < first.len
  · unfold Apart at apart
    rw [if_neg (by omega)]
  · simp [low]

end BitField

/-- A word survives in a wider one. -/
theorem setWidth_injective {n m : Nat} (fits : n ≤ m) :
    Function.Injective (BitVec.setWidth m : BitVec n → BitVec m) := by
  intro first second wide
  have short := congrArg (BitVec.setWidth n) wide
  rwa [BitVec.setWidth_setWidth_of_le _ fits, BitVec.setWidth_setWidth_of_le _ fits,
    BitVec.setWidth_eq, BitVec.setWidth_eq] at short

/-- A shifted operand is invisible through a mask that leaves out its positions. -/
theorem shiftLeft_and_eq_zero (word keep mask : BitVec w) (shift : Nat)
    (apart : keep &&& (mask >>> shift) = 0#w) : ((word &&& keep) <<< shift) &&& mask = 0#w := by
  apply BitVec.eq_of_getLsbD_eq
  intro index inside
  have bit := congrArg (BitVec.getLsbD · (index - shift)) apart
  simp only [BitVec.getLsbD_and, BitVec.getLsbD_ushiftRight, BitVec.getLsbD_zero] at bit
  simp only [BitVec.getLsbD_and, BitVec.getLsbD_shiftLeft, inside, decide_true, Bool.true_and,
    BitVec.getLsbD_zero]
  by_cases below : index < shift
  · simp [below]
  · rw [show shift + (index - shift) = index by omega] at bit
    simp only [below, decide_false, Bool.not_false, Bool.true_and, Bool.and_assoc, bit,
      Bool.and_false]

/-- The same for an operand that is moved down, when the sign bit is not kept. -/
theorem sshiftRight_and_eq_zero (word keep mask : BitVec w) (shift : Nat)
    (unsigned : keep.msb = false) (apart : keep &&& (mask <<< shift) = 0#w) :
    (word &&& keep).sshiftRight shift &&& mask = 0#w := by
  have positive : (word &&& keep).msb = false := by
    rw [BitVec.msb_and, unsigned, Bool.and_false]
  rw [BitVec.sshiftRight_eq_of_msb_false positive]
  apply BitVec.eq_of_getLsbD_eq
  intro index inside
  have bit := congrArg (BitVec.getLsbD · (shift + index)) apart
  simp only [BitVec.getLsbD_and, BitVec.getLsbD_shiftLeft, BitVec.getLsbD_zero,
    Nat.add_sub_cancel_left, show ¬ shift + index < shift by omega, decide_false, Bool.not_false,
    Bool.and_true] at bit
  simp only [BitVec.getLsbD_and, BitVec.getLsbD_ushiftRight, BitVec.getLsbD_zero]
  by_cases present : shift + index < w
  · simp only [present, decide_true, Bool.true_and] at bit
    rw [Bool.and_assoc, bit, Bool.and_false]
  · rw [BitVec.getLsbD_of_ge _ _ (Nat.le_of_not_lt present), Bool.false_and, Bool.false_and]

end SymexVP.BitFields
