import Mathlib.Tactic

/-!
# Bit strings

Bit vectors of different widths are put in a row, the first one most significant, and a
row is cut into pieces of one width from its most significant end. Cutting and putting
together again loses nothing, wherever the seams of the row lie.
-/

/-- A bit vector together with its width. -/
structure BitString where
  width : Nat
  bits : BitVec width

namespace BitString

/-- Two bit strings of one length with one numeric value are the same. -/
theorem eq_of_toNat_eq {first second : BitString} (width : first.width = second.width)
    (number : first.bits.toNat = second.bits.toNat) : first = second := by
  obtain ⟨width₁, bits₁⟩ := first
  obtain ⟨width₂, bits₂⟩ := second
  cases width
  exact congrArg (BitString.mk width₁) (BitVec.eq_of_toNat_eq number)

def append (high low : BitString) : BitString := ⟨high.width + low.width, high.bits ++ low.bits⟩

def empty : BitString := ⟨0, 0#0⟩

/-- The strings in a row. -/
def joined (strings : List BitString) : BitString := strings.foldl append empty

theorem toNat_append (high low : BitString) :
    (high.append low).bits.toNat = 2 ^ low.width * high.bits.toNat + low.bits.toNat := by
  rw [append, BitVec.toNat_append, ← Nat.shiftLeft_add_eq_or_of_lt low.bits.isLt,
    Nat.shiftLeft_eq, Nat.mul_comm]

theorem append_assoc (first second third : BitString) :
    (first.append second).append third = first.append (second.append third) := by
  apply eq_of_toNat_eq
  · exact Nat.add_assoc _ _ _
  · rw [toNat_append, toNat_append, toNat_append, toNat_append]
    change _ = 2 ^ (second.width + third.width) * first.bits.toNat + _
    ring

@[simp] theorem empty_append (string : BitString) : empty.append string = string := by
  apply eq_of_toNat_eq
  · exact Nat.zero_add _
  · rw [toNat_append]
    exact Nat.zero_add _

@[simp] theorem append_empty (string : BitString) : string.append empty = string := by
  apply eq_of_toNat_eq
  · rfl
  · rw [toNat_append]
    exact Nat.one_mul _

/-- A row that is put behind another string. -/
theorem foldl_append (start : BitString) (strings : List BitString) :
    strings.foldl append start = start.append (joined strings) := by
  induction strings generalizing start with
  | nil => exact (append_empty start).symm
  | cons first rest inductionHypothesis =>
      rw [joined, List.foldl_cons, List.foldl_cons, inductionHypothesis, empty_append,
        inductionHypothesis first, append_assoc]

@[simp] theorem joined_nil : joined [] = empty := rfl

@[simp] theorem joined_cons (first : BitString) (rest : List BitString) :
    joined (first :: rest) = first.append (joined rest) := by
  rw [joined, List.foldl_cons, empty_append, foldl_append]

theorem joined_concat (strings : List BitString) (last : BitString) :
    joined (strings ++ [last]) = (joined strings).append last := by
  rw [joined, List.foldl_append]
  rfl

/-- A row is as long as its strings together. -/
theorem width_joined (strings : List BitString) :
    (joined strings).width = (strings.map width).sum := by
  induction strings with
  | nil => rfl
  | cons first rest inductionHypothesis =>
      rw [joined_cons, List.map_cons, List.sum_cons, ← inductionHypothesis]
      rfl

/-- The piece of `size` bits at a place, counted from the most significant end. -/
def piece (size count : Nat) (string : BitString) (index : Nat) : BitString :=
  ⟨size, string.bits.extractLsb' (size * count - size * (index + 1)) size⟩

/-- The first pieces of a string in a row are its high bits. -/
theorem joined_piece (size count : Nat) (string : BitString) (taken : Nat) (bound : taken ≤ count) :
    joined ((List.range taken).map (piece size count string)) =
      ⟨size * taken, string.bits.extractLsb' (size * count - size * taken) (size * taken)⟩ := by
  induction taken with
  | zero =>
      rw [List.range_zero, List.map_nil, joined_nil]
      exact eq_of_toNat_eq rfl (by simp [empty])
  | succ taken inductionHypothesis =>
      have fits : size * (taken + 1) ≤ size * count := Nat.mul_le_mul_left size bound
      have seam : size * count - size * taken = size * count - size * (taken + 1) + size := by
        rw [Nat.mul_succ] at fits ⊢
        omega
      rw [List.range_succ, List.map_append, List.map_singleton, joined_concat,
        inductionHypothesis (by omega)]
      apply eq_of_toNat_eq
      · exact (Nat.mul_succ size taken).symm
      · have glued := congrArg BitVec.toNat
          (@BitVec.extractLsb'_append_extractLsb'_eq_extractLsb' _ _ _ size (size * taken)
            string.bits seam)
        exact glued

/-- A string cut into pieces and put together again. -/
theorem joined_pieces (size count : Nat) (string : BitString)
    (whole : string.width = size * count) :
    joined ((List.range count).map (piece size count string)) = string := by
  rw [joined_piece size count string count le_rfl, Nat.sub_self]
  apply eq_of_toNat_eq
  · exact whole.symm
  · have bound := string.bits.isLt
    rw [BitVec.extractLsb'_toNat, Nat.shiftRight_zero, ← whole, Nat.mod_eq_of_lt bound]

end BitString
