import Mathlib.Data.List.Range
import Mathlib.Tactic.Basic

/-!
# The first greatest element of a scan

A loop over positions keeps the best one so far, and replaces it only by one that is
strictly greater: it ends with the lowest position among the greatest. Values are
natural numbers, and zero stands for nothing found.
-/

namespace FirstMaximum

/-- One round of the loop, on the position and the value kept so far. -/
def improve (eligible : Nat → Bool) (value : Nat → Nat) (best : Nat × Nat) (position : Nat) :
    Nat × Nat :=
  if eligible position ∧ best.2 < value position then (position, value position) else best

/-- The loop over the positions from one to a bound. -/
def search (eligible : Nat → Bool) (value : Nat → Nat) (count : Nat) : Nat × Nat :=
  (List.range' 1 count).foldl (improve eligible value) (0, 0)

variable {eligible : Nat → Bool} {value : Nat → Nat}

/-- Nothing eligible was met, or the kept position is eligible, has its value, and no other is
greater or as great and lower. -/
structure Best (eligible : Nat → Bool) (value : Nat → Nat) (count : Nat) (best : Nat × Nat) :
    Prop where
  none : best.1 = 0 → best.2 = 0 ∧ ∀ position, 1 ≤ position → position ≤ count →
    eligible position = true → value position = 0
  some : best.1 ≠ 0 → best.1 ≤ count ∧ eligible best.1 = true ∧ value best.1 = best.2 ∧ 0 < best.2 ∧
    ∀ position, 1 ≤ position → position ≤ count → eligible position = true →
      value position < best.2 ∨ value position = best.2 ∧ best.1 ≤ position

theorem Best.improve {count : Nat} {best : Nat × Nat} (holds : Best eligible value count best) :
    Best eligible value (count + 1) (improve eligible value best (count + 1)) := by
  by_cases better : eligible (count + 1) = true ∧ best.2 < value (count + 1)
  · rw [FirstMaximum.improve, if_pos better]
    refine ⟨fun empty => absurd empty (Nat.succ_ne_zero count), fun _ => ?_⟩
    refine ⟨le_rfl, better.1, rfl, Nat.zero_lt_of_lt better.2, ?_⟩
    intro position lower upper found
    rcases Nat.eq_or_lt_of_le upper with rfl | earlier
    · exact .inr ⟨rfl, le_rfl⟩
    · refine .inl ?_
      by_cases empty : best.1 = 0
      · have zero := (holds.none empty).2 position lower (Nat.le_of_lt_succ earlier) found
        rw [zero]
        exact Nat.zero_lt_of_lt better.2
      · obtain ⟨-, -, -, -, greatest⟩ := holds.some empty
        rcases greatest position lower (Nat.le_of_lt_succ earlier) found with less | ⟨same, -⟩
        · exact less.trans better.2
        · rw [same]
          exact better.2
  · rw [FirstMaximum.improve, if_neg better]
    constructor
    · intro empty
      obtain ⟨zero, nothing⟩ := holds.none empty
      refine ⟨zero, ?_⟩
      intro position lower upper found
      rcases Nat.eq_or_lt_of_le upper with rfl | earlier
      · have bounded : ¬best.2 < value (count + 1) := fun greater => better ⟨found, greater⟩
        omega
      · exact nothing position lower (Nat.le_of_lt_succ earlier) found
    · intro kept
      obtain ⟨inside, found, same, positive, greatest⟩ := holds.some kept
      refine ⟨Nat.le_succ_of_le inside, found, same, positive, ?_⟩
      intro position lower upper found
      rcases Nat.eq_or_lt_of_le upper with rfl | earlier
      · have bounded : ¬best.2 < value (count + 1) := fun greater => better ⟨found, greater⟩
        omega
      · exact greatest position lower (Nat.le_of_lt_succ earlier) found

/-- The scan ends with the first of the greatest positions. -/
theorem best_search (eligible : Nat → Bool) (value : Nat → Nat) (count : Nat) :
    Best eligible value count (search eligible value count) := by
  induction count with
  | zero =>
      refine ⟨fun _ => ⟨rfl, fun position lower upper => by omega⟩, fun kept => absurd rfl kept⟩
  | succ count holds =>
      have last : search eligible value (count + 1) =
          improve eligible value (search eligible value count) (count + 1) := by
        rw [search, List.range'_concat, List.foldl_append]
        simp [search, Nat.add_comm]
      rw [last]
      exact holds.improve

end FirstMaximum
