import SymexVP.RegisterRange

/-!
# Loops over a view

`ArrayView` gives a device the bytes of a range as an array of elements. A loop over a
view goes from the element `begin` points to up to the one `end` points to, and leaves
the latter out. That one is the last of the array.
-/

namespace SymexVP

/-- A view of elements of a size, with what its constructor asserts of the range. -/
structure ArrayView where
  elementSize : Nat
  memSize : Nat
  elementPositive : 0 < elementSize
  whole : memSize % elementSize = 0
  nonempty : 0 < memSize / elementSize

namespace ArrayView

variable {σ : Type}

def size (view : ArrayView) : Nat := view.memSize / view.elementSize

/-- A pointer is the index of the element it points to. -/
def begin (_ : ArrayView) : Nat := 0

def end_ (view : ArrayView) : Nat := view.size - 1

theorem begin_le_end (view : ArrayView) : view.begin ≤ view.end_ := Nat.zero_le _

/-- A loop from a pointer on, which is compared to `end` by `!=`. -/
def forEachFrom (view : ArrayView) (body : Nat → σ → σ) (index : Nat)
    (before : index ≤ view.end_) (state : σ) : σ :=
  if reached : index = view.end_ then state
  else view.forEachFrom body (index + 1) (by omega) (body index state)
termination_by view.end_ - index

/-- `for (auto &x : view)`. -/
def forEach (view : ArrayView) (body : Nat → σ → σ) (state : σ) : σ :=
  view.forEachFrom body view.begin view.begin_le_end state

/-- The indices a loop visits, in order. -/
def visits (view : ArrayView) : List Nat :=
  view.forEach (fun index visited => visited ++ [index]) []

/-- A loop visits every index of the array once, and no other. -/
def VisitsAll (view : ArrayView) : Prop :=
  ∀ index, view.visits.count index = if index < view.size then 1 else 0

variable {view : ArrayView}

theorem forEachFrom_eq_foldl (body : Nat → σ → σ) {index : Nat} (before : index ≤ view.end_)
    (state : σ) : view.forEachFrom body index before state =
      (List.range' index (view.end_ - index)).foldl
        (fun state index => body index state) state := by
  induction distance : view.end_ - index generalizing index state with
  | zero =>
      have reached : index = view.end_ := by omega
      rw [forEachFrom, dif_pos reached]
      rfl
  | succ distance inductionHypothesis =>
      have remains : index ≠ view.end_ := by omega
      rw [forEachFrom, dif_neg remains, inductionHypothesis (by omega) _ (by omega)]
      rfl

theorem forEach_eq_foldl (body : Nat → σ → σ) (state : σ) : view.forEach body state =
    (List.range (view.size - 1)).foldl (fun state index => body index state) state := by
  rw [forEach, forEachFrom_eq_foldl, List.range_eq_range']
  rfl

theorem visits_eq (view : ArrayView) : view.visits = List.range (view.size - 1) := by
  rw [visits, forEach_eq_foldl]
  induction view.size - 1 with
  | zero => rfl
  | succ count inductionHypothesis =>
      rw [List.range_succ, List.foldl_append, inductionHypothesis]
      rfl

/-- Of the indices of the array the last one is not visited. -/
theorem visits_once_iff {index : Nat} (inside : index < view.size) :
    view.visits.count index = 1 ↔ index + 1 ≠ view.size := by
  rw [visits_eq, List.nodup_range.count]
  by_cases visited : index < view.size - 1
  · rw [if_pos (List.mem_range.mpr visited)]
    exact iff_of_true rfl (by omega)
  · rw [if_neg (mt List.mem_range.mp visited)]
    exact iff_of_false Nat.zero_ne_one (by omega)

theorem not_visitsAll (view : ArrayView) : ¬view.VisitsAll := by
  intro all
  have positive : 0 < view.size := view.nonempty
  have last : view.size - 1 < view.size := by omega
  have once := all (view.size - 1)
  rw [if_pos last, visits_once_iff last] at once
  omega

/-! ## Loops that change the elements -/

/-- A loop that changes every element it visits on its own. -/
def update (view : ArrayView)
    (change : BitVec (8 * view.elementSize) → BitVec (8 * view.elementSize))
    (mem : RegisterMemory) : RegisterMemory :=
  view.forEach (fun index mem =>
    mem.set view.elementSize index (change (mem.get view.elementSize index))) mem

theorem update_eq_foldl (change : BitVec (8 * view.elementSize) → BitVec (8 * view.elementSize))
    (mem : RegisterMemory) : view.update change mem =
      (List.range (view.size - 1)).foldl (fun mem index =>
        mem.set view.elementSize index (change (mem.get view.elementSize index))) mem :=
  forEach_eq_foldl _ mem

theorem get_update (change : BitVec (8 * view.elementSize) → BitVec (8 * view.elementSize))
    (mem : RegisterMemory) (index : Nat) :
    (view.update change mem).get view.elementSize index =
      if index < view.size - 1 then change (mem.get view.elementSize index)
      else mem.get view.elementSize index := by
  rw [update_eq_foldl]
  induction view.size - 1 with
  | zero => rfl
  | succ count inductionHypothesis =>
      rw [List.range_succ, List.foldl_append, List.foldl_cons, List.foldl_nil]
      by_cases current : index = count
      · subst current
        rw [if_neg (Nat.lt_irrefl index)] at inductionHypothesis
        rw [RegisterMemory.get_set_self, inductionHypothesis, if_pos (Nat.lt_succ_self index)]
      · have same : index < count + 1 ↔ index < count := by omega
        rw [RegisterMemory.get_set_of_ne _ current, inductionHypothesis]
        simp only [same]

end ArrayView

end SymexVP
