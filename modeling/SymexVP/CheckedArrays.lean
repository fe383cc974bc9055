import SymexVP.Exec

/-!
# Arrays whose every access is checked

An array of a fixed size is read and written by an index that may lie outside. Such an
access is a fault, where the language would go on with whatever is in memory there. A
copy of a number of elements makes its accesses one by one, in ascending order.
-/

namespace Exec

variable {ε σ ω α : Type} {size length : Nat}

/-- The element at an index. -/
def element (array : Vector α size) (index : Nat) (fault : ε) : Exec ε σ ω α :=
  if inside : index < size then pure array[index] else throw fault

/-- The array with another element at an index. -/
def replace (array : Vector α size) (index : Nat) (value : α) (fault : ε) :
    Exec ε σ ω (Vector α size) :=
  if inside : index < size then pure (array.set index value) else throw fault

/-- `memcpy`: the first elements of one array, copied to another one. -/
def copy (source : Vector α size) (reads writes : Nat → ε) :
    Nat → Vector α length → Exec ε σ ω (Vector α length)
  | 0, target => pure target
  | count + 1, target => do
      let target ← copy source reads writes count target
      let value ← element source count (reads count)
      replace target count value (writes count)

section Access

variable {array : Vector α size} {index : Nat} {value : α} {fault : ε}

theorem element_of_lt (inside : index < size) :
    (element array index fault : Exec ε σ ω α) = pure array[index] := dif_pos inside

theorem element_of_le (outside : size ≤ index) :
    (element array index fault : Exec ε σ ω α) = throw fault := dif_neg (Nat.not_lt.mpr outside)

theorem replace_of_lt (inside : index < size) :
    (replace array index value fault : Exec ε σ ω (Vector α size)) =
      pure (array.set index value) := dif_pos inside

theorem replace_of_le (outside : size ≤ index) :
    (replace array index value fault : Exec ε σ ω (Vector α size)) = throw fault :=
  dif_neg (Nat.not_lt.mpr outside)

end Access

section Copy

variable {source : Vector α size} {reads writes : Nat → ε} {count : Nat} {target : Vector α length}

/-- What is in memory after a copy that stays inside both arrays. -/
def copied (source : Vector α size) (count : Nat) (target : Vector α length) : Vector α length :=
  target.mapFinIdx fun index old _ => if inside : index < count ∧ index < size then
    source[index] else old

/-- A copy that stays inside both arrays makes the first elements the same, and keeps the rest. -/
theorem copy_of_le (fitsSource : count ≤ size) (fitsTarget : count ≤ length) :
    (copy source reads writes count target : Exec ε σ ω (Vector α length)) =
      pure (copied source count target) := by
  induction count with
  | zero =>
      rw [copy]
      congr 1
      ext index inside
      simp [copied]
  | succ count inductionHypothesis =>
      rw [copy, inductionHypothesis (by omega) (by omega)]
      change (element source count (reads count) >>= fun value =>
        replace (copied source count target) count value (writes count)) = _
      rw [element_of_lt fitsSource]
      change replace (copied source count target) count source[count] (writes count) = _
      rw [replace_of_lt fitsTarget]
      congr 1
      ext index inside
      rw [Vector.getElem_set]
      by_cases last : count = index
      · subst last
        simp [copied, Nat.lt_of_succ_le fitsSource]
      · have sooner : index ≤ count ↔ index < count := by omega
        simp [copied, last, sooner]

/-- A longer copy faults, and does nothing else. -/
theorem copy_of_lt (outside : size < count ∨ length < count) (state : σ) :
    ∃ fault, (copy source reads writes count target : Exec ε σ ω (Vector α length)).run state =
      ⟨.error fault, state, []⟩ := by
  induction count with
  | zero => omega
  | succ count inductionHypothesis =>
      by_cases sooner : size < count ∨ length < count
      · obtain ⟨fault, faulted⟩ := inductionHypothesis sooner
        exact ⟨fault, by rw [copy, bind_run, faulted, Outcome.andThen_error]⟩
      · rw [copy, copy_of_le (by omega) (by omega), bind_run, pure_run, Outcome.andThen_ok, bind_run]
        obtain last | ⟨inside, last⟩ : size = count ∨ count < size ∧ length = count := by omega
        · rw [element_of_le last.le, throw_run, Outcome.andThen_error]
          exact ⟨_, rfl⟩
        · rw [element_of_lt inside, pure_run, Outcome.andThen_ok, replace_of_le last.le, throw_run]
          exact ⟨_, rfl⟩

end Copy

/-! ## Frames -/

namespace Steps

variable {related : σ → σ → Prop} [Std.Refl related]

theorem element (array : Vector α size) (index : Nat) (fault : ε) :
    Steps related (Exec.element array index fault : Exec ε σ ω α) := by
  unfold Exec.element
  split
  · exact Steps.pure _
  · exact Steps.throw _

theorem replace (array : Vector α size) (index : Nat) (value : α) (fault : ε) :
    Steps related (Exec.replace array index value fault : Exec ε σ ω (Vector α size)) := by
  unfold Exec.replace
  split
  · exact Steps.pure _
  · exact Steps.throw _

theorem copy [IsTrans σ related] (source : Vector α size) (reads writes : Nat → ε) (count : Nat)
    (target : Vector α length) :
    Steps related (Exec.copy source reads writes count target : Exec ε σ ω (Vector α length)) := by
  induction count with
  | zero => exact Steps.pure _
  | succ count inductionHypothesis =>
      refine Steps.bind inductionHypothesis fun target => ?_
      exact Steps.bind (Steps.element _ _ _) fun value => Steps.replace _ _ _ _

end Steps

end Exec
