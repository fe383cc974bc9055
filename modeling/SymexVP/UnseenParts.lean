import SymexVP.CheckedArrays

/-!
# Parts of the state that a computation does not see

A computation that neither looks at a part of the state nor touches it does the same whatever
that part is. It is stated here as commuting with a change of the state: where the change is made
before or after makes no difference to the result, the observations and the state reached.
-/

/-- The same outcome, with another state. -/
def Outcome.changed {ε σ ω α : Type} (change : σ → σ) (outcome : Outcome ε σ ω α) :
    Outcome ε σ ω α :=
  { outcome with state := change outcome.state }

namespace Exec

variable {ε σ ω α β : Type} {change : σ → σ}

/-- The computation commutes with a change of the state. -/
def Blind (change : σ → σ) (body : Exec ε σ ω α) : Prop :=
  ∀ state, body.run (change state) = (body.run state).changed change

namespace Blind

theorem pure (value : α) : Blind change (Pure.pure value : Exec ε σ ω α) := fun _ => rfl

theorem throw (fault : ε) : Blind change (Exec.throw fault : Exec ε σ ω α) := fun _ => rfl

theorem emit (observation : ω) : Blind change (Exec.emit observation : Exec ε σ ω Unit) :=
  fun _ => rfl

theorem modify {update : σ → σ} (commutes : ∀ state, update (change state) = change (update state)) :
    Blind change (Exec.modify update : Exec ε σ ω Unit) := by
  intro state
  rw [modify_run, modify_run, commutes]
  rfl

theorem bind {first : Exec ε σ ω α} {next : α → Exec ε σ ω β} (blind : Blind change first)
    (later : ∀ value, Blind change (next value)) : Blind change (first >>= next) := by
  intro state
  rw [bind_run, bind_run, blind state]
  obtain ⟨result, middle, log⟩ := first.run state
  cases result with
  | error fault => rfl
  | ok value =>
      unfold Outcome.changed
      rw [Outcome.andThen_ok, Outcome.andThen_ok, later value middle]
      rfl

/-- The state may be read, if what follows makes the same of it with and without the change. -/
theorem get_bind {next : σ → Exec ε σ ω β} (same : ∀ state, next (change state) = next state)
    (later : ∀ state, Blind change (next state)) : Blind change (get >>= next) := by
  intro state
  have reads : ∀ other, (get >>= next : Exec ε σ ω β).run other = (next other).run other := by
    intro other
    rw [bind_run, get_run, Outcome.andThen_ok]
    rfl
  rw [reads, reads, same]
  exact later state state

theorem ite {condition : Prop} [Decidable condition] {first second : Exec ε σ ω α}
    (whenTrue : Blind change first) (whenFalse : Blind change second) :
    Blind change (if condition then first else second) := by
  split
  · exact whenTrue
  · exact whenFalse

theorem element {size : Nat} (array : Vector α size) (index : Nat) (fault : ε) :
    Blind change (Exec.element array index fault : Exec ε σ ω α) := by
  unfold Exec.element
  split
  · exact pure _
  · exact throw _

theorem replace {size : Nat} (array : Vector α size) (index : Nat) (value : α) (fault : ε) :
    Blind change (Exec.replace array index value fault : Exec ε σ ω (Vector α size)) := by
  unfold Exec.replace
  split
  · exact pure _
  · exact throw _

theorem copy {size length : Nat} (source : Vector α size) (reads writes : Nat → ε) (count : Nat)
    (target : Vector α length) :
    Blind change (Exec.copy source reads writes count target : Exec ε σ ω (Vector α length)) := by
  induction count with
  | zero => exact pure _
  | succ count inductionHypothesis =>
      exact bind inductionHypothesis fun target =>
        bind (element source count _) fun value => replace target count value _

end Blind

end Exec
