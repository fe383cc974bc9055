import SymexVP.Exec

/-!
# How a computation ends

From a given state a computation either returns, and then the value and the state reached
are as asked, or it throws a fault as described. The condition of a sequence is the
condition of its first part with the condition of the rest behind it, so that a proof walks
through a computation from its first operation to its last and takes along what it
knows of the state.
-/

namespace Exec

variable {ε σ τ ω α β : Type}

/-- From `state` the computation returns to where `good` holds, or throws one of `faults`. -/
def Settles (faults : ε → Prop) (good : α → σ → Prop) (body : Exec ε σ ω α) (state : σ) : Prop :=
  match (body.run state).result with
  | .ok value => good value (body.run state).state
  | .error fault => faults fault

namespace Settles

variable {faults faults' : ε → Prop} {good good' : α → σ → Prop} {state : σ}

theorem pure {value : α} (holds : good value state) :
    Settles faults good (Pure.pure value : Exec ε σ ω α) state := holds

theorem throw {fault : ε} (described : faults fault) :
    Settles faults good (Exec.throw fault : Exec ε σ ω α) state := described

theorem get {good : σ → σ → Prop} (holds : good state state) :
    Settles faults good (Exec.get : Exec ε σ ω σ) state := holds

theorem modify {change : σ → σ} {good : Unit → σ → Prop} (holds : good () (change state)) :
    Settles faults good (Exec.modify change : Exec ε σ ω Unit) state := holds

theorem emit {observation : ω} {good : Unit → σ → Prop} (holds : good () state) :
    Settles faults good (Exec.emit observation : Exec ε σ ω Unit) state := holds

theorem ite {condition : Prop} [Decidable condition] {first second : Exec ε σ ω α}
    (one : condition → Settles faults good first state)
    (other : ¬condition → Settles faults good second state) :
    Settles faults good (if condition then first else second) state := by
  split
  · next holds => exact one holds
  · next fails => exact other fails

theorem require {condition : Prop} [Decidable condition] {fault : ε} {good : Unit → σ → Prop}
    (passes : condition → good () state) (refuses : ¬condition → faults fault) :
    Settles faults good (Exec.require condition fault : Exec ε σ ω Unit) state :=
  ite (fun holds => Settles.pure (passes holds)) fun fails => Settles.throw (refuses fails)

theorem when {condition : Prop} [Decidable condition] {body : Exec ε σ ω Unit}
    {good : Unit → σ → Prop} (guarded : condition → Settles faults good body state)
    (skipped : ¬condition → good () state) :
    Settles faults good (Exec.when condition body) state :=
  ite guarded fun fails => Settles.pure (skipped fails)

theorem mono {body : Exec ε σ ω α} (weaker : ∀ value after, good value after → good' value after)
    (weaker' : ∀ fault, faults fault → faults' fault) (settled : Settles faults good body state) :
    Settles faults' good' body state := by
  unfold Settles at settled ⊢
  generalize body.run state = outcome at settled ⊢
  obtain ⟨result, after, log⟩ := outcome
  cases result with
  | ok value => exact weaker value after settled
  | error fault => exact weaker' fault settled

theorem bind {first : Exec ε σ ω α} {next : α → Exec ε σ ω β} {good : β → σ → Prop}
    (settled : Settles faults (fun middle reached => Settles faults good (next middle) reached) first state) :
    Settles faults good (first >>= next) state := by
  unfold Settles at settled ⊢
  rw [bind_run]
  generalize first.run state = outcome at settled ⊢
  obtain ⟨result, after, log⟩ := outcome
  cases result with
  | ok middle => exact settled
  | error fault => exact settled

/-- A handler starts from where the fault was thrown. -/
theorem tryCatch {inner : ε → Prop} {body : Exec ε σ ω α} {handler : ε → Exec ε σ ω α}
    (settled : Settles inner good body state)
    (handled : ∀ fault, inner fault → (body.run state).result = .error fault →
      Settles faults good (handler fault) (body.run state).state) :
    Settles faults good (Exec.tryCatch body handler) state := by
  unfold Settles at settled handled ⊢
  rw [tryCatch_run]
  generalize body.run state = outcome at settled handled ⊢
  obtain ⟨result, after, log⟩ := outcome
  cases result with
  | ok value => exact settled
  | error fault => exact handled fault settled rfl

theorem focus {part : σ → τ} {put : τ → σ → σ} {body : Exec ε τ ω α}
    (settled : Settles faults (fun value inner => good value (put inner state)) body (part state)) :
    Settles faults good (Exec.focus part put body) state := settled

/-- A computation whose run is known settles there. -/
theorem of_run {body : Exec ε σ ω α} {value : α} {after : σ} {log : List ω}
    (ran : body.run state = ⟨.ok value, after, log⟩) (holds : good value after) :
    Settles faults good body state := by
  unfold Settles
  rw [ran]
  exact holds

/-- What is reached is what the run reaches. -/
theorem traced {body : Exec ε σ ω α} (settled : Settles faults good body state) :
    Settles faults
      (fun value after => good value after ∧ (body.run state).result = .ok value ∧
        after = (body.run state).state) body state := by
  unfold Settles at settled ⊢
  generalize body.run state = outcome at settled ⊢
  obtain ⟨result, after, log⟩ := outcome
  cases result with
  | ok value => exact ⟨settled, rfl, rfl⟩
  | error fault => exact settled

/-- Two things known of an end hold together. -/
theorem and {body : Exec ε σ ω α} (one : Settles faults good body state)
    (other : Settles faults' good' body state) :
    Settles (fun fault => faults fault ∧ faults' fault)
      (fun value after => good value after ∧ good' value after) body state := by
  unfold Settles at one other ⊢
  generalize body.run state = outcome at one other ⊢
  obtain ⟨result, after, log⟩ := outcome
  cases result with
  | ok value => exact ⟨one, other⟩
  | error fault => exact ⟨one, other⟩

theorem of_error {body : Exec ε σ ω α} (settled : Settles faults good body state) {fault : ε}
    (thrown : (body.run state).result = .error fault) : faults fault := by
  unfold Settles at settled
  rwa [thrown] at settled

theorem of_ok {body : Exec ε σ ω α} (settled : Settles faults good body state) {value : α}
    (returned : (body.run state).result = .ok value) : good value (body.run state).state := by
  unfold Settles at settled
  rwa [returned] at settled

end Settles

/-- A contract says how a computation ends from every state with its invariant. -/
theorem Meets.settles {invariant : σ → Prop} {returns : α → Prop} {faults : ε → Prop}
    {body : Exec ε σ ω α} (meets : Meets invariant returns faults body) {state : σ}
    (holds : invariant state) :
    Settles faults (fun value after => returns value ∧ invariant after) body state := by
  obtain ⟨kept, described, thrown⟩ := meets state holds
  unfold Settles
  generalize body.run state = outcome at kept described thrown ⊢
  obtain ⟨result, after, log⟩ := outcome
  cases result with
  | ok value => exact ⟨described value rfl, kept⟩
  | error fault => exact thrown fault rfl

end Exec
