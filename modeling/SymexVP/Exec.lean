import Mathlib.Tactic

/-!
# Computations with state, faults and observations

A simulator written in an imperative language mutates its state, may leave a
function early by throwing, and reports some of what it does to an observer. A
computation of this library takes a state to an outcome: a result or a fault, the
state reached, and the observations made. A fault keeps the state reached, since
the throwing function has already made its changes.

The rules below are the ones a proof about such a simulator needs: how a relation
between the state before and after is carried through a computation, what it returns
or throws under an invariant, and how two computations that start in related states
stay related as long as the observations of the first one are acceptable.
-/

/-- What a computation leaves behind: a value or a fault, the state reached in either
case, and the observations made on the way, oldest first. -/
structure Outcome (ε σ ω α : Type) where
  result : Except ε α
  state : σ
  log : List ω

namespace Outcome

variable {ε σ ω α β : Type}

/-- Continue from a returned value; a fault skips what follows. -/
def andThen (outcome : Outcome ε σ ω α) (next : α → σ → Outcome ε σ ω β) : Outcome ε σ ω β :=
  match outcome with
  | ⟨.ok value, state, log⟩ =>
      ⟨(next value state).result, (next value state).state, log ++ (next value state).log⟩
  | ⟨.error fault, state, log⟩ => ⟨.error fault, state, log⟩

/-- Continue from a fault, on the state reached; a returned value is kept. -/
def recover (outcome : Outcome ε σ ω α) (handler : ε → σ → Outcome ε σ ω α) :
    Outcome ε σ ω α :=
  match outcome with
  | ⟨.ok value, state, log⟩ => ⟨.ok value, state, log⟩
  | ⟨.error fault, state, log⟩ =>
      ⟨(handler fault state).result, (handler fault state).state,
        log ++ (handler fault state).log⟩

@[simp] theorem andThen_ok (value : α) (state : σ) (log : List ω)
    (next : α → σ → Outcome ε σ ω β) :
    (⟨.ok value, state, log⟩ : Outcome ε σ ω α).andThen next =
      ⟨(next value state).result, (next value state).state, log ++ (next value state).log⟩ := rfl

@[simp] theorem andThen_error (fault : ε) (state : σ) (log : List ω)
    (next : α → σ → Outcome ε σ ω β) :
    (⟨.error fault, state, log⟩ : Outcome ε σ ω α).andThen next =
      ⟨.error fault, state, log⟩ := rfl

@[simp] theorem recover_ok (value : α) (state : σ) (log : List ω)
    (handler : ε → σ → Outcome ε σ ω α) :
    (⟨.ok value, state, log⟩ : Outcome ε σ ω α).recover handler = ⟨.ok value, state, log⟩ := rfl

@[simp] theorem recover_error (fault : ε) (state : σ) (log : List ω)
    (handler : ε → σ → Outcome ε σ ω α) :
    (⟨.error fault, state, log⟩ : Outcome ε σ ω α).recover handler =
      ⟨(handler fault state).result, (handler fault state).state,
        log ++ (handler fault state).log⟩ := rfl

end Outcome

/-- A computation over states `σ` that may fault with `ε` and observes `ω`. -/
structure Exec (ε σ ω α : Type) where
  /-- What the computation does from a state. -/
  run : σ → Outcome ε σ ω α

namespace Exec

variable {ε σ τ ω α β : Type}

instance : Monad (Exec ε σ ω) where
  pure value := ⟨fun state => ⟨.ok value, state, []⟩⟩
  bind first next := ⟨fun state => (first.run state).andThen fun value => (next value).run⟩

/-- The current state. -/
def get : Exec ε σ ω σ := ⟨fun state => ⟨.ok state, state, []⟩⟩

/-- Update the state. -/
def modify (change : σ → σ) : Exec ε σ ω Unit := ⟨fun state => ⟨.ok (), change state, []⟩⟩

/-- Leave the computation with a fault. -/
def throw (fault : ε) : Exec ε σ ω α := ⟨fun state => ⟨.error fault, state, []⟩⟩

/-- Report an observation. -/
def emit (observation : ω) : Exec ε σ ω Unit := ⟨fun state => ⟨.ok (), state, [observation]⟩⟩

/-- Continue only if a condition holds, as an assertion or a checked precondition does. -/
def require (condition : Prop) [Decidable condition] (fault : ε) : Exec ε σ ω Unit :=
  if condition then pure () else throw fault

/-- Run a computation only if a condition holds. -/
def when (condition : Prop) [Decidable condition] (body : Exec ε σ ω Unit) : Exec ε σ ω Unit :=
  if condition then body else pure ()

/-- Run a handler, on the state reached, for a fault of the computation. -/
def tryCatch (body : Exec ε σ ω α) (handler : ε → Exec ε σ ω α) : Exec ε σ ω α :=
  ⟨fun state => (body.run state).recover fun fault => (handler fault).run⟩

/-- Run a computation on a part of the state; the rest of the state is out of its reach. -/
def focus (part : σ → τ) (put : τ → σ → σ) (body : Exec ε τ ω α) : Exec ε σ ω α :=
  ⟨fun state =>
    ⟨(body.run (part state)).result, put (body.run (part state)).state state,
      (body.run (part state)).log⟩⟩

/-- Run a step a number of times and collect its values. -/
def times (step : Exec ε σ ω α) : Nat → Exec ε σ ω (List α)
  | 0 => pure []
  | count + 1 => do
      let value ← step
      let values ← times step count
      pure (value :: values)

/-! ## Evaluation -/

@[simp] theorem pure_run (value : α) (state : σ) :
    (pure value : Exec ε σ ω α).run state = ⟨.ok value, state, []⟩ := rfl

@[simp] theorem get_run (state : σ) :
    (get : Exec ε σ ω σ).run state = ⟨.ok state, state, []⟩ := rfl

@[simp] theorem modify_run (change : σ → σ) (state : σ) :
    (modify change : Exec ε σ ω Unit).run state = ⟨.ok (), change state, []⟩ := rfl

@[simp] theorem throw_run (fault : ε) (state : σ) :
    (throw fault : Exec ε σ ω α).run state = ⟨.error fault, state, []⟩ := rfl

@[simp] theorem emit_run (observation : ω) (state : σ) :
    (emit observation : Exec ε σ ω Unit).run state = ⟨.ok (), state, [observation]⟩ := rfl

@[simp] theorem focus_run (part : σ → τ) (put : τ → σ → σ) (body : Exec ε τ ω α) (state : σ) :
    (focus part put body).run state =
      ⟨(body.run (part state)).result, put (body.run (part state)).state state,
        (body.run (part state)).log⟩ := rfl

theorem require_of {condition : Prop} [Decidable condition] (holds : condition) (fault : ε) :
    (require condition fault : Exec ε σ ω Unit) = pure () := if_pos holds

theorem require_of_not {condition : Prop} [Decidable condition] (fails : ¬condition)
    (fault : ε) : (require condition fault : Exec ε σ ω Unit) = throw fault := if_neg fails

@[simp] theorem bind_run (first : Exec ε σ ω α) (next : α → Exec ε σ ω β) (state : σ) :
    (first >>= next).run state = (first.run state).andThen fun value => (next value).run := rfl

@[simp] theorem tryCatch_run (body : Exec ε σ ω α) (handler : ε → Exec ε σ ω α) (state : σ) :
    (tryCatch body handler).run state = (body.run state).recover fun fault => (handler fault).run := rfl

@[simp] theorem ite_run (condition : Prop) [Decidable condition] (first second : Exec ε σ ω α)
    (state : σ) :
    (if condition then first else second).run state =
      if condition then first.run state else second.run state := by
  split <;> rfl

theorem bind_assoc {γ : Type} (first : Exec ε σ ω α) (second : α → Exec ε σ ω β)
    (third : β → Exec ε σ ω γ) :
    (first >>= second) >>= third = first >>= fun value => second value >>= third := by
  have runs : ∀ state, ((first >>= second) >>= third).run state =
      (first >>= fun value => second value >>= third).run state := by
    intro state
    simp only [bind_run]
    generalize first.run state = outcome
    obtain ⟨result, after, log⟩ := outcome
    cases result with
    | error fault => rfl
    | ok value =>
        simp only [Outcome.andThen_ok, bind_run]
        generalize (second value).run after = outcome'
        obtain ⟨result', after', log'⟩ := outcome'
        cases result' with
        | error fault => rfl
        | ok value' => simp only [Outcome.andThen_ok, List.append_assoc]
  exact congrArg Exec.mk (funext runs)

/-- A sequence that returns has returned from its first part, and is there what follows. -/
theorem bind_eq_ok {first : Exec ε σ ω α} {next : α → Exec ε σ ω β} {state : σ} {value : β}
    (returned : ((first >>= next).run state).result = .ok value) :
    ∃ middle, (first.run state).result = .ok middle ∧
      ((next middle).run (first.run state).state).result = .ok value ∧
      ((first >>= next).run state).state = ((next middle).run (first.run state).state).state := by
  rw [bind_run] at returned ⊢
  generalize first.run state = outcome at returned ⊢
  obtain ⟨result, after, log⟩ := outcome
  cases result with
  | ok middle => exact ⟨middle, rfl, returned, rfl⟩
  | error fault => cases returned

/-- After its first part has returned, a sequence is what follows. -/
theorem bind_of_ok {first : Exec ε σ ω α} {state : σ} {value : α}
    (returned : (first.run state).result = .ok value) (next : α → Exec ε σ ω β) :
    ((first >>= next).run state).result = ((next value).run (first.run state).state).result ∧
      ((first >>= next).run state).state = ((next value).run (first.run state).state).state := by
  rw [bind_run]
  generalize first.run state = outcome at returned ⊢
  obtain ⟨result, after, log⟩ := outcome
  cases returned
  exact ⟨rfl, rfl⟩

/-- After what is guarded has thrown, a guarded computation is its handler. -/
theorem tryCatch_of_error {body : Exec ε σ ω α} {state : σ} {fault : ε}
    (thrown : (body.run state).result = .error fault) (handler : ε → Exec ε σ ω α) :
    ((tryCatch body handler).run state).result =
        ((handler fault).run (body.run state).state).result ∧
      ((tryCatch body handler).run state).state =
        ((handler fault).run (body.run state).state).state := by
  rw [tryCatch_run]
  generalize body.run state = outcome at thrown ⊢
  obtain ⟨result, after, log⟩ := outcome
  cases thrown
  exact ⟨rfl, rfl⟩

/-- A sequence throws what its first part throws, or what follows it throws. -/
theorem bind_eq_error {first : Exec ε σ ω α} {next : α → Exec ε σ ω β} {state : σ} {fault : ε} :
    ((first >>= next).run state).result = .error fault ↔
      (first.run state).result = .error fault ∨
        ∃ middle, (first.run state).result = .ok middle ∧
          ((next middle).run (first.run state).state).result = .error fault := by
  rw [bind_run]
  generalize first.run state = outcome
  obtain ⟨result, after, log⟩ := outcome
  cases result with
  | ok middle =>
      refine ⟨fun thrown => .inr ⟨middle, rfl, thrown⟩, ?_⟩
      rintro (impossible | ⟨_, ⟨⟩, thrown⟩)
      · cases impossible
      · exact thrown
  | error thrown =>
      refine ⟨?_, ?_⟩
      · rintro ⟨⟩
        exact .inl rfl
      · rintro (⟨⟨⟩⟩ | ⟨_, impossible, -⟩)
        · rfl
        · cases impossible

/-- A guarded computation that returns has returned itself, or its handler has. -/
theorem tryCatch_eq_ok {body : Exec ε σ ω α} {handler : ε → Exec ε σ ω α} {state : σ} {value : α}
    (returned : ((tryCatch body handler).run state).result = .ok value) :
    ((body.run state).result = .ok value ∧
        ((tryCatch body handler).run state).state = (body.run state).state) ∨
      ∃ fault, (body.run state).result = .error fault ∧
        ((handler fault).run (body.run state).state).result = .ok value ∧
        ((tryCatch body handler).run state).state =
          ((handler fault).run (body.run state).state).state := by
  rw [tryCatch_run] at returned ⊢
  generalize body.run state = outcome at returned ⊢
  obtain ⟨result, after, log⟩ := outcome
  cases result with
  | ok middle => exact .inl ⟨returned, rfl⟩
  | error fault => exact .inr ⟨fault, rfl, returned, rfl⟩

/-! ## What a computation that returns has done

The value, the state and the observations of a computation that returns, taken apart one
operation at a time. -/

/-- From `state` the computation returns `value`, reaches `last` and makes the observations. -/
def Returns (body : Exec ε σ ω α) (state : σ) (value : α) (last : σ) (log : List ω) : Prop :=
  body.run state = ⟨.ok value, last, log⟩

section Returns

variable {state last : σ} {log : List ω}

/-- A computation returns in one way at most. -/
theorem Returns.unique {body : Exec ε σ ω α} {value value' : α} {last' : σ} {log' : List ω}
    (returned : Returns body state value last log)
    (returned' : Returns body state value' last' log') :
    value = value' ∧ last = last' ∧ log = log' := by
  cases returned.symm.trans returned'
  exact ⟨rfl, rfl, rfl⟩

theorem returns_pure_iff {value other : α} :
    Returns (Pure.pure value : Exec ε σ ω α) state other last log ↔
      value = other ∧ state = last ∧ [] = log := by
  simp [Returns]

theorem returns_get_iff {value : σ} :
    Returns (Exec.get : Exec ε σ ω σ) state value last log ↔
      state = value ∧ state = last ∧ [] = log := by
  simp [Returns]

theorem returns_modify_iff {change : σ → σ} {value : Unit} :
    Returns (Exec.modify change : Exec ε σ ω Unit) state value last log ↔
      change state = last ∧ [] = log := by
  simp [Returns]

theorem returns_emit_iff {observation : ω} {value : Unit} :
    Returns (Exec.emit observation : Exec ε σ ω Unit) state value last log ↔
      state = last ∧ [observation] = log := by
  simp [Returns]

theorem returns_require_iff {condition : Prop} [Decidable condition] {fault : ε} {value : Unit} :
    Returns (Exec.require condition fault : Exec ε σ ω Unit) state value last log ↔
      condition ∧ state = last ∧ [] = log := by
  unfold Exec.require
  split_ifs with holds
  · rw [returns_pure_iff]
    simp [holds]
  · simp [Returns, holds]

theorem returns_throw_iff {fault : ε} {value : α} :
    Returns (Exec.throw fault : Exec ε σ ω α) state value last log ↔ False := by
  simp [Returns]

theorem returns_bind_iff {first : Exec ε σ ω α} {next : α → Exec ε σ ω β} {value : β} :
    Returns (first >>= next) state value last log ↔
      ∃ middle reached earlier later, Returns first state middle reached earlier ∧
        Returns (next middle) reached value last later ∧ earlier ++ later = log := by
  simp only [Returns, bind_run]
  generalize first.run state = outcome
  obtain ⟨result, reached, earlier⟩ := outcome
  cases result with
  | error fault => simp
  | ok middle =>
      rw [Outcome.andThen_ok]
      generalize ran : (next middle).run reached = outcome'
      obtain ⟨result', reached', later⟩ := outcome'
      constructor
      · intro returned
        cases returned
        exact ⟨middle, reached, earlier, later, rfl, ran, rfl⟩
      · rintro ⟨_, _, _, _, same, returned, rfl⟩
        cases same
        rw [ran] at returned
        cases returned
        rfl

/-- What runs only under a condition has run, or the condition fails and nothing has happened. -/
theorem returns_when_iff {condition : Prop} [Decidable condition] {body : Exec ε σ ω Unit}
    {value : Unit} : Returns (Exec.when condition body) state value last log ↔
      condition ∧ Returns body state () last log ∨ ¬condition ∧ state = last ∧ [] = log := by
  unfold Exec.when
  split_ifs with holds
  · simp [holds]
  · rw [returns_pure_iff]
    simp [holds]

end Returns

/-! ## What a computation does to the state

A reflexive and transitive relation between the state before and after a step holds
across every computation built from such steps, faulting or not. With equality of a
projection it is a frame rule; with an implication it is an invariant. -/

/-- Every outcome reaches a state related to the one it started from. -/
def Steps (related : σ → σ → Prop) (body : Exec ε σ ω α) : Prop :=
  ∀ state, related state (body.run state).state

namespace Steps

variable {related : σ → σ → Prop}

section Reflexive

variable [Std.Refl related]

theorem pure (value : α) : Steps related (Pure.pure value : Exec ε σ ω α) :=
  fun state => Std.Refl.refl state

theorem get : Steps related (Exec.get : Exec ε σ ω σ) := fun state => Std.Refl.refl state

theorem throw (fault : ε) : Steps related (Exec.throw fault : Exec ε σ ω α) :=
  fun state => Std.Refl.refl state

theorem emit (observation : ω) : Steps related (Exec.emit observation : Exec ε σ ω Unit) :=
  fun state => Std.Refl.refl state

theorem require (condition : Prop) [Decidable condition] (fault : ε) :
    Steps related (Exec.require condition fault : Exec ε σ ω Unit) := by
  intro state
  unfold Exec.require
  split
  · exact Steps.pure () state
  · exact Steps.throw fault state

end Reflexive

theorem modify {change : σ → σ} (changes : ∀ state, related state (change state)) :
    Steps related (Exec.modify change : Exec ε σ ω Unit) := changes

theorem ite {condition : Prop} [Decidable condition] {first second : Exec ε σ ω α}
    (one : Steps related first) (other : Steps related second) :
    Steps related (if condition then first else second) := by
  split
  · exact one
  · exact other

theorem when [Std.Refl related] {condition : Prop} [Decidable condition] {body : Exec ε σ ω Unit}
    (guarded : condition → Steps related body) : Steps related (Exec.when condition body) := by
  unfold Exec.when
  split
  · next holds => exact guarded holds
  · exact Steps.pure ()

theorem bind [IsTrans σ related] {first : Exec ε σ ω α} {next : α → Exec ε σ ω β}
    (head : Steps related first) (rest : ∀ value, Steps related (next value)) :
    Steps related (first >>= next) := by
  intro state
  have reached : related state (first.run state).state := head state
  rw [bind_run]
  generalize first.run state = outcome at reached ⊢
  obtain ⟨result, after, log⟩ := outcome
  cases result with
  | ok value => exact IsTrans.trans _ _ _ reached (rest value after)
  | error fault => exact reached

theorem tryCatch [IsTrans σ related] {body : Exec ε σ ω α} {handler : ε → Exec ε σ ω α}
    (guarded : Steps related body) (handled : ∀ fault, Steps related (handler fault)) :
    Steps related (Exec.tryCatch body handler) := by
  intro state
  have reached : related state (body.run state).state := guarded state
  rw [tryCatch_run]
  generalize body.run state = outcome at reached ⊢
  obtain ⟨result, after, log⟩ := outcome
  cases result with
  | ok value => exact reached
  | error fault => exact IsTrans.trans _ _ _ reached (handled fault after)

end Steps

/-- A view of the state is the same before and after. -/
def Unchanged (view : σ → β) (before after : σ) : Prop := view after = view before

instance (view : σ → β) : Std.Refl (Unchanged view) := ⟨fun _ => rfl⟩

instance (view : σ → β) : IsTrans σ (Unchanged view) :=
  ⟨fun _ _ _ earlier later => Eq.trans later earlier⟩

/-- A computation on a part of the state leaves every view alone that does not look at that
part. -/
theorem Steps.focus_of_unseen {part : σ → τ} {put : τ → σ → σ} {view : σ → β}
    (unseen : ∀ inner state, view (put inner state) = view state) (body : Exec ε τ ω α) :
    Steps (Unchanged view) (focus part put body) :=
  fun state => unseen _ state

/-! ## Contracts

From every state with the invariant, a computation reaches a state with the invariant,
and what it returns or throws is as described. -/

/-- The computation keeps the invariant, returns only values as described by `returns`, and
throws only faults as described by `faults`. -/
def Meets (invariant : σ → Prop) (returns : α → Prop) (faults : ε → Prop)
    (body : Exec ε σ ω α) : Prop :=
  ∀ state, invariant state → invariant (body.run state).state ∧
    (∀ value, (body.run state).result = .ok value → returns value) ∧
    ∀ fault, (body.run state).result = .error fault → faults fault

namespace Meets

variable {invariant : σ → Prop} {returns : α → Prop} {faults : ε → Prop}

theorem pure {value : α} (described : returns value) :
    Meets invariant returns faults (Pure.pure value : Exec ε σ ω α) := by
  refine fun state holds => ⟨holds, ?_, ?_⟩
  · rintro other ⟨⟩
    exact described
  · rintro fault ⟨⟩

theorem throw {fault : ε} (described : faults fault) :
    Meets invariant returns faults (Exec.throw fault : Exec ε σ ω α) := by
  refine fun state holds => ⟨holds, ?_, ?_⟩
  · rintro other ⟨⟩
  · rintro other ⟨⟩
    exact described

/-- The state that is read has the invariant. -/
theorem get : Meets invariant invariant faults (Exec.get : Exec ε σ ω σ) := by
  refine fun state holds => ⟨holds, ?_, ?_⟩
  · rintro other ⟨⟩
    exact holds
  · rintro fault ⟨⟩

theorem modify {change : σ → σ} (keeps : ∀ state, invariant state → invariant (change state)) :
    Meets invariant (fun _ => True) faults (Exec.modify change : Exec ε σ ω Unit) := by
  refine fun state holds => ⟨keeps state holds, fun _ _ => trivial, ?_⟩
  rintro fault ⟨⟩

theorem emit (observation : ω) :
    Meets invariant (fun _ => True) faults (Exec.emit observation : Exec ε σ ω Unit) := by
  refine fun state holds => ⟨holds, fun _ _ => trivial, ?_⟩
  rintro fault ⟨⟩

theorem ite {condition : Prop} [Decidable condition] {first second : Exec ε σ ω α}
    (one : condition → Meets invariant returns faults first)
    (other : ¬condition → Meets invariant returns faults second) :
    Meets invariant returns faults (if condition then first else second) := by
  split
  · next holds => exact one holds
  · next fails => exact other fails

/-- What follows a checked condition may rely on it. -/
theorem require {condition : Prop} [Decidable condition] {fault : ε} (described : faults fault) :
    Meets invariant (fun _ => condition) faults
      (Exec.require condition fault : Exec ε σ ω Unit) :=
  ite (fun holds => Meets.pure holds) fun _ => Meets.throw described

/-- A check that passes throws nothing. -/
theorem passes {condition : Prop} [Decidable condition] {fault : ε} (holds : condition) :
    Meets invariant (fun _ => True) faults (Exec.require condition fault : Exec ε σ ω Unit) :=
  ite (fun _ => Meets.pure trivial) fun fails => absurd holds fails

theorem when {condition : Prop} [Decidable condition] {body : Exec ε σ ω Unit}
    (guarded : condition → Meets invariant (fun _ => True) faults body) :
    Meets invariant (fun _ => True) faults (Exec.when condition body) :=
  ite guarded fun _ => Meets.pure trivial

theorem mono {returns' : α → Prop} {faults' : ε → Prop} {body : Exec ε σ ω α}
    (weaker : ∀ value, returns value → returns' value)
    (weaker' : ∀ fault, faults fault → faults' fault) (meets : Meets invariant returns faults body) :
    Meets invariant returns' faults' body := by
  intro state holds
  obtain ⟨kept, described, thrown⟩ := meets state holds
  exact ⟨kept, fun value returned => weaker value (described value returned),
    fun fault faulted => weaker' fault (thrown fault faulted)⟩

theorem focus {part : σ → τ} {put : τ → σ → σ} {inner : τ → Prop} {body : Exec ε τ ω α}
    (meets : Meets inner returns faults body)
    (same : ∀ state, invariant state ↔ inner (part state))
    (read : ∀ value state, part (put value state) = value) :
    Meets invariant returns faults (Exec.focus part put body) := by
  intro state holds
  obtain ⟨kept, described, thrown⟩ := meets (part state) ((same state).mp holds)
  refine ⟨?_, described, thrown⟩
  rw [same, focus_run, read]
  exact kept

theorem bind {results : β → Prop} {first : Exec ε σ ω α} {next : α → Exec ε σ ω β}
    (head : Meets invariant returns faults first)
    (rest : ∀ value, returns value → Meets invariant results faults (next value)) :
    Meets invariant results faults (first >>= next) := by
  intro state holds
  obtain ⟨kept, described, thrown⟩ := head state holds
  rw [bind_run]
  generalize first.run state = outcome at kept described thrown ⊢
  obtain ⟨result, after, log⟩ := outcome
  cases result with
  | ok value => exact rest value (described value rfl) after kept
  | error fault =>
      refine ⟨kept, ?_, ?_⟩
      · rintro value ⟨⟩
      · rintro other ⟨⟩
        exact thrown fault rfl

/-- A handler replaces the faults of what it guards by its own. -/
theorem tryCatch {body : Exec ε σ ω α} {handler : ε → Exec ε σ ω α} {inner : ε → Prop}
    (guarded : Meets invariant returns inner body)
    (handled : ∀ fault, inner fault → Meets invariant returns faults (handler fault)) :
    Meets invariant returns faults (Exec.tryCatch body handler) := by
  intro state holds
  obtain ⟨kept, described, thrown⟩ := guarded state holds
  rw [tryCatch_run]
  generalize body.run state = outcome at kept described thrown ⊢
  obtain ⟨result, after, log⟩ := outcome
  cases result with
  | ok value =>
      refine ⟨kept, described, ?_⟩
      rintro fault ⟨⟩
  | error fault => exact handled fault (thrown fault rfl) after kept

end Meets

/-- From a state with the first property, a computation ends in a state with the second,
whether it returns or throws. -/
def Ends (before after : σ → Prop) (body : Exec ε σ ω α) : Prop :=
  ∀ state, before state → after (body.run state).state

namespace Ends

variable {before after : σ → Prop}

/-- As long as a computation keeps the first property, what follows it decides the end. -/
theorem bind {returns : α → Prop} {faults : ε → Prop} {first : Exec ε σ ω α}
    {next : α → Exec ε σ ω β} (early : ∀ state, before state → after state)
    (head : Meets before returns faults first)
    (rest : ∀ value, returns value → Ends before after (next value)) :
    Ends before after (first >>= next) := by
  intro state holds
  obtain ⟨kept, described, -⟩ := head state holds
  rw [bind_run]
  generalize first.run state = outcome at kept described ⊢
  obtain ⟨result, middle, log⟩ := outcome
  cases result with
  | ok value => exact rest value (described value rfl) middle kept
  | error fault => exact early middle kept

theorem ite {condition : Prop} [Decidable condition] {first second : Exec ε σ ω α}
    (one : condition → Ends before after first) (other : ¬condition → Ends before after second) :
    Ends before after (if condition then first else second) := by
  split
  · next holds => exact one holds
  · next fails => exact other fails

end Ends

/-- A computation that leaves a view alone keeps every value of it. -/
theorem Steps.meets {view : σ → β} {body : Exec ε σ ω α} (steps : Steps (Unchanged view) body)
    (value : β) :
    Meets (fun state => view state = value) (fun _ => True) (fun _ => True) body :=
  fun state holds => ⟨(steps state).trans holds, fun _ _ => trivial, fun _ _ => trivial⟩

/-! ## Faults that leave no trace

A caught fault is precise if what was done before it was thrown does not show. The
effects of a computation then have to come after the last point at which it can throw
such a fault. -/

/-- Whenever the computation throws one of the `caught` faults, the state it leaves behind is
related to the one it started from. -/
def Precise (related : σ → σ → Prop) (caught : ε → Prop) (body : Exec ε σ ω α) : Prop :=
  ∀ state fault, caught fault → (body.run state).result = .error fault →
    related state (body.run state).state

namespace Precise

variable {related : σ → σ → Prop} {caught : ε → Prop}

theorem of_steps {body : Exec ε σ ω α} (steps : Steps related body) : Precise related caught body :=
  fun state _ _ _ => steps state

/-- A computation that throws none of these faults may do what it likes. -/
theorem of_meets {body : Exec ε σ ω α}
    (calm : Meets (fun _ => True) (fun _ => True) (fun fault => ¬caught fault) body) :
    Precise related caught body := by
  intro state fault caught thrown
  exact absurd caught ((calm state trivial).2.2 fault thrown)

/-- Nothing has to be undone for what comes first. -/
theorem bind [IsTrans σ related] {first : Exec ε σ ω α} {next : α → Exec ε σ ω β}
    (head : Steps related first) (rest : ∀ value, Precise related caught (next value)) :
    Precise related caught (first >>= next) := by
  intro state fault caught thrown
  have reached : related state (first.run state).state := head state
  rw [bind_run] at thrown ⊢
  generalize first.run state = outcome at reached thrown ⊢
  obtain ⟨result, after, log⟩ := outcome
  cases result with
  | ok value => exact IsTrans.trans _ _ _ reached (rest value after fault caught thrown)
  | error other => exact reached

/-- Once the first part has returned, what follows throws no such fault. -/
theorem bind_last {first : Exec ε σ ω α} {next : α → Exec ε σ ω β}
    (head : Precise related caught first)
    (calm : ∀ state value, (first.run state).result = .ok value → ∀ fault, caught fault →
      ((next value).run (first.run state).state).result ≠ .error fault) :
    Precise related caught (first >>= next) := by
  intro state fault caught thrown
  have precise := head state fault caught
  have later := calm state
  rw [bind_run] at thrown ⊢
  generalize first.run state = outcome at precise later thrown ⊢
  obtain ⟨result, after, log⟩ := outcome
  cases result with
  | ok value => exact absurd thrown (later value rfl fault caught)
  | error other =>
      cases thrown
      exact precise rfl

theorem ite {condition : Prop} [Decidable condition] {first second : Exec ε σ ω α}
    (one : Precise related caught first) (other : Precise related caught second) :
    Precise related caught (if condition then first else second) := by
  split
  · exact one
  · exact other

end Precise

/-! ## Who is to blame for a fault

Different causes may be reported as the same fault. A computation blames a set of causes
if the faults of interest that it throws are exactly the reports of these causes. -/

/-- From `state`, the `caught` faults the computation throws are the reports of the causes in
`fails`. -/
def Blames {φ : Type} (report : φ → ε) (caught : ε → Prop) (body : Exec ε σ ω α) (state : σ)
    (fails : φ → Prop) : Prop :=
  ∀ fault, caught fault →
    ((body.run state).result = .error fault ↔ ∃ cause, fails cause ∧ report cause = fault)

/-- The first computation returns, and what is said about the rest holds from there. -/
def After {φ : Type} (first : Exec ε σ ω α) (later : α → σ → φ → Prop) (state : σ) (cause : φ) :
    Prop :=
  ∃ value, (first.run state).result = .ok value ∧ later value (first.run state).state cause

namespace Blames

variable {φ : Type} {report : φ → ε} {caught : ε → Prop} {state : σ}

theorem nothing {body : Exec ε σ ω α}
    (calm : Meets (fun _ => True) (fun _ => True) (fun fault => ¬caught fault) body) :
    Blames report caught body state fun _ => False := by
  intro fault caught
  refine ⟨fun thrown => absurd caught ((calm state trivial).2.2 fault thrown), ?_⟩
  rintro ⟨_, ⟨⟩, -⟩

theorem pure (value : α) :
    Blames report caught (Pure.pure value : Exec ε σ ω α) state fun _ => False :=
  nothing (Meets.pure trivial)

/-- Throwing the report of a cause. -/
theorem throw (cause : φ) :
    Blames report caught (Exec.throw (report cause) : Exec ε σ ω α) state (· = cause) := by
  intro fault caught
  constructor
  · rintro ⟨⟩
    exact ⟨cause, rfl, rfl⟩
  · rintro ⟨_, rfl, rfl⟩
    rfl

theorem throw_bind (cause : φ) (next : α → Exec ε σ ω β) :
    Blames report caught (Exec.throw (report cause) >>= next) state (· = cause) :=
  fun fault caught => throw (α := β) cause fault caught

theorem mono {fails fails' : φ → Prop} {body : Exec ε σ ω α}
    (same : ∀ cause, fails cause ↔ fails' cause) (blames : Blames report caught body state fails) :
    Blames report caught body state fails' := by
  intro fault caught
  simp only [blames fault caught, same]

theorem bind {fails : φ → Prop} {later : α → σ → φ → Prop} {first : Exec ε σ ω α}
    {next : α → Exec ε σ ω β} (head : Blames report caught first state fails)
    (rest : ∀ value, (first.run state).result = .ok value →
      Blames report caught (next value) (first.run state).state
        (later value (first.run state).state)) :
    Blames report caught (first >>= next) state
      fun cause => fails cause ∨ After first later state cause := by
  intro fault caught
  rw [bind_eq_error, head fault caught]
  constructor
  · rintro (⟨cause, failed, reported⟩ | ⟨value, returned, thrown⟩)
    · exact ⟨cause, .inl failed, reported⟩
    · obtain ⟨cause, failed, reported⟩ := (rest value returned fault caught).mp thrown
      exact ⟨cause, .inr ⟨value, returned, failed⟩, reported⟩
  · rintro ⟨cause, failed | ⟨value, returned, failed⟩, reported⟩
    · exact .inl ⟨cause, failed, reported⟩
    · exact .inr ⟨value, returned, (rest value returned fault caught).mpr ⟨cause, failed, reported⟩⟩

/-- What cannot throw a caught fault is not to blame. -/
theorem calm_bind {later : α → σ → φ → Prop} {first : Exec ε σ ω α} {next : α → Exec ε σ ω β}
    (calm : Meets (fun _ => True) (fun _ => True) (fun fault => ¬caught fault) first)
    (rest : ∀ value, (first.run state).result = .ok value →
      Blames report caught (next value) (first.run state).state
        (later value (first.run state).state)) :
    Blames report caught (first >>= next) state (After first later state) :=
  (bind (nothing calm) rest).mono fun _ => by rw [false_or]

theorem bind_calm {fails : φ → Prop} {first : Exec ε σ ω α} {next : α → Exec ε σ ω β}
    (head : Blames report caught first state fails)
    (calm : ∀ value, Meets (fun _ => True) (fun _ => True) (fun fault => ¬caught fault)
      (next value)) :
    Blames report caught (first >>= next) state fails := by
  intro fault caught
  rw [bind_eq_error, head fault caught]
  refine or_iff_left ?_
  rintro ⟨value, -, thrown⟩
  exact (calm value _ trivial).2.2 fault thrown caught

/-- A handler that passes reports on, and makes no caught fault of another one. -/
theorem tryCatch {fails : φ → Prop} {body : Exec ε σ ω α} {handler : ε → Exec ε σ ω α}
    (guarded : Blames report caught body state fails)
    (passes : ∀ cause after, ((handler (report cause)).run after).result = .error (report cause))
    (others : ∀ fault, ¬caught fault →
      Meets (fun _ => True) (fun _ => True) (fun fault => ¬caught fault) (handler fault)) :
    Blames report caught (Exec.tryCatch body handler) state fails := by
  intro fault isCaught
  have guarded := fun fault isCaught => guarded fault isCaught
  rw [tryCatch_run]
  generalize body.run state = outcome at guarded ⊢
  obtain ⟨result, after, log⟩ := outcome
  cases result with
  | ok value => exact guarded fault isCaught
  | error thrown =>
      rw [← guarded fault isCaught]
      simp only [Outcome.recover_error, Except.error.injEq]
      by_cases same : caught thrown
      · obtain ⟨cause, -, rfl⟩ := (guarded thrown same).mp rfl
        rw [passes cause after, Except.error.injEq]
      · constructor
        · intro handled
          exact absurd isCaught ((others thrown same after trivial).2.2 fault handled)
        · rintro rfl
          exact absurd isCaught same

theorem get_bind {fails : φ → Prop} {next : σ → Exec ε σ ω β}
    (rest : Blames report caught (next state) state fails) :
    Blames report caught (Exec.get >>= next) state fails := rest

theorem modify_bind {fails : φ → Prop} {change : σ → σ} {next : Unit → Exec ε σ ω β}
    (rest : Blames report caught (next ()) (change state) fails) :
    Blames report caught (Exec.modify change >>= next) state fails := rest

theorem emit_bind {fails : φ → Prop} {observation : ω} {next : Unit → Exec ε σ ω β}
    (rest : Blames report caught (next ()) state fails) :
    Blames report caught (Exec.emit observation >>= next) state fails := rest

theorem require_bind {condition : Prop} [Decidable condition] {fails : φ → Prop} {fault : ε}
    {next : Unit → Exec ε σ ω β} (other : ¬caught fault)
    (rest : condition → Blames report caught (next ()) state fails) :
    Blames report caught (Exec.require condition fault >>= next) state
      fun cause => condition ∧ fails cause := by
  by_cases holds : condition
  · rw [require_of holds]
    exact mono (fun _ => (and_iff_right holds).symm) (rest holds)
  · rw [require_of_not holds]
    intro thrown isCaught
    constructor
    · rintro ⟨⟩
      exact absurd isCaught other
    · rintro ⟨_, both, -⟩
      exact absurd both.1 holds

theorem ite {condition : Prop} [Decidable condition] {first second : Exec ε σ ω α}
    {fails fails' : φ → Prop} (one : condition → Blames report caught first state fails)
    (other : ¬condition → Blames report caught second state fails') :
    Blames report caught (if condition then first else second) state
      fun cause => if condition then fails cause else fails' cause := by
  split
  · next holds => exact one holds
  · next fails => exact other fails

theorem when {condition : Prop} [Decidable condition] {body : Exec ε σ ω Unit} {fails : φ → Prop}
    (guarded : condition → Blames report caught body state fails) :
    Blames report caught (Exec.when condition body) state
      fun cause => condition ∧ fails cause := by
  unfold Exec.when
  split
  · next holds => exact mono (fun _ => (and_iff_right holds).symm) (guarded holds)
  · next fails => exact mono (fun _ => (false_iff _).mpr fun both => fails both.1) (pure ())

theorem pure_bind {fails : φ → Prop} {value : α} {next : α → Exec ε σ ω β}
    (rest : Blames report caught (next value) state fails) :
    Blames report caught (Pure.pure value >>= next) state fails := rest

theorem assoc {γ : Type} {first : Exec ε σ ω α} {second : α → Exec ε σ ω β}
    {third : β → Exec ε σ ω γ} {fails : φ → Prop}
    (nested : Blames report caught (first >>= fun value => second value >>= third) state fails) :
    Blames report caught ((first >>= second) >>= third) state fails := by
  rw [bind_assoc]
  exact nested

theorem ite_bind {condition : Prop} [Decidable condition] {first second : Exec ε σ ω α}
    {next : α → Exec ε σ ω β} {fails fails' : φ → Prop}
    (one : condition → Blames report caught (first >>= next) state fails)
    (other : ¬condition → Blames report caught (second >>= next) state fails') :
    Blames report caught ((if condition then first else second) >>= next) state
      fun cause => if condition then fails cause else fails' cause := by
  split
  · next holds => exact one holds
  · next fails => exact other fails

theorem focus {part : σ → τ} {put : τ → σ → σ} {fails : φ → Prop} {body : Exec ε τ ω α}
    (blames : Blames report caught body (part state) fails) :
    Blames report caught (Exec.focus part put body) state fails := blames

end Blames

/-! ## What a computation does and observes

Where the observations matter too, a computation is described by the steps it is made
of. Whatever is to be shown of it then only has to be shown of a single step, and to
survive putting steps in a row. -/

/-- Steps in a row, each with the observations it makes. -/
inductive Chain (step : σ → List ω → σ → Prop) : σ → List ω → σ → Prop
  | nothing (state : σ) : Chain step state [] state
  | append {state middle last : σ} {log more : List ω} (head : step state log middle)
      (rest : Chain step middle more last) : Chain step state (log ++ more) last

namespace Chain

variable {step : σ → List ω → σ → Prop} {state middle last : σ} {log more : List ω}

theorem single (taken : step state log last) : Chain step state log last := by
  have chain := Chain.append taken (.nothing last)
  rwa [List.append_nil] at chain

theorem trans (earlier : Chain step state log middle) (later : Chain step middle more last) :
    Chain step state (log ++ more) last := by
  induction earlier with
  | nothing => exact later
  | append head _ inductionHypothesis =>
      rw [List.append_assoc]
      exact .append head (inductionHypothesis later)

/-- A relation that holds of every step and can be put in a row holds of a chain. -/
theorem fold {related : σ → List ω → σ → Prop} (nothing : ∀ state, related state [] state)
    (append : ∀ {state middle last log more}, related state log middle →
      related middle more last → related state (log ++ more) last)
    (each : ∀ {state log last}, step state log last → related state log last)
    (chain : Chain step state log last) : related state log last := by
  induction chain with
  | nothing state => exact nothing state
  | append head _ inductionHypothesis => exact append (each head) inductionHypothesis

theorem mono {step' : σ → List ω → σ → Prop}
    (weaker : ∀ {state log last}, step state log last → step' state log last)
    (chain : Chain step state log last) : Chain step' state log last :=
  chain.fold .nothing Chain.trans fun taken => .single (weaker taken)

/-- Steps of a part are steps of the whole it is put into. -/
theorem map {inner : τ → List ω → τ → Prop} {first end_ : τ} (put : τ → σ)
    (lifts : ∀ {before log after}, inner before log after → step (put before) log (put after))
    (chain : Chain inner first log end_) : Chain step (put first) log (put end_) := by
  induction chain with
  | nothing => exact .nothing _
  | append head _ inductionHypothesis => exact .append (lifts head) inductionHypothesis

end Chain

/-- Whatever a computation does is a chain of steps, whether it returns or throws. -/
def Takes (step : σ → List ω → σ → Prop) (body : Exec ε σ ω α) : Prop :=
  ∀ state, Chain step state (body.run state).log (body.run state).state

namespace Takes

variable {step : σ → List ω → σ → Prop}

theorem pure (value : α) : Takes step (Pure.pure value : Exec ε σ ω α) := Chain.nothing

theorem get : Takes step (Exec.get : Exec ε σ ω σ) := Chain.nothing

theorem throw (fault : ε) : Takes step (Exec.throw fault : Exec ε σ ω α) := Chain.nothing

theorem emit {observation : ω} (observes : ∀ state, step state [observation] state) :
    Takes step (Exec.emit observation : Exec ε σ ω Unit) := fun state => .single (observes state)

theorem modify {change : σ → σ} (changes : ∀ state, step state [] (change state)) :
    Takes step (Exec.modify change : Exec ε σ ω Unit) := fun state => .single (changes state)

theorem ite {condition : Prop} [Decidable condition] {first second : Exec ε σ ω α}
    (one : Takes step first) (other : Takes step second) :
    Takes step (if condition then first else second) := by
  split
  · exact one
  · exact other

theorem require (condition : Prop) [Decidable condition] (fault : ε) :
    Takes step (Exec.require condition fault : Exec ε σ ω Unit) :=
  ite (Takes.pure ()) (Takes.throw fault)

theorem when {condition : Prop} [Decidable condition] {body : Exec ε σ ω Unit}
    (guarded : Takes step body) : Takes step (Exec.when condition body) :=
  ite guarded (Takes.pure ())

/-- What follows may rely on what the first part returns. -/
theorem bind_returns {returns : α → Prop} {first : Exec ε σ ω α} {next : α → Exec ε σ ω β}
    (head : Takes step first)
    (described : ∀ state value, (first.run state).result = .ok value → returns value)
    (rest : ∀ value, returns value → Takes step (next value)) : Takes step (first >>= next) := by
  intro state
  have taken := head state
  have known := described state
  rw [bind_run]
  generalize first.run state = outcome at taken known ⊢
  obtain ⟨result, after, log⟩ := outcome
  cases result with
  | ok value => exact taken.trans (rest value (known value rfl) after)
  | error fault => exact taken

theorem bind {first : Exec ε σ ω α} {next : α → Exec ε σ ω β} (head : Takes step first)
    (rest : ∀ value, Takes step (next value)) : Takes step (first >>= next) :=
  bind_returns head (fun _ _ _ => trivial) fun value _ => rest value

theorem tryCatch {body : Exec ε σ ω α} {handler : ε → Exec ε σ ω α} (guarded : Takes step body)
    (handled : ∀ fault, Takes step (handler fault)) :
    Takes step (Exec.tryCatch body handler) := by
  intro state
  have taken := guarded state
  rw [tryCatch_run]
  generalize body.run state = outcome at taken ⊢
  obtain ⟨result, after, log⟩ := outcome
  cases result with
  | ok value => exact taken
  | error fault => exact taken.trans (handled fault after)

theorem times {body : Exec ε σ ω α} (taken : Takes step body) (count : Nat) :
    Takes step (Exec.times body count) := by
  induction count with
  | zero => exact pure []
  | succ count inductionHypothesis =>
      exact bind taken fun _ => bind inductionHypothesis fun _ => pure _

/-- What holds across every step holds across the computation. -/
theorem steps {related : σ → σ → Prop} [Std.Refl related] [IsTrans σ related]
    {body : Exec ε σ ω α} (taken : Takes step body)
    (each : ∀ {before log after}, step before log after → related before after) :
    Steps related body := by
  intro state
  have chain := taken state
  generalize (body.run state).log = log, (body.run state).state = after at chain ⊢
  induction chain with
  | nothing state => exact Std.Refl.refl state
  | append head _ inductionHypothesis =>
      exact IsTrans.trans _ _ _ (each head) inductionHypothesis

/-- A property that every step keeps is kept. -/
theorem keeps {body : Exec ε σ ω α} (taken : Takes step body) (property : σ → Prop)
    (each : ∀ {before log after}, step before log after → property before → property after)
    {state : σ} (holds : property state) : property (body.run state).state := by
  have chain := taken state
  generalize (body.run state).log = log, (body.run state).state = after at chain ⊢
  induction chain with
  | nothing => exact holds
  | append head _ inductionHypothesis => exact inductionHypothesis (each head holds)

end Takes

/-! ## Two runs that stay related

The two computations start in related states. As long as every observation of the
first one is acceptable, the second one makes the same observations, ends in a
related state, and returns a related value or the same fault. -/

/-- Both outcomes return related values, or both fault in the same way. -/
inductive ResultRel (values : α → β → Prop) : Except ε α → Except ε β → Prop
  | ok {first : α} {second : β} (same : values first second) : ResultRel values (.ok first) (.ok second)
  | error (fault : ε) : ResultRel values (.error fault) (.error fault)

/-- The second computation follows the first one from every related pair of states. -/
def Sim (related : σ → τ → Prop) (good : ω → Prop) (values : α → β → Prop)
    (first : Exec ε σ ω α) (second : Exec ε τ ω β) : Prop :=
  ∀ state other, related state other → (∀ observation ∈ (first.run state).log, good observation) →
    (second.run other).log = (first.run state).log ∧ related (first.run state).state (second.run other).state ∧
      ResultRel values (first.run state).result (second.run other).result

namespace Sim

variable {α' β' : Type} {related : σ → τ → Prop} {good : ω → Prop} {values : α → α' → Prop}
  {results : β → β' → Prop}

theorem pure {value : α} {value' : α'} (same : values value value') :
    Sim related good values (Pure.pure value : Exec ε σ ω α) (Pure.pure value') :=
  fun _ _ states _ => ⟨rfl, states, .ok same⟩

theorem throw (fault : ε) :
    Sim related good values (Exec.throw fault : Exec ε σ ω α) (Exec.throw fault) :=
  fun _ _ states _ => ⟨rfl, states, .error fault⟩

theorem modify {change : σ → σ} {change' : τ → τ}
    (changes : ∀ state other, related state other → related (change state) (change' other)) :
    Sim related good (fun _ _ => True) (Exec.modify change : Exec ε σ ω Unit)
      (Exec.modify change') :=
  fun state other states _ => ⟨rfl, changes state other states, .ok trivial⟩

/-- An observation made by the first run is acceptable from there on. -/
theorem emit (observation : ω) :
    Sim related good (fun _ _ => good observation) (Exec.emit observation : Exec ε σ ω Unit)
      (Exec.emit observation) :=
  fun _ _ states accepted => ⟨rfl, states, .ok (accepted observation (List.mem_singleton_self _))⟩

theorem mono {values' : α → α' → Prop} {first : Exec ε σ ω α} {second : Exec ε τ ω α'}
    (weaker : ∀ value value', values value value' → values' value value')
    (follows : Sim related good values first second) : Sim related good values' first second := by
  intro state other states accepted
  obtain ⟨logs, after, results⟩ := follows state other states accepted
  refine ⟨logs, after, ?_⟩
  generalize (first.run state).result = result at results ⊢
  generalize (second.run other).result = result' at results ⊢
  cases results with
  | ok same => exact .ok (weaker _ _ same)
  | error fault => exact .error fault

theorem bind {first : Exec ε σ ω α} {second : Exec ε τ ω α'} {next : α → Exec ε σ ω β}
    {next' : α' → Exec ε τ ω β'} (head : Sim related good values first second)
    (rest : ∀ value value', values value value' →
      Sim related good results (next value) (next' value')) :
    Sim related good results (first >>= next) (second >>= next') := by
  intro state other states accepted
  simp only [bind_run] at accepted ⊢
  have step := head state other states
  generalize first.run state = outcome at step accepted ⊢
  generalize second.run other = outcome' at step ⊢
  obtain ⟨result, after, log⟩ := outcome
  obtain ⟨result', after', log'⟩ := outcome'
  cases result with
  | ok value =>
      simp only [Outcome.andThen_ok, List.mem_append] at accepted ⊢
      obtain ⟨logs, afters, related⟩ := step fun observation seen => accepted observation (.inl seen)
      cases related with
      | ok same =>
          obtain ⟨logs', ends, ending⟩ := rest _ _ same after after' afters
            fun observation seen => accepted observation (.inr seen)
          exact ⟨congrArg₂ (· ++ ·) logs logs', ends, ending⟩
  | error fault =>
      obtain ⟨logs, afters, related⟩ := step accepted
      cases related with
      | error => exact ⟨logs, afters, .error fault⟩

/-- Reading the state hands a related pair of states on to what follows. -/
theorem get_bind {next : σ → Exec ε σ ω β} {next' : τ → Exec ε τ ω β'}
    (rest : ∀ state other, related state other →
      Sim related good results (next state) (next' other)) :
    Sim related good results (Exec.get >>= next) (Exec.get >>= next') :=
  fun state other states accepted => rest state other states state other states accepted

theorem ite {condition condition' : Prop} [Decidable condition] [Decidable condition']
    {first second : Exec ε σ ω α} {first' second' : Exec ε τ ω α'}
    (agree : condition ↔ condition')
    (one : condition → Sim related good values first first')
    (other : ¬condition → Sim related good values second second') :
    Sim related good values (if condition then first else second)
      (if condition' then first' else second') := by
  by_cases holds : condition
  · rw [if_pos holds, if_pos (agree.mp holds)]
    exact one holds
  · rw [if_neg holds, if_neg fun chosen => holds (agree.mpr chosen)]
    exact other holds

theorem require {condition condition' : Prop} [Decidable condition] [Decidable condition']
    (agree : condition ↔ condition') (fault : ε) :
    Sim related good (fun _ _ => condition) (Exec.require condition fault : Exec ε σ ω Unit)
      (Exec.require condition' fault) :=
  ite agree (fun holds => pure holds) fun _ => throw fault

theorem when {condition condition' : Prop} [Decidable condition] [Decidable condition']
    {body : Exec ε σ ω Unit} {body' : Exec ε τ ω Unit} (agree : condition ↔ condition')
    (guarded : condition → Sim related good (fun _ _ => True) body body') :
    Sim related good (fun _ _ => True) (Exec.when condition body) (Exec.when condition' body') :=
  ite agree guarded fun _ => pure trivial

theorem tryCatch {body : Exec ε σ ω α} {body' : Exec ε τ ω α'} {handler : ε → Exec ε σ ω α}
    {handler' : ε → Exec ε τ ω α'} (guarded : Sim related good values body body')
    (handled : ∀ fault, Sim related good values (handler fault) (handler' fault)) :
    Sim related good values (Exec.tryCatch body handler) (Exec.tryCatch body' handler') := by
  intro state other states accepted
  simp only [tryCatch_run] at accepted ⊢
  have step := guarded state other states
  generalize body.run state = outcome at step accepted ⊢
  generalize body'.run other = outcome' at step ⊢
  obtain ⟨result, after, log⟩ := outcome
  obtain ⟨result', after', log'⟩ := outcome'
  cases result with
  | ok value =>
      obtain ⟨logs, afters, related⟩ := step accepted
      cases related with
      | ok same => exact ⟨logs, afters, .ok same⟩
  | error fault =>
      simp only [Outcome.recover_error, List.mem_append] at accepted ⊢
      obtain ⟨logs, afters, related⟩ := step fun observation seen => accepted observation (.inl seen)
      cases related with
      | error =>
          obtain ⟨logs', ends, ending⟩ := handled fault after after' afters
            fun observation seen => accepted observation (.inr seen)
          exact ⟨congrArg₂ (· ++ ·) logs logs', ends, ending⟩

/-- Related runs of related steps: the values collected correspond one by one. -/
theorem times {step : Exec ε σ ω α} {step' : Exec ε τ ω α'}
    (follows : Sim related good values step step') (count : Nat) :
    Sim related good (List.Forall₂ values) (Exec.times step count) (Exec.times step' count) := by
  induction count with
  | zero => exact pure .nil
  | succ count inductionHypothesis =>
      refine bind follows fun value value' same => ?_
      refine bind inductionHypothesis fun rest rest' others => ?_
      exact pure (.cons same others)

end Sim

/-! ## Runs -/

/-- The states a run passes through when every step returns. -/
inductive Reaches (step : Exec ε σ ω α) (start : σ) : σ → Prop
  | start : Reaches step start start
  | step {state : σ} {value : α} (earlier : Reaches step start state)
      (returned : (step.run state).result = .ok value) : Reaches step start (step.run state).state

theorem Reaches.trans {step : Exec ε σ ω α} {first middle last : σ}
    (earlier : Reaches step first middle) (later : Reaches step middle last) :
    Reaches step first last := by
  induction later with
  | start => exact earlier
  | step _ returned inductionHypothesis => exact .step inductionHypothesis returned

/-- The state after a number of steps. -/
def stateAfter (step : Exec ε σ ω α) : Nat → σ → σ
  | 0, state => state
  | count + 1, state => stateAfter step count (step.run state).state

/-- Whether that many steps all return. -/
def allReturn (step : Exec ε σ ω α) : Nat → σ → Bool
  | 0, _ => true
  | count + 1, state => (step.run state).result.isOk && allReturn step count (step.run state).state

theorem reaches_stateAfter {step : Exec ε σ ω α} {count : Nat} {start : σ}
    (returns : allReturn step count start = true) :
    Reaches step start (stateAfter step count start) := by
  induction count generalizing start with
  | zero => exact .start
  | succ count inductionHypothesis =>
      rw [allReturn, Bool.and_eq_true] at returns
      cases result : (step.run start).result with
      | ok value => exact (Reaches.step .start result).trans (inductionHypothesis returns.2)
      | error fault =>
          rw [result] at returns
          cases returns.1

/-- A property of the first state that every returning step keeps holds along the run. -/
theorem Reaches.invariant {step : Exec ε σ ω α} {start state : σ} {holds : σ → Prop}
    (initially : holds start)
    (kept : ∀ before value, holds before → (step.run before).result = .ok value →
      holds (step.run before).state)
    (reached : Reaches step start state) : holds state := by
  induction reached with
  | start => exact initially
  | step earlier returned inductionHypothesis => exact kept _ _ inductionHypothesis returned

end Exec
