import Mathlib.Data.Option.Basic
import Mathlib.Tactic.Basic

/-!
# Runs of systems that take actions

A system is given by what an action does to a state: nothing if the action is not
enabled there, else the next state and the events it shows. Threads are such systems
with one action per atomic step, and a run of any interleaving is a list of actions.

An invariant relates a state to the events shown so far. It holds after every run if it
holds before the first action and every enabled action keeps it; a condition on the
actions may be asked for along the run.
-/

namespace ActionRun

variable {σ α ω : Type}

/-- Take the actions in order; nothing if one of them is not enabled. -/
def perform (step : σ → α → Option (σ × List ω)) : σ → List α → Option (σ × List ω)
  | state, [] => some (state, [])
  | state, action :: rest =>
      match step state action with
      | none => none
      | some (middle, events) =>
          (perform step middle rest).map fun (last, more) => (last, events ++ more)

/-- A condition on each action and the state it is taken in holds along a run. -/
def Meets (step : σ → α → Option (σ × List ω)) (condition : σ → α → Prop) : σ → List α → Prop
  | _, [] => True
  | state, action :: rest =>
      condition state action ∧
        ∀ middle events, step state action = some (middle, events) →
          Meets step condition middle rest

variable {step : σ → α → Option (σ × List ω)} {state last : σ} {log : List ω}

theorem perform_cons {action : α} {rest : List α}
    (ran : perform step state (action :: rest) = some (last, log)) :
    ∃ middle events more, step state action = some (middle, events) ∧
      perform step middle rest = some (last, more) ∧ log = events ++ more := by
  simp only [perform] at ran
  cases taken : step state action with
  | none =>
      rw [taken] at ran
      cases ran
  | some next =>
      obtain ⟨middle, events⟩ := next
      rw [taken] at ran
      obtain ⟨⟨reached, more⟩, continued, same⟩ := Option.map_eq_some_iff.mp ran
      cases same
      exact ⟨middle, events, more, rfl, continued, rfl⟩

/-- An action and the run behind it. -/
theorem perform_of_step {action : α} {rest : List α} {middle : σ} {events more : List ω}
    (taken : step state action = some (middle, events))
    (continued : perform step middle rest = some (last, more)) :
    perform step state (action :: rest) = some (last, events ++ more) := by
  rw [perform, taken]
  dsimp only
  rw [continued]
  rfl

/-- Two runs, one after the other. -/
theorem perform_append {before after : List α} {middle : σ} {shown more : List ω}
    (first : perform step state before = some (middle, shown))
    (second : perform step middle after = some (last, more)) :
    perform step state (before ++ after) = some (last, shown ++ more) := by
  induction before generalizing state shown with
  | nil =>
      cases first
      exact second
  | cons action rest later =>
      obtain ⟨next, events, others, taken, continued, rfl⟩ := perform_cons first
      rw [List.append_assoc]
      exact perform_of_step taken (later continued)

/-- The last action of a run is taken in the state that the actions before it reach. -/
theorem perform_concat {before : List α} {action : α}
    (ran : perform step state (before ++ [action]) = some (last, log)) :
    ∃ middle shown events, perform step state before = some (middle, shown) ∧
      step middle action = some (last, events) ∧ log = shown ++ events := by
  induction before generalizing state log with
  | nil =>
      obtain ⟨middle, events, more, taken, ended, rfl⟩ := perform_cons ran
      cases ended
      exact ⟨state, [], events, rfl, taken, List.append_nil events⟩
  | cons first rest later =>
      obtain ⟨next, events, more, taken, continued, rfl⟩ := perform_cons ran
      obtain ⟨middle, shown, fresh, reached, final, rfl⟩ := later continued
      refine ⟨middle, events ++ shown, fresh, ?_, final, (List.append_assoc _ _ _).symm⟩
      simp only [perform, taken, reached, Option.map_some]

/-- A condition along a run is one on its first action and one along what follows. -/
theorem meets_cons {condition : σ → α → Prop} {action : α} {rest : List α} {middle : σ}
    {events : List ω} (taken : step state action = some (middle, events)) :
    Meets step condition state (action :: rest) ↔
      condition state action ∧ Meets step condition middle rest := by
  constructor
  · exact fun meets => ⟨meets.1, meets.2 middle events taken⟩
  · rintro ⟨first, later⟩
    refine ⟨first, ?_⟩
    intro next others same
    cases taken.symm.trans same
    exact later

theorem Meets.append {condition : σ → α → Prop} {before after : List α} {middle : σ}
    {shown : List ω} (reached : perform step state before = some (middle, shown))
    (first : Meets step condition state before) (second : Meets step condition middle after) :
    Meets step condition state (before ++ after) := by
  induction before generalizing state shown with
  | nil =>
      cases reached
      exact second
  | cons action rest later =>
      obtain ⟨next, events, more, taken, continued, rfl⟩ := perform_cons reached
      obtain ⟨now, afterwards⟩ := (meets_cons taken).mp first
      exact (meets_cons taken).mpr ⟨now, later continued afterwards⟩

theorem Meets.concat {condition : σ → α → Prop} {before : List α} {action : α}
    (meets : Meets step condition state (before ++ [action])) {middle : σ} {shown : List ω}
    (reached : perform step state before = some (middle, shown)) :
    Meets step condition state before ∧ condition middle action := by
  induction before generalizing state shown with
  | nil =>
      cases reached
      exact ⟨trivial, meets.1⟩
  | cons first rest later =>
      obtain ⟨next, events, more, taken, continued, rfl⟩ := perform_cons reached
      have kept := later (meets.2 next events taken) continued
      refine ⟨⟨meets.1, ?_⟩, kept.2⟩
      intro other shown same
      rw [taken] at same
      cases same
      exact kept.1

/-- Whether a given run meets a condition can be computed. -/
instance decidableMeets (condition : σ → α → Prop)
    [∀ state action, Decidable (condition state action)] :
    ∀ (state : σ) (actions : List α), Decidable (Meets step condition state actions)
  | _, [] => isTrue trivial
  | state, action :: rest =>
      match taken : step state action with
      | none => decidable_of_iff (condition state action) (by simp [Meets, taken])
      | some (middle, _) =>
          have := decidableMeets condition middle rest
          decidable_of_iff (condition state action ∧ Meets step condition middle rest)
            (by simp [Meets, taken])

section Invariants

variable {condition : σ → α → Prop} {invariant : List ω → σ → Prop}

/-- What every action that meets the condition keeps, a run of such actions keeps. -/
theorem perform_keeps
    (keeps : ∀ {log state action next events}, invariant log state → condition state action →
      step state action = some (next, events) → invariant (log ++ events) next)
    {actions : List α} {before : List ω} (holds : invariant before state)
    (meets : Meets step condition state actions)
    (ran : perform step state actions = some (last, log)) : invariant (before ++ log) last := by
  induction actions generalizing state before log with
  | nil =>
      cases ran
      rwa [List.append_nil]
  | cons action rest later =>
      obtain ⟨middle, events, more, taken, continued, rfl⟩ := perform_cons ran
      have kept : invariant (before ++ events) middle := keeps holds meets.1 taken
      have reached := later kept (meets.2 middle events taken) continued
      rwa [List.append_assoc] at reached

/-- The same for an invariant of the states alone. -/
theorem perform_keeps_state {kept : σ → Prop}
    (keeps : ∀ {state action next events}, kept state → condition state action →
      step state action = some (next, events) → kept next)
    {actions : List α} (holds : kept state) (meets : Meets step condition state actions)
    (ran : perform step state actions = some (last, log)) : kept last := by
  induction actions generalizing state log with
  | nil =>
      cases ran
      exact holds
  | cons action rest later =>
      obtain ⟨middle, events, more, taken, continued, -⟩ := perform_cons ran
      have next : kept middle := keeps holds meets.1 taken
      exact later next (meets.2 middle events taken) continued

theorem meets_true (actions : List α) : Meets step (fun _ _ => True) state actions := by
  induction actions generalizing state with
  | nil => trivial
  | cons action rest later => exact ⟨trivial, fun _ _ _ => later⟩

/-- An invariant that every action keeps holds after every run. -/
theorem perform_invariant
    (keeps : ∀ {log state action next events}, invariant log state →
      step state action = some (next, events) → invariant (log ++ events) next)
    {actions : List α} (holds : invariant [] state)
    (ran : perform step state actions = some (last, log)) : invariant log last :=
  perform_keeps (fun holds _ taken => keeps holds taken) holds (meets_true actions) ran

/-- Where the enabled actions are those that meet a condition, the runs are the lists of actions that
meet it all along. -/
theorem perform_isSome_iff {kept : σ → Prop}
    (enabled : ∀ {state action}, kept state →
      ((step state action).isSome = true ↔ condition state action))
    (keeps : ∀ {state action next events}, kept state →
      step state action = some (next, events) → kept next)
    {actions : List α} (holds : kept state) :
    (perform step state actions).isSome = true ↔ Meets step condition state actions := by
  induction actions generalizing state with
  | nil => exact iff_of_true rfl trivial
  | cons action rest later =>
      rw [perform, Meets, ← enabled holds]
      cases taken : step state action with
      | none => simp
      | some next =>
          obtain ⟨middle, events⟩ := next
          have continued := later (keeps holds taken)
          simp only [Option.isSome_map, continued, Option.isSome_some, true_and]
          constructor
          · rintro meets _ _ ⟨⟩
            exact meets
          · exact fun meets => meets middle events rfl

end Invariants

end ActionRun
