import SymexVP.ActionRuns

/-!
# Systems that pass inputs on to components

A router decides, by a state of its own, whether an action of a system is an input for one
of the components behind it, and for which. A component takes an input by itself: it moves
to a next state and gives answers, or it fails and the system with it.

If every step of a system does to its components what the router says, then over any run each
component takes the inputs that were meant for it, in their order, as if it were alone.
-/

namespace RoutedSystem

open ActionRun

variable {ρ κ α β δ γ σ ω : Type}

/-- What an action is for, and what it does to the state this depends on. -/
structure Router (ρ κ α β : Type) where
  target : ρ → α → Option (κ × β)
  next : ρ → α → ρ

section Inputs

variable [DecidableEq κ]

/-- The inputs among some actions that are meant for a component. -/
def Router.inputs (router : Router ρ κ α β) (key : κ) : ρ → List α → List β
  | _, [] => []
  | routing, action :: rest =>
      match router.target routing action with
      | none => router.inputs key (router.next routing action) rest
      | some (goal, input) =>
          if goal = key then input :: router.inputs key (router.next routing action) rest
          else router.inputs key (router.next routing action) rest

/-- The answers among some events that were given by a component. -/
def answersOf (answered : ω → Option (κ × γ)) (key : κ) (log : List ω) : List γ :=
  log.filterMap fun event => (answered event).bind fun (source, answer) =>
    if source = key then some answer else none

theorem answersOf_append (answered : ω → Option (κ × γ)) (key : κ) (log more : List ω) :
    answersOf answered key (log ++ more) = answersOf answered key log ++ answersOf answered key more :=
  List.filterMap_append

end Inputs

/-- A component takes inputs one after the other. -/
def serve (exchange : δ → β → Option (δ × List γ)) : δ → List β → Option (δ × List γ)
  | component, [] => some (component, [])
  | component, input :: rest =>
      match exchange component input with
      | none => none
      | some (middle, answers) =>
          (serve exchange middle rest).map fun (last, more) => (last, answers ++ more)

theorem serve_cons {exchange : δ → β → Option (δ × List γ)} {component middle last : δ} {input : β}
    {rest : List β} {answers more : List γ}
    (exchanged : exchange component input = some (middle, answers))
    (served : serve exchange middle rest = some (last, more)) :
    serve exchange component (input :: rest) = some (last, answers ++ more) := by
  rw [serve, exchanged]
  dsimp only
  rw [served]
  rfl

/-- A component that has taken some inputs has taken the first one, and then the others. -/
theorem serve_eq_some {exchange : δ → β → Option (δ × List γ)} {component last : δ} {input : β}
    {rest : List β} {answers : List γ}
    (served : serve exchange component (input :: rest) = some (last, answers)) :
    ∃ middle first more, exchange component input = some (middle, first) ∧
      serve exchange middle rest = some (last, more) ∧ answers = first ++ more := by
  unfold serve at served
  cases exchanged : exchange component input with
  | none =>
      rw [exchanged] at served
      cases served
  | some next =>
      obtain ⟨middle, first⟩ := next
      rw [exchanged] at served
      obtain ⟨⟨reached, more⟩, continued, same⟩ := Option.map_eq_some_iff.mp served
      obtain ⟨rfl, rfl⟩ := Prod.mk.inj same
      exact ⟨middle, first, more, rfl, continued, rfl⟩

/-! ## Runs -/

/-- How a system has its components and the state of its router. -/
structure View (ρ κ β δ γ σ ω : Type) where
  routing : σ → ρ
  component : σ → κ → Option δ
  exchange : δ → β → Option (δ × List γ)
  answered : ω → Option (κ × γ)

variable [DecidableEq κ]

/-- A step has passed its action on to the component it is for, and to no other one. -/
structure Passes (router : Router ρ κ α β) (view : View ρ κ β δ γ σ ω) (state : σ) (action : α)
    (next : σ) (events : List ω) : Prop where
  routing : view.routing next = router.next (view.routing state) action
  idle : ∀ key, (∀ input, router.target (view.routing state) action ≠ some (key, input)) →
    view.component next key = view.component state key ∧ answersOf view.answered key events = []
  served : ∀ key input component, router.target (view.routing state) action = some (key, input) →
    view.component state key = some component →
    ∃ after answers, view.exchange component input = some (after, answers) ∧
      view.component next key = some after ∧ answersOf view.answered key events = answers

/-- Over a run, a component takes the inputs that are meant for it, and nothing else. -/
theorem serve_of_perform {router : Router ρ κ α β} {view : View ρ κ β δ γ σ ω}
    {step : σ → α → Option (σ × List ω)} {kept : σ → Prop}
    (keeps : ∀ {state action next events}, kept state →
      step state action = some (next, events) → kept next)
    (passes : ∀ {state action next events}, kept state →
      step state action = some (next, events) → Passes router view state action next events)
    {actions : List α} {state last : σ} {log : List ω} (holds : kept state)
    (ran : perform step state actions = some (last, log)) {key : κ} {component : δ}
    (present : view.component state key = some component) :
    ∃ after, view.component last key = some after ∧
      serve view.exchange component (router.inputs key (view.routing state) actions) =
        some (after, answersOf view.answered key log) := by
  induction actions generalizing state log component with
  | nil =>
      cases ran
      exact ⟨component, present, rfl⟩
  | cons action rest inductionHypothesis =>
      obtain ⟨middle, events, more, taken, continued, rfl⟩ := perform_cons ran
      have passed := passes holds taken
      have held := keeps holds taken
      rw [Router.inputs, ← passed.routing, answersOf_append]
      -- Either the action is for this component, or it leaves the component alone.
      by_cases meant : ∃ input, router.target (view.routing state) action = some (key, input)
      · obtain ⟨input, target⟩ := meant
        obtain ⟨next, answers, exchanged, reached, shown⟩ :=
          passed.served key input component target present
        obtain ⟨after, found, served⟩ := inductionHypothesis held continued reached
        refine ⟨after, found, ?_⟩
        simp only [target, if_true, shown]
        exact serve_cons exchanged served
      · have other := not_exists.mp meant
        obtain ⟨same, silent⟩ := passed.idle key other
        obtain ⟨after, found, served⟩ := inductionHypothesis held continued (same.trans present)
        refine ⟨after, found, ?_⟩
        rw [silent, List.nil_append]
        cases target : router.target (view.routing state) action with
        | none => exact served
        | some goal =>
            obtain ⟨goal, input⟩ := goal
            have different : goal ≠ key := by
              rintro rfl
              exact other input target
            simp only [if_neg different]
            exact served

end RoutedSystem
