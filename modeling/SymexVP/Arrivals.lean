import SymexVP.ActionRuns

/-!
# Inputs of one party among arrivals from elsewhere

Some actions of a system are the inputs of a party that waits for answers, and between any two
of them others may arrive. A run without arrivals is compared here with the runs in which there
are some: as long as an input is one that arrivals do not bear upon, every one of these runs shows
what the undisturbed one does.
-/

namespace ActionRun

variable {σ α ω : Type}

/-- A state in which something has arrived is beside the one where it has not. Arrivals show
nothing, and an input that meets the condition shows the same in both. -/
structure Undisturbed (step : σ → α → Option (σ × List ω)) (isInput : α → Bool)
    (condition : σ → α → Prop) (beside : σ → σ → Prop) : Prop where
  arrives : ∀ {state other action}, beside state other → isInput action = false →
    ∃ next, step other action = some (next, []) ∧ beside state next
  takes : ∀ {state other action middle events}, beside state other → isInput action = true →
    condition state action → step state action = some (middle, events) →
    ∃ next, step other action = some (next, events) ∧ beside middle next

variable {step : σ → α → Option (σ × List ω)} {isInput : α → Bool} {condition : σ → α → Prop}
  {beside : σ → σ → Prop}

/-- Whatever arrives in between, the inputs show what they show by themselves. -/
theorem Undisturbed.perform (undisturbed : Undisturbed step isInput condition beside)
    {actions : List α} {state other last : σ} {log : List ω} (related : beside state other)
    (meets : Meets step condition state (actions.filter isInput))
    (ran : perform step state (actions.filter isInput) = some (last, log)) :
    ∃ reached, ActionRun.perform step other actions = some (reached, log) ∧ beside last reached := by
  induction actions generalizing state other log with
  | nil =>
      cases ran
      exact ⟨other, rfl, related⟩
  | cons action rest inductionHypothesis =>
      cases kind : isInput action with
      | false =>
          rw [List.filter_cons_of_neg (by rw [kind]; decide)] at meets ran
          obtain ⟨next, taken, kept⟩ := undisturbed.arrives related kind
          obtain ⟨reached, continued, final⟩ := inductionHypothesis kept meets ran
          exact ⟨reached, perform_of_step taken continued, final⟩
      | true =>
          rw [List.filter_cons_of_pos kind] at meets ran
          obtain ⟨middle, events, more, taken, later, rfl⟩ := perform_cons ran
          obtain ⟨now, afterwards⟩ := (meets_cons taken).mp meets
          obtain ⟨next, taken', kept⟩ := undisturbed.takes related kind now taken
          obtain ⟨reached, continued, final⟩ := inductionHypothesis kept afterwards later
          exact ⟨reached, perform_of_step taken' continued, final⟩

end ActionRun
