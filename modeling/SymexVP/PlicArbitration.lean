import SymexVP.FirstMaximum
import SymexVP.Plic

/-!
# Arbitration of the interrupt controller

What the functions of `FE310_PLIC` compute. The loop over the interrupts finds the first
of those with the greatest priority, or leaves one of the arrays. It is inside all of
them if the enable and pending words hold every interrupt and the hart is one of the
controller's.
-/

namespace SymexVP.Plic

open FirstMaximum

variable {config : Config} {plic : State} {hart id : Nat} {considerThreshold : Bool}

/-! ## Pending bits -/

theorem getLsbD_shifted_one {position index : Nat} (inside : index < 32) :
    (1#32 <<< position).getLsbD index = decide (index = position) := by
  rw [← BitVec.twoPow_eq, BitVec.getLsbD_twoPow]
  by_cases same : index = position
  · subst same
    simp [inside]
  · have different : position ≠ index := fun equal => same equal.symm
    simp [same, different]

theorem pending_updatePending (id other : Nat) (change : BitVec 32 → BitVec 32) (plic : State) :
    (updatePending id change plic).pending other =
      if other / 32 = id / 32 then
        (change (plic.pendingInterrupts.get 4 (id / 32))).getLsbD (other % 32)
      else plic.pending other := by
  by_cases sameWord : other / 32 = id / 32
  · rw [if_pos sameWord, State.pending, sameWord]
    exact congrArg (·.getLsbD (other % 32)) (RegisterMemory.get_set_self 4 _ _ _)
  · have kept := RegisterMemory.get_set_of_ne 4 sameWord plic.pendingInterrupts
      (change (plic.pendingInterrupts.get 4 (id / 32)))
    rw [if_neg sameWord]
    exact congrArg (fun word : BitVec 32 => word.getLsbD (other % 32)) kept

theorem pending_setPending (id other : Nat) (plic : State) :
    (setPending id plic).pending other = (plic.pending other || decide (other = id)) := by
  have inside : other % 32 < 32 := Nat.mod_lt _ (by decide)
  rw [setPending, pending_updatePending]
  by_cases sameWord : other / 32 = id / 32
  · have sameBit : other % 32 = id % 32 ↔ other = id := by omega
    rw [if_pos sameWord, BitVec.getLsbD_or, getLsbD_shifted_one inside, State.pending, sameWord]
    simp only [sameBit]
  · have different : other ≠ id := fun same => sameWord (by rw [same])
    simp [sameWord, different]

theorem pending_unsetPending (id other : Nat) (plic : State) :
    (unsetPending id plic).pending other = (plic.pending other && decide (other ≠ id)) := by
  have inside : other % 32 < 32 := Nat.mod_lt _ (by decide)
  rw [unsetPending, pending_updatePending]
  by_cases sameWord : other / 32 = id / 32
  · have sameBit : other % 32 = id % 32 ↔ other = id := by omega
    rw [if_pos sameWord, BitVec.getLsbD_and, BitVec.getLsbD_not, getLsbD_shifted_one inside,
      State.pending, sameWord]
    simp [inside, sameBit]
  · have different : other ≠ id := fun same => sameWord (by rw [same])
    simp [sameWord, different]

/-! ## The loop -/

/-- The condition of the loop on one interrupt. -/
def State.deliverable (plic : State) (hart : Nat) (considerThreshold : Bool) (id : Nat) : Bool :=
  plic.enabled hart id && plic.pending id && decide (0 < plic.priority id) &&
    (!considerThreshold || decide (plic.priorityThreshold hart < plic.priority id))

/-- The interrupt the loop ends with, and its priority. -/
def arbitrate (config : Config) (plic : State) (hart : Nat) (considerThreshold : Bool) : Nat × Nat :=
  search (plic.deliverable hart considerThreshold) plic.priority (config.numberInterrupts - 1)

/-- The words hold every interrupt. -/
def Config.Covers (config : Config) : Prop :=
  config.numberInterrupts ≤ 32 * config.numberInterruptEntries

/-- A computation that only looks: it leaves the state alone and returns a value, or leaves an
array; not the latter, if `inside` holds. -/
def Looks {α : Type} (inside : Prop) (body : PlicM α) (plic : State) (value : α) : Prop :=
  body.run plic = ⟨.ok value, plic, []⟩ ∨ ¬inside ∧ body.run plic = ⟨.error .outOfRange, plic, []⟩

theorem Looks.bind {α β : Type} {inside : Prop} {first : PlicM α} {next : α → PlicM β} {value : α}
    {result : β} (looks : Looks inside first plic value)
    (continues : Looks inside (next value) plic result) :
    Looks inside (first >>= next) plic result := by
  rcases looks with returned | ⟨outside, failed⟩
  · rcases continues with returned' | ⟨outside, failed⟩
    · exact .inl (by rw [Exec.bind_run, returned, Outcome.andThen_ok, returned']; rfl)
    · exact .inr ⟨outside, by rw [Exec.bind_run, returned, Outcome.andThen_ok, failed]; rfl⟩
  · exact .inr ⟨outside, by rw [Exec.bind_run, failed, Outcome.andThen_error]⟩

theorem Looks.returns_of_inside {α : Type} {inside : Prop} {body : PlicM α} {value : α}
    (looks : Looks inside body plic value) (holds : inside) :
    Exec.Returns body plic value plic [] := by
  rcases looks with returned | ⟨outside, -⟩
  · exact returned
  · exact absurd holds outside

theorem looks_checkIndex {inside : Prop} {size index : Nat} (bounded : inside → index < size) :
    Looks inside (checkIndex size index) plic () := by
  unfold checkIndex
  by_cases below : index < size
  · rw [Exec.require_of below]
    exact .inl rfl
  · rw [Exec.require_of_not below]
    exact .inr ⟨fun holds => below (bounded holds), rfl⟩

theorem looks_pure {α : Type} {inside : Prop} {value result : α} (same : value = result) :
    Looks inside (pure value) plic result := .inl (by rw [same]; rfl)

theorem looks_get {inside : Prop} : Looks inside Exec.get plic plic := .inl rfl

/-- The enable words of the controller's harts, overlapping as they are, lie in the array. -/
theorem enableWord_lt {word : Nat} (owns : hart < config.numberCores)
    (inside : word < config.numberInterruptEntries) :
    enableWord hart word < config.numberInterruptEntries * config.numberCores := by
  unfold enableWord
  nlinarith

theorem looks_eligible {inside : Prop} (covers : inside → config.Covers)
    (owns : inside → hart < config.numberCores) (valid : inside → id < config.numberInterrupts) :
    Looks inside (eligible config hart considerThreshold id) plic
      (plic.deliverable hart considerThreshold id) := by
  have word : inside → id / 32 < config.numberInterruptEntries := by
    intro holds
    have covered := covers holds
    have bounded := valid holds
    unfold Config.Covers at covered
    omega
  refine (looks_checkIndex fun holds => enableWord_lt (owns holds) (word holds)).bind ?_
  refine looks_get.bind ?_
  by_cases enabled : plic.enabled hart id = true
  · rw [if_pos enabled]
    refine (looks_checkIndex word).bind ?_
    by_cases pending : plic.pending id = true
    · rw [if_pos pending]
      refine (looks_checkIndex fun holds => Nat.lt_succ_of_lt (valid holds)).bind ?_
      by_cases positive : 0 < plic.priority id
      · rw [if_pos positive]
        cases considerThreshold with
        | true =>
            refine (looks_checkIndex owns).bind (looks_pure ?_)
            simp [State.deliverable, enabled, pending, positive]
        | false => exact looks_pure (by simp [State.deliverable, enabled, pending, positive])
      · rw [if_neg positive]
        exact looks_pure (by simp [State.deliverable, positive])
    · rw [if_neg pending]
      exact looks_pure (by simp [State.deliverable, pending])
  · rw [if_neg enabled]
    exact looks_pure (by simp [State.deliverable, enabled])

theorem looks_scan {inside : Prop} (covers : inside → config.Covers)
    (owns : inside → hart < config.numberCores) {ids : List Nat}
    (valid : ∀ id ∈ ids, id < config.numberInterrupts) (best : Nat × Nat) :
    Looks inside (scan config hart considerThreshold ids best) plic
      (ids.foldl (improve (plic.deliverable hart considerThreshold) plic.priority) best) := by
  induction ids generalizing best with
  | nil => exact looks_pure rfl
  | cons id rest later =>
      refine (looks_eligible covers owns fun _ => valid id List.mem_cons_self).bind ?_
      refine looks_get.bind ?_
      exact later (fun other member => valid other (List.mem_cons_of_mem id member)) _

/-- The loop finds what the arbitration says, unless it leaves an array. -/
theorem looks_next {inside : Prop} (covers : inside → config.Covers)
    (owns : inside → hart < config.numberCores) :
    Looks inside (hartGetNextPendingInterrupt config hart considerThreshold) plic
      (arbitrate config plic hart considerThreshold).1 := by
  have valid : ∀ id ∈ List.range' 1 (config.numberInterrupts - 1), id < config.numberInterrupts := by
    intro id member
    have bounds := List.mem_range'_1.mp member
    omega
  exact (looks_scan covers owns valid (0, 0)).bind (looks_pure rfl)

/-- `hart_has_pending_enabled_interrupts`, where it does not leave an array. -/
def hasPending (config : Config) (plic : State) (hart : Nat) : Bool :=
  decide (0 < (arbitrate config plic hart true).1)

theorem looks_hasPending {inside : Prop} (covers : inside → config.Covers)
    (owns : inside → hart < config.numberCores) :
    Looks inside (hartHasPendingEnabledInterrupts config hart) plic
      (hasPending config plic hart) :=
  (looks_next covers owns).bind (looks_pure rfl)

/-! ## What the arbitration finds -/

/-- An interrupt that can be claimed, or delivered above the threshold. -/
structure Candidate (config : Config) (plic : State) (hart : Nat) (considerThreshold : Bool)
    (id : Nat) : Prop where
  valid : 0 < id ∧ id < config.numberInterrupts
  enabled : plic.enabled hart id = true
  pending : plic.pending id = true
  positive : 0 < plic.priority id
  above : considerThreshold = true → plic.priorityThreshold hart < plic.priority id

theorem deliverable_iff : plic.deliverable hart considerThreshold id = true ↔
    plic.enabled hart id = true ∧ plic.pending id = true ∧ 0 < plic.priority id ∧
      (considerThreshold = true → plic.priorityThreshold hart < plic.priority id) := by
  cases considerThreshold <;> simp [State.deliverable, and_assoc]

theorem candidate_iff : Candidate config plic hart considerThreshold id ↔
    1 ≤ id ∧ id ≤ config.numberInterrupts - 1 ∧
      plic.deliverable hart considerThreshold id = true := by
  rw [deliverable_iff]
  constructor
  · rintro ⟨⟨lower, upper⟩, enabled, pending, positive, above⟩
    exact ⟨lower, by omega, enabled, pending, positive, above⟩
  · rintro ⟨lower, upper, enabled, pending, positive, above⟩
    exact ⟨⟨lower, by omega⟩, enabled, pending, positive, above⟩

/-- The arbitration ends with the lowest of the candidates with the greatest priority, or
with zero if there is none. -/
theorem arbitrate_spec (config : Config) (plic : State) (hart : Nat) (considerThreshold : Bool) :
    ((arbitrate config plic hart considerThreshold).1 = 0 ↔
        ¬∃ id, Candidate config plic hart considerThreshold id) ∧
      ((arbitrate config plic hart considerThreshold).1 ≠ 0 →
        Candidate config plic hart considerThreshold
            (arbitrate config plic hart considerThreshold).1 ∧
          ∀ id, Candidate config plic hart considerThreshold id →
            plic.priority id < plic.priority (arbitrate config plic hart considerThreshold).1 ∨
              plic.priority id = plic.priority (arbitrate config plic hart considerThreshold).1 ∧
                (arbitrate config plic hart considerThreshold).1 ≤ id) := by
  have best := best_search (plic.deliverable hart considerThreshold) plic.priority
    (config.numberInterrupts - 1)
  rw [← arbitrate] at best
  generalize arbitrate config plic hart considerThreshold = winner at best ⊢
  have found : winner.1 ≠ 0 → Candidate config plic hart considerThreshold winner.1 := by
    intro kept
    obtain ⟨inside, eligible, -⟩ := best.some kept
    exact candidate_iff.mpr ⟨Nat.pos_of_ne_zero kept, inside, eligible⟩
  refine ⟨⟨?_, ?_⟩, ?_⟩
  · rintro empty ⟨id, candidate⟩
    obtain ⟨lower, upper, eligible⟩ := candidate_iff.mp candidate
    have zero := (best.none empty).2 id lower upper eligible
    exact Nat.lt_irrefl 0 (zero ▸ candidate.positive)
  · intro none
    by_contra kept
    exact none ⟨winner.1, found kept⟩
  · intro kept
    refine ⟨found kept, ?_⟩
    intro id candidate
    obtain ⟨-, -, same, -, greatest⟩ := best.some kept
    obtain ⟨lower, upper, eligible⟩ := candidate_iff.mp candidate
    rw [same]
    exact greatest id lower upper eligible

theorem hasPending_iff : hasPending config plic hart = true ↔
    ∃ id, Candidate config plic hart true id := by
  have spec := (arbitrate_spec config plic hart true).1
  rw [hasPending, decide_eq_true_iff, Nat.pos_iff_ne_zero, ne_eq, spec, not_not]

/-- The winner is a number of an interrupt, or zero. -/
theorem arbitrate_lt (config : Config) (plic : State) (hart : Nat) (considerThreshold : Bool)
    (positive : 0 < config.numberInterrupts) :
    (arbitrate config plic hart considerThreshold).1 < config.numberInterrupts := by
  by_cases empty : (arbitrate config plic hart considerThreshold).1 = 0
  · rw [empty]
    exact positive
  · exact ((arbitrate_spec config plic hart considerThreshold).2 empty).1.valid.2

end SymexVP.Plic
