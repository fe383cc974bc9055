import SymexVP.ArrayView
import SymexVP.PlicClaims

/-!
# The priorities of the interrupt controller

Behind every write of the bus to the priorities a loop over their view replaces those that
are greater than the greatest allowed. It leaves out the last register, which keeps what
the bus has stored in it.
-/

namespace SymexVP.Plic

open ActionRun Exec

variable {config : Config} {plic next : State} {action : Action} {actions : List Action}
  {log events : List Event}

/-! ## The loop -/

/-- `interrupt_priorities`, the view of the first range. -/
def prioritiesView (config : Config) : ArrayView where
  elementSize := 4
  memSize := (regsInterruptPriorities config).size
  elementPositive := by decide
  whole := Nat.mul_mod_right 4 _
  nonempty := by
    rw [regsInterruptPriorities, Nat.mul_div_cancel_left _ (by decide)]
    exact Nat.succ_pos _

theorem size_prioritiesView (config : Config) :
    (prioritiesView config).size = config.numberInterrupts + 1 :=
  Nat.mul_div_cancel_left _ (by decide)

/-- What the callback of a write does is the loop over the view. -/
theorem clampAll_eq_update (config : Config) (mem : RegisterMemory) :
    clampAll config mem = (prioritiesView config).update (clamp config) mem := by
  have loop := @ArrayView.update_eq_foldl (prioritiesView config) (clamp config) mem
  rw [size_prioritiesView, Nat.add_sub_cancel] at loop
  exact loop.symm

theorem get_clampAll (config : Config) (mem : RegisterMemory) (id : Nat) :
    (clampAll config mem).get 4 id =
      if id < config.numberInterrupts then clamp config (mem.get 4 id) else mem.get 4 id := by
  have updated := @ArrayView.get_update (prioritiesView config) (clamp config) mem id
  rw [size_prioritiesView, Nat.add_sub_cancel] at updated
  rw [clampAll_eq_update]
  exact updated

theorem clamp_le (config : Config) (priority : BitVec 32) :
    (clamp config priority).toNat ≤ config.maxPriority.toNat := by
  unfold clamp
  split_ifs with greater
  · exact Nat.le_refl _
  · exact Nat.le_of_not_lt greater

/-! ## What the bus stores -/

/-- A write of the bus to the priorities. -/
def writesPriorities (config : Config) : Action → Bool
  | .access (.write address _) => (regsInterruptPriorities config).contains address
  | _ => false

/-- The bytes an action puts into the range of the priorities. -/
def store (config : Config) (mem : RegisterMemory) : Action → RegisterMemory
  | .access (.write address src) =>
      if (regsInterruptPriorities config).contains address then
        mem.write ((regsInterruptPriorities config).toLocal address) src
      else mem
  | _ => mem

/-- The bytes the bus has stored in the range of the priorities. -/
def storedPriorities (config : Config) (actions : List Action) : RegisterMemory :=
  actions.foldl (store config) (initial config).interruptPriorities

theorem store_of_other (other : writesPriorities config action = false) (mem : RegisterMemory) :
    store config mem action = mem := by
  cases action with
  | access access =>
      cases access with
      | read address count => rfl
      | write address src => exact if_neg (Bool.eq_false_iff.mp other)
  | _ => rfl

theorem interruptPriorities_written (config : Config) (plic : State) (address : Nat)
    (src : List (BitVec 8)) :
    (written config plic address src).interruptPriorities =
      if writesPriorities config (.access (.write address src)) then
        clampAll config (store config plic.interruptPriorities (.access (.write address src)))
      else plic.interruptPriorities := by
  unfold written writesPriorities store
  dsimp only
  split_ifs <;> rfl

/-- A step stores the bytes of its write and clamps all registers but the last. -/
theorem interruptPriorities_of_step (moved : step config plic action = some (next, events)) :
    next.interruptPriorities =
      if writesPriorities config action then
        clampAll config (store config plic.interruptPriorities action)
      else plic.interruptPriorities := by
  have returned := returns_of_step moved
  cases action with
  | trigger id =>
      obtain ⟨-, rfl, -⟩ := returns_gateway returned
      rfl
  | access access =>
      cases access with
      | read address count =>
          obtain ⟨data, reached, _, _, accessed, answered, -⟩ := returns_bind_iff.mp returned
          obtain ⟨rfl, -⟩ := returns_emit_iff.mp answered
          rcases returns_transport_read accessed with ⟨rfl, -⟩ |
            ⟨offset, -, -, -, -, -, -, rfl, -, -⟩
          · rfl
          · rfl
      | write address src =>
          obtain ⟨_, reached, _, _, accessed, rest, -⟩ := returns_bind_iff.mp returned
          obtain ⟨-, rfl, -⟩ := returns_pure_iff.mp rest
          rw [← interruptPriorities_written]
          rcases returns_transport_write accessed with ⟨rfl, -⟩ | ⟨offset, called⟩
          · rfl
          · rcases returns_postWriteHartConfig called with ⟨-, rfl, -⟩ | ⟨-, -, -, decided⟩
            · rfl
            · rcases decided with ⟨-, -, rfl, -⟩ | ⟨-, rfl, -⟩ <;> rfl
  | run =>
      obtain ⟨_, _, _, _, looked, chosen, -⟩ := returns_bind_iff.mp returned
      obtain ⟨rfl, rfl, -⟩ := returns_get_iff.mp looked
      rcases returns_when_iff.mp chosen with ⟨-, ran⟩ | ⟨-, rfl, -⟩
      · obtain ⟨rfl, -, -⟩ := returns_run ran
        rfl
      · rfl

/-! ## Along a run -/

/-- All priorities but the last are at most the greatest. -/
def LowerClamped (config : Config) (plic : State) : Prop :=
  ∀ id < config.numberInterrupts, plic.priority id ≤ config.maxPriority.toNat

/-- All priorities are at most the greatest. -/
def Clamped (config : Config) (plic : State) : Prop :=
  ∀ id ≤ config.numberInterrupts, plic.priority id ≤ config.maxPriority.toNat

theorem lowerClamped_of_write (moved : step config plic action = some (next, events))
    (writes : writesPriorities config action = true) : LowerClamped config next := by
  intro id inside
  rw [State.priority, interruptPriorities_of_step moved, if_pos writes, get_clampAll,
    if_pos inside]
  exact clamp_le config _

theorem LowerClamped.step (clamped : LowerClamped config plic)
    (moved : step config plic action = some (next, events)) : LowerClamped config next := by
  by_cases writes : writesPriorities config action = true
  · exact lowerClamped_of_write moved writes
  · intro id inside
    rw [State.priority, interruptPriorities_of_step moved, if_neg writes]
    exact clamped id inside

/-- The last register takes what is stored in it. -/
theorem last_of_step {mem : RegisterMemory}
    (same : plic.interruptPriorities.get 4 config.numberInterrupts =
      mem.get 4 config.numberInterrupts)
    (moved : step config plic action = some (next, events)) :
    next.interruptPriorities.get 4 config.numberInterrupts =
      (store config mem action).get 4 config.numberInterrupts := by
  rw [interruptPriorities_of_step moved]
  by_cases writes : writesPriorities config action = true
  · rw [if_pos writes, get_clampAll, if_neg (Nat.lt_irrefl _)]
    cases action with
    | access access =>
        cases access with
        | read address count => cases writes
        | write address src =>
            have inside : (regsInterruptPriorities config).contains address = true := writes
            rw [store, store, if_pos inside, if_pos inside]
            exact RegisterMemory.get_write_congr same _ _
    | _ => cases writes
  · rw [if_neg writes, store_of_other (Bool.eq_false_iff.mpr writes)]
    exact same

theorem last_of_run {mem : RegisterMemory}
    (same : plic.interruptPriorities.get 4 config.numberInterrupts =
      mem.get 4 config.numberInterrupts)
    (ran : perform (step config) plic actions = some (next, log)) :
    next.interruptPriorities.get 4 config.numberInterrupts =
      (actions.foldl (store config) mem).get 4 config.numberInterrupts := by
  induction actions generalizing plic mem log with
  | nil =>
      cases ran
      exact same
  | cons action rest inductionHypothesis =>
      obtain ⟨middle, _, _, moved, continued, -⟩ := perform_cons ran
      exact inductionHypothesis (last_of_step same moved) continued

theorem LowerClamped.run (clamped : LowerClamped config plic)
    (ran : perform (Plic.step config) plic actions = some (next, log)) :
    LowerClamped config next :=
  perform_keeps_state (fun holds _ moved => LowerClamped.step holds moved) clamped
    (meets_true actions) ran

theorem lowerClamped_of_written (writes : ∃ action ∈ actions, writesPriorities config action = true)
    (ran : perform (step config) plic actions = some (next, log)) :
    LowerClamped config next := by
  obtain ⟨action, among, written⟩ := writes
  induction actions generalizing plic log with
  | nil => cases among
  | cons first rest inductionHypothesis =>
      obtain ⟨middle, _, _, moved, continued, -⟩ := perform_cons ran
      rcases List.mem_cons.mp among with rfl | later
      · exact (lowerClamped_of_write moved written).run continued
      · exact inductionHypothesis continued later

theorem interruptPriorities_of_unwritten
    (unwritten : ∀ action ∈ actions, writesPriorities config action = false)
    (ran : perform (step config) plic actions = some (next, log)) :
    next.interruptPriorities = plic.interruptPriorities := by
  induction actions generalizing plic log with
  | nil =>
      cases ran
      rfl
  | cons action rest inductionHypothesis =>
      obtain ⟨middle, _, _, moved, continued, -⟩ := perform_cons ran
      obtain ⟨first, others⟩ := List.forall_mem_cons.mp unwritten
      have kept := interruptPriorities_of_step moved
      rw [if_neg (Bool.eq_false_iff.mp first)] at kept
      exact (inductionHypothesis others continued).trans kept

theorem priority_initial {id : Nat} (inside : id < config.numberInterrupts) :
    (initial config).priority id = 1 := by
  have first : 4 * id / 4 = id := by omega
  rw [State.priority, RegisterMemory.toNat_get]
  simp [RegisterMemory.read, initial, List.range_succ, Clover.littleEndian, first, inside]

theorem clamped_iff : Clamped config plic ↔ LowerClamped config plic ∧
    plic.priority config.numberInterrupts ≤ config.maxPriority.toNat := by
  constructor
  · intro clamped
    exact ⟨fun id inside => clamped id inside.le, clamped _ le_rfl⟩
  · rintro ⟨lower, last⟩ id inside
    rcases Nat.lt_or_eq_of_le inside with before | rfl
    · exact lower id before
    · exact last

/-- Before anything is written the priorities are one. -/
theorem lowerClamped_iff (ran : perform (step config) (initial config) actions = some (plic, log)) :
    LowerClamped config plic ↔ (∃ action ∈ actions, writesPriorities config action = true) ∨
      config.numberInterrupts = 0 ∨ 0 < config.maxPriority.toNat := by
  by_cases writes : ∃ action ∈ actions, writesPriorities config action = true
  · exact iff_of_true (lowerClamped_of_written writes ran) (.inl writes)
  · have unwritten : ∀ action ∈ actions, writesPriorities config action = false :=
      fun action among => Bool.eq_false_iff.mpr fun written => writes ⟨action, among, written⟩
    have kept := interruptPriorities_of_unwritten unwritten ran
    have ones : ∀ id < config.numberInterrupts, plic.priority id = 1 := by
      intro id inside
      rw [State.priority, kept]
      exact priority_initial inside
    rw [or_iff_right writes]
    constructor
    · intro clamped
      rcases Nat.eq_zero_or_pos config.numberInterrupts with none | some
      · exact .inl none
      · have first := clamped 0 some
        rw [ones 0 some] at first
        exact .inr first
    · rintro (none | positive) id inside
      · omega
      · rw [ones id inside]
        exact positive

/-- A loop over a view visits every index but the last, so that the priorities are all at most the
greatest exactly if what the bus has stored in the last register is, and the initial priorities of
the others are unless something was written. -/
theorem priorities_clamped_iff
    (ran : perform (step config) (initial config) actions = some (plic, log)) :
    (∀ view : ArrayView, ¬view.VisitsAll ∧ ∀ index < view.size,
      (view.visits.count index = 1 ↔ index + 1 ≠ view.size)) ∧
    (Clamped config plic ↔
      ((storedPriorities config actions).get 4 config.numberInterrupts).toNat ≤
          config.maxPriority.toNat ∧
        ((∃ action ∈ actions, writesPriorities config action = true) ∨
          config.numberInterrupts = 0 ∨ 0 < config.maxPriority.toNat)) := by
  constructor
  · intro view
    exact ⟨view.not_visitsAll, fun index inside => ArrayView.visits_once_iff inside⟩
  · have last : plic.priority config.numberInterrupts =
        ((storedPriorities config actions).get 4 config.numberInterrupts).toNat :=
      congrArg BitVec.toNat (last_of_run rfl ran)
    rw [clamped_iff, lowerClamped_iff ran, last, and_comm]

/-- A priority above the greatest, and two bytes of the last register. -/
def storedPrefixes : List Action :=
  [.access (.write 0x0C [0xFF, 0, 0, 0]), .access (.write 0xD4 [5, 0])]

theorem priorities_clamped_prefixes : ∃ plic log,
    perform (step hifive) (initial hifive) storedPrefixes = some (plic, log) ∧
      Clamped hifive plic := by
  have runs : (perform (step hifive) (initial hifive) storedPrefixes).isSome = true := by
    decide +kernel
  obtain ⟨⟨plic, log⟩, ran⟩ := Option.isSome_iff_exists.mp runs
  exact ⟨plic, log, ran, (priorities_clamped_iff ran).2.mpr (by decide +kernel)⟩

/-- The last register keeps the priority eight. -/
theorem not_clamped_last : ¬(prioritiesView hifive).VisitsAll ∧ ∃ plic log,
    perform (step hifive) (initial hifive) [.access (.write 0xD4 [8, 0, 0, 0])] =
      some (plic, log) ∧ ¬Clamped hifive plic := by
  refine ⟨ArrayView.not_visitsAll _, ?_⟩
  have kept : (perform (step hifive) (initial hifive) [.access (.write 0xD4 [8, 0, 0, 0])]).map
      (fun (plic, _) => plic.priority 53) = some 8 := by decide +kernel
  obtain ⟨⟨plic, log⟩, ran, eight⟩ := Option.map_eq_some_iff.mp kept
  refine ⟨plic, log, ran, fun clamped => ?_⟩
  have small : plic.priority 53 ≤ 7 := clamped 53 (by decide)
  have eight : plic.priority 53 = 8 := eight
  omega

end SymexVP.Plic
