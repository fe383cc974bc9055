import SymexVP.PlicSteps

/-!
# Claims of the interrupt controller

A controller with one hart along whole runs. The pending bits are changed by gateways and
claims only, since their range is read-only: a gateway sets the bit of its interrupt, and
a claim clears the bit of the one it returns.
-/

namespace SymexVP.Plic

open ActionRun Exec

variable {config : Config} {plic next : State} {action : Action} {log events : List Event}

theorem returns_of_step (moved : step config plic action = some (next, events)) :
    Returns (act config action) plic () next events := by
  unfold step at moved
  split at moved
  case h_1 ran =>
    cases moved
    exact ran
  case h_2 => cases moved

theorem step_of_returns (returned : Returns (act config action) plic () next events) :
    step config plic action = some (next, events) := by
  rw [Returns] at returned
  simp only [step, returned]

/-! ## Effects on the pending bits -/

/-- An event that is no matter of pending bits. -/
def Event.besidesPending : Event → Bool
  | .gateway _ | .claimed _ => false
  | _ => true

/-- What an action can do to the pending bits. -/
inductive Effect (config : Config) (plic next : State) (events : List Event) : Prop
  | gateway (id : Nat) (valid : 0 < id ∧ id < config.numberInterrupts)
      (sets : next = { setPending id plic with eRun := true }) (shown : events = [.gateway id])
  | claim (address : Nat) (inside : address + 4 ≤ 8 * config.numberCores) (aligned : address % 4 = 0)
      (odd : address / 4 % 2 = 1) (owns : address / 4 - 1 < config.numberCores)
      (claims : next = claim config plic (address / 4 - 1))
      (shown : events = [.claimed (arbitrate config plic 0 false).1,
        .answered (next.hartConfig.read address 4)])
  | other (keeps : next.pendingInterrupts = plic.pendingInterrupts)
      (besides : ∀ event ∈ events, event.besidesPending = true)

theorem effect_of_step (moved : step config plic action = some (next, events)) :
    Effect config plic next events := by
  have returned := returns_of_step moved
  cases action with
  | trigger id =>
      obtain ⟨valid, sets, shown⟩ := returns_gateway returned
      exact .gateway id valid sets shown
  | access access =>
      cases access with
      | read address count =>
          obtain ⟨data, reached, earlier, later, accessed, answered, rfl⟩ :=
            returns_bind_iff.mp returned
          obtain ⟨rfl, rfl⟩ := returns_emit_iff.mp answered
          rcases returns_transport_read accessed with ⟨rfl, rfl⟩ |
            ⟨offset, -, fits, aligned, odd, -, owns, rfl, rfl, rfl⟩
          · refine .other rfl ?_
            rintro event (_ | ⟨_, ⟨⟩⟩)
            rfl
          · exact .claim offset fits aligned odd owns rfl rfl
      | write address data =>
          obtain ⟨_, reached, earlier, later, accessed, rest, rfl⟩ := returns_bind_iff.mp returned
          obtain ⟨-, rfl, rfl⟩ := returns_pure_iff.mp rest
          have kept := pendingInterrupts_written config plic address data
          rcases returns_transport_write accessed with ⟨rfl, rfl⟩ | ⟨offset, called⟩
          · exact .other kept (by simp)
          · rcases returns_postWriteHartConfig called with ⟨-, rfl, rfl⟩ | ⟨-, -, -, decided⟩
            · exact .other kept (by simp)
            · rcases decided with ⟨-, -, rfl, rfl⟩ | ⟨-, rfl, rfl⟩
              · refine .other kept ?_
                rintro event (_ | ⟨_, ⟨⟩⟩)
                rfl
              · refine .other kept ?_
                rintro event (_ | ⟨_, ⟨⟩⟩)
                rfl
  | run =>
      obtain ⟨_, _, _, _, looked, chosen, rfl⟩ := returns_bind_iff.mp returned
      obtain ⟨rfl, rfl, rfl⟩ := returns_get_iff.mp looked
      rcases returns_when_iff.mp chosen with ⟨-, ran⟩ | ⟨-, rfl, rfl⟩
      · obtain ⟨rfl, -, shown⟩ := returns_run ran
        refine .other rfl ?_
        intro event member
        obtain ⟨hart, rfl⟩ := shown event member
        rfl
      · exact .other rfl (by simp)

/-- A claim clears the bit of the interrupt it returns and no other. -/
theorem pending_claim (idx other : Nat) : (claim config plic idx).pending other =
    (plic.pending other && decide (other ≠ (arbitrate config plic 0 false).1)) :=
  pending_unsetPending _ other _

/-! ## Triggers and claims along a run -/

/-- How often an interrupt was claimed, with the claim that is still due, is at most how often
it was triggered. There is no interrupt zero. -/
structure Balanced (log : List Event) (plic : State) : Prop where
  zero : plic.pending 0 = false
  counts : ∀ id, id ≠ 0 →
    log.count (.claimed id) + (plic.pending id).toNat ≤ log.count (.gateway id)

theorem pending_initial (config : Config) (id : Nat) : (initial config).pending id = false := by
  have word : (initial config).pendingInterrupts.get 4 (id / 32) = 0 := by
    simp [initial, RegisterMemory.get, List.range_succ, Clover.littleEndian]
  simp [State.pending, word]

theorem balanced_initial (config : Config) : Balanced [] (initial config) := by
  refine ⟨pending_initial config 0, ?_⟩
  intro id _
  simp [pending_initial config id]

theorem count_besidesPending {event : Event} (due : event.besidesPending = false)
    (besides : ∀ other ∈ events, other.besidesPending = true) : events.count event = 0 := by
  rw [List.count_eq_zero]
  intro member
  rw [besides event member] at due
  cases due

theorem Balanced.step (balanced : Balanced log plic)
    (moved : step config plic action = some (next, events)) : Balanced (log ++ events) next := by
  obtain ⟨zero, counts⟩ := balanced
  cases effect_of_step moved with
  | gateway triggered valid sets shown =>
      have pending : ∀ other, next.pending other =
          (plic.pending other || decide (other = triggered)) := by
        intro other
        rw [sets]
        exact pending_setPending triggered other plic
      refine ⟨?_, ?_⟩
      · rw [pending, zero]
        simp [valid.1.ne]
      · intro id nonzero
        have before := counts id nonzero
        rw [shown, List.count_append, List.count_append, pending]
        by_cases same : id = triggered
        · subst same
          have bound := Bool.toNat_le (plic.pending id)
          simp
          omega
        · have different : triggered ≠ id := fun equal => same equal.symm
          simp [same, different]
          exact before
  | claim address inside aligned odd owns claims shown =>
      have pending : ∀ other, next.pending other =
          (plic.pending other && decide (other ≠ (arbitrate config plic 0 false).1)) := by
        intro other
        rw [claims]
        exact pending_claim _ other
      refine ⟨by rw [pending, zero]; rfl, ?_⟩
      intro id nonzero
      have before := counts id nonzero
      rw [shown, List.count_append, List.count_append, pending]
      by_cases same : id = (arbitrate config plic 0 false).1
      · -- A winner was pending, so that its claim is accounted for.
        obtain ⟨candidate, -⟩ := (arbitrate_spec config plic 0 false).2 (same ▸ nonzero)
        rw [← same] at candidate ⊢
        rw [candidate.pending] at before
        simpa using before
      · have different : (arbitrate config plic 0 false).1 ≠ id := fun equal => same equal.symm
        simp [same, different]
        exact before
  | other keeps besides =>
      have pending : ∀ other, next.pending other = plic.pending other := by
        intro other
        simp only [State.pending, keeps]
      refine ⟨by rw [pending, zero], ?_⟩
      intro id nonzero
      rw [List.count_append, List.count_append, pending,
        count_besidesPending (show (Event.claimed id).besidesPending = false from rfl) besides,
        count_besidesPending (show (Event.gateway id).besidesPending = false from rfl) besides]
      exact counts id nonzero

/-- The interrupt is pending, unless a claim has returned it. -/
def Due (id : Nat) (log : List Event) (plic : State) : Prop :=
  .claimed id ∈ log ∨ plic.pending id = true

theorem Due.step {id : Nat} (due : Due id log plic)
    (moved : step config plic action = some (next, events)) : Due id (log ++ events) next := by
  rcases due with claimed | pending
  · exact .inl (List.mem_append_left events claimed)
  cases effect_of_step moved with
  | gateway triggered valid sets shown =>
      refine .inr ?_
      have set : next.pending id = (plic.pending id || decide (id = triggered)) := by
        rw [sets]
        exact pending_setPending triggered id plic
      rw [set, pending, Bool.true_or]
  | claim address inside aligned odd owns claims shown =>
      by_cases same : id = (arbitrate config plic 0 false).1
      · refine .inl (List.mem_append_right log ?_)
        rw [shown, ← same]
        exact List.mem_cons_self
      · refine .inr ?_
        rw [claims, pending_claim, pending]
        simp [same]
  | other keeps besides =>
      refine .inr ?_
      simp only [State.pending, keeps]
      exact pending

/-! ## One hart -/

/-- What a claim read makes of the state it finds, with the data it returns. -/
structure Claims (config : Config) (plic next : State) (events : List Event) (id : Nat) : Prop where
  none : id = 0 ↔ ¬∃ other, Candidate config plic 0 false other
  greatest : id ≠ 0 → Candidate config plic 0 false id ∧
    ∀ other, Candidate config plic 0 false other →
      plic.priority other < plic.priority id ∨
        plic.priority other = plic.priority id ∧ id ≤ other
  clears : ∀ other, next.pending other = (plic.pending other && decide (other ≠ id))
  answers : ∃ data, .answered data ∈ events ∧ data.length = 4 ∧ Clover.littleEndian data = id

/-- The register a claim is read from holds the number that was stored. -/
theorem littleEndian_claim (config : Config) (plic : State) :
    Clover.littleEndian ((claim config plic 0).hartConfig.read 4 4) =
      (arbitrate config plic 0 false).1 := by
  have stored : (claim config plic 0).hartConfig.get 4 1 =
      BitVec.ofNat 32 (arbitrate config plic 0 false).1 :=
    RegisterMemory.get_set_self 4 plic.hartConfig 1 _
  have word : (arbitrate config plic 0 false).1 < 2 ^ 32 := by
    have bound := config.interruptsBound
    by_cases empty : (arbitrate config plic 0 false).1 = 0
    · omega
    · have valid := ((arbitrate_spec config plic 0 false).2 empty).1.valid
      omega
  calc Clover.littleEndian ((claim config plic 0).hartConfig.read 4 4)
      = ((claim config plic 0).hartConfig.get 4 1).toNat := (RegisterMemory.toNat_get 4 _ 1).symm
    _ = (BitVec.ofNat 32 (arbitrate config plic 0 false).1).toNat := congrArg BitVec.toNat stored
    _ = (arbitrate config plic 0 false).1 := Nat.mod_eq_of_lt word

theorem claims_of_step (single : config.numberCores = 1)
    (moved : step config plic action = some (next, events)) {id : Nat}
    (claimed : .claimed id ∈ events) : Claims config plic next events id := by
  cases effect_of_step moved with
  | gateway triggered valid sets shown =>
      rw [shown] at claimed
      cases List.mem_singleton.mp claimed
  | claim address inside aligned odd owns claims shown =>
      rw [shown] at claimed
      obtain rfl : id = (arbitrate config plic 0 false).1 := by simpa using claimed
      obtain rfl : address = 4 := by
        rw [single] at inside
        omega
      obtain ⟨none, greatest⟩ := arbitrate_spec config plic 0 false
      refine ⟨none, greatest, ?_, ?_⟩
      · intro other
        rw [claims]
        exact pending_claim _ other
      · refine ⟨next.hartConfig.read 4 4, ?_, by simp [RegisterMemory.read], ?_⟩
        · rw [shown]
          simp
        · rw [claims]
          exact littleEndian_claim config plic
  | other keeps besides => cases besides _ claimed

/-- With words for every interrupt the claim of the first hart leaves no array. -/
theorem returns_claim (covers : config.Covers) (positive : 0 < config.numberInterrupts) :
    Returns (preReadHartConfig config 4 4) plic () (claim config plic 0)
      [.claimed (arbitrate config plic 0 false).1] := by
  have winner := arbitrate_lt config plic 0 false positive
  have word : (arbitrate config plic 0 false).1 / 32 < config.numberInterruptEntries := by
    unfold Config.Covers at covers
    omega
  have found : Returns (hartGetNextPendingInterrupt config 0 false) plic
      (arbitrate config plic 0 false).1 plic [] :=
    (looks_next (fun _ => covers) (fun _ => config.coresPositive)).returns_of_inside trivial
  simp only [preReadHartConfig, clearPendingInterrupt, returns_bind_iff, returns_require_iff,
    returns_when_iff, returns_checkIndex_iff, returns_modify_iff, returns_emit_iff]
  refine ⟨(), plic, [], _, ⟨by decide, rfl, rfl⟩, .inl ⟨by decide, ?_⟩, rfl⟩
  refine ⟨(), plic, [], _, ⟨trivial, rfl, rfl⟩, ?_, rfl⟩
  refine ⟨_, plic, [], _, found, ?_, rfl⟩
  refine ⟨(), plic, [], _, ⟨config.coresPositive, rfl, rfl⟩, ?_, rfl⟩
  refine ⟨(), _, [], _, ⟨rfl, rfl⟩, ?_, rfl⟩
  refine ⟨(), _, [], _, ?_, ⟨rfl, rfl⟩, rfl⟩
  refine ⟨(), _, [], [], ⟨winner, rfl, rfl⟩, ?_, rfl⟩
  exact ⟨(), _, [], [], ⟨word, rfl, rfl⟩, ⟨rfl, rfl⟩, rfl⟩

/-- The claim register of the first hart is reached over the bus if the enable words end in
front of it. -/
theorem find_claim (apart : 4 * config.numberInterruptEntries * config.numberCores ≤ 0x1FE000) :
    (registerRanges config).find? (·.contains 0x200004) = some (regsHartConfig config) := by
  have interrupts := config.interruptsBound
  have cores := config.coresPositive
  have entries : 4 * config.numberInterruptEntries ≤ 0x1FE000 :=
    le_trans (Nat.le_mul_of_pos_right _ cores) apart
  have first : (regsInterruptPriorities config).contains 0x200004 = false := by
    rw [← Bool.not_eq_true, RegisterRange.contains_iff]
    simp only [regsInterruptPriorities]
    omega
  have second : (regsPendingInterrupts config).contains 0x200004 = false := by
    rw [← Bool.not_eq_true, RegisterRange.contains_iff]
    simp only [regsPendingInterrupts]
    omega
  have third : (regsHartEnabledInterrupts config).contains 0x200004 = false := by
    rw [← Bool.not_eq_true, RegisterRange.contains_iff]
    simp only [regsHartEnabledInterrupts]
    omega
  have fourth : (regsHartConfig config).contains 0x200004 = true := by
    rw [RegisterRange.contains_iff]
    simp only [regsHartConfig]
    omega
  simp [registerRanges, first, second, third, fourth]

/-- A claim read over the bus always returns. -/
theorem step_claim (plic : State) (covers : config.Covers) (positive : 0 < config.numberInterrupts)
    (apart : 4 * config.numberInterruptEntries * config.numberCores ≤ 0x1FE000) :
    ∃ data, step config plic (.access (.read 0x200004 4)) = some (claim config plic 0,
      [.claimed (arbitrate config plic 0 false).1, .answered data]) := by
  have cores := config.coresPositive
  have inside : (regsHartConfig config).contains 0x200004 = true := by
    rw [RegisterRange.contains_iff]
    simp only [regsHartConfig]
    omega
  have aligned : (regsHartConfig config).alignment = 4 := rfl
  have start : (regsHartConfig config).start = 0x200000 := rfl
  have offset : (regsHartConfig config).toLocal 0x200004 = 4 := by
    rw [RegisterRange.toLocal, start]
  have accessed : Returns (transport config (.read 0x200004 4)) plic
      ((claim config plic 0).hartConfig.read 4 4) (claim config plic 0)
      [.claimed (arbitrate config plic 0 false).1] := by
    refine returns_route_iff.mpr ⟨regsHartConfig config, find_claim apart, ?_⟩
    refine RegisterRange.returns_read_iff.mpr ⟨⟨?_, ?_⟩, ⟨inside, ?_⟩, ?_, ?_⟩
    · rw [aligned]
    · rw [aligned]
    · rw [offset]
      simp only [regsHartConfig]
      omega
    · rw [offset]
      exact returns_claim covers positive
    · rw [offset]
      rfl
  have whole : Returns (act config (.access (.read 0x200004 4))) plic () (claim config plic 0)
      [.claimed (arbitrate config plic 0 false).1,
        .answered ((claim config plic 0).hartConfig.read 4 4)] :=
    returns_bind_iff.mpr ⟨_, _, _, _, accessed, returns_emit_iff.mpr ⟨rfl, rfl⟩, rfl⟩
  exact ⟨_, step_of_returns whole⟩

/-- Claims along every run of a controller with one hart, whose words hold every interrupt.
A claim returns the first of the enabled pending interrupts with the greatest priority, and
clears its pending bit and no other; it returns zero if there is none. A claim read always
returns. No interrupt is claimed more often than it was triggered, and one that was triggered
stays pending until it is claimed. -/
theorem claim_semantics (single : config.numberCores = 1) (covers : config.Covers)
    {actions : List Action}
    (ran : perform (step config) (initial config) actions = some (plic, log)) :
    (∀ action next events id, step config plic action = some (next, events) →
        .claimed id ∈ events → Claims config plic next events id) ∧
      (0 < config.numberInterrupts → 4 * config.numberInterruptEntries ≤ 0x1FE000 →
        ∃ id next data, step config plic (.access (.read 0x200004 4)) =
          some (next, [.claimed id, .answered data])) ∧
      (∀ id, id ≠ 0 → log.count (.claimed id) ≤ log.count (.gateway id)) ∧
      (∀ action next events id, step config plic action = some (next, events) →
        .gateway id ∈ events → next.pending id = true) ∧
      ∀ id, plic.pending id = true → ∀ later last more,
        perform (step config) plic later = some (last, more) → .claimed id ∉ more →
          last.pending id = true := by
  have balanced : Balanced log plic :=
    perform_invariant Balanced.step (balanced_initial config) ran
  refine ⟨?_, ?_, ?_, ?_, ?_⟩
  · intro action next events id moved claimed
    exact claims_of_step single moved claimed
  · intro positive apart
    obtain ⟨data, moved⟩ := step_claim plic covers positive (by rw [single]; omega)
    exact ⟨_, _, data, moved⟩
  · intro id nonzero
    have counts := balanced.counts id nonzero
    omega
  · intro action next events id moved triggered
    cases effect_of_step moved with
    | gateway other valid sets shown =>
        rw [shown] at triggered
        cases List.mem_singleton.mp triggered
        have set : next.pending id = (plic.pending id || decide (id = id)) := by
          rw [sets]
          exact pending_setPending id id plic
        rw [set]
        simp
    | claim address inside aligned odd owns claims shown =>
        rw [shown] at triggered
        simp at triggered
    | other keeps besides => cases besides _ triggered
  · intro id pending later last more continued unclaimed
    have due : Due id more last :=
      perform_invariant Due.step (.inr pending) continued
    exact due.resolve_left unclaimed

/-- The controller of the HiFive board. -/
def hifive : Config where
  numberCores := 1
  numberInterrupts := 53
  numberInterruptEntries := 64
  maxPriority := 7
  interruptsBound := by decide
  coresBound := by decide
  coresPositive := by decide
  entriesPositive := by decide

/-- Two interrupts are triggered, one of them is enabled, and it is claimed. -/
def enabledClaim : List Action :=
  [.trigger 3, .trigger 2, .access (.write 0x2000 [0x08, 0, 0, 0]), .run,
    .access (.read 0x200004 4)]

theorem claim_semantics_hifive :
    ∃ plic log, perform (step hifive) (initial hifive) enabledClaim = some (plic, log) ∧
      log.count (.claimed 3) = 1 ∧ log.count (.claimed 3) ≤ log.count (.gateway 3) := by
  have shown : (perform (step hifive) (initial hifive) enabledClaim).map
      (fun (_, log) => log.count (.claimed 3)) = some 1 := by decide +kernel
  obtain ⟨⟨plic, log⟩, ran, claimed⟩ := Option.map_eq_some_iff.mp shown
  have covers : hifive.Covers := by unfold Config.Covers; decide
  exact ⟨plic, log, ran, claimed, (claim_semantics rfl covers ran).2.2.1 3 (by decide)⟩

end SymexVP.Plic
