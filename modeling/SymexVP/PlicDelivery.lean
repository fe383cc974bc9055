import SymexVP.PlicClaims

/-!
# Delivery of pending interrupts

A hart with something to deliver has its line up, or a notification of `e_run` is under
way that will raise it. Gateways notify, and the process and the completion of a claim
look at everything. A write to the enable words, the priorities or a threshold does
neither: an interrupt it uncovers waits for the next gateway.
-/

namespace SymexVP.Plic

open ActionRun Exec

variable {config : Config} {plic next : State} {action : Action} {log events : List Event}
  {hart id : Nat}

/-- A hart with something to deliver has its line up, unless the process will run. -/
def Delivers (config : Config) (plic : State) : Prop :=
  ∀ hart, hart < config.numberCores → (∃ id, Candidate config plic hart true id) →
    plic.hartEip hart = true ∨ plic.eRun = true

/-- A write makes no interrupt deliverable to a hart whose line is down, unless the process will
run anyway. -/
def UncoversNothing (config : Config) (plic : State) : Action → Prop
  | .access (.write address src) =>
      plic.eRun = true ∨
        ∀ hart, hart < config.numberCores → plic.hartEip hart = false →
          ∀ id, Candidate config (written config plic address src) hart true id →
            Candidate config plic hart true id
  | _ => True

/-! ## Claims and lines -/

/-- A claim register is no threshold. -/
theorem priorityThreshold_claim (idx : Nat) :
    (claim config plic idx).priorityThreshold hart = plic.priorityThreshold hart := by
  have different : 2 * hart ≠ 2 * idx + 1 := by omega
  exact congrArg BitVec.toNat (RegisterMemory.get_set_of_ne 4 different plic.hartConfig _)

/-- A claim makes nothing deliverable. -/
theorem candidate_of_claim {idx : Nat}
    (candidate : Candidate config (claim config plic idx) hart true id) :
    Candidate config plic hart true id := by
  obtain ⟨valid, enabled, pending, positive, above⟩ := candidate
  refine ⟨valid, enabled, ?_, positive, ?_⟩
  · rw [pending_claim, Bool.and_eq_true] at pending
    exact pending.1
  · intro considered
    rw [priorityThreshold_claim] at above
    exact above considered

/-- The invariant with the lines that the harts have seen. -/
structure Attended (config : Config) (log : List Event) (plic : State) : Prop where
  delivers : Delivers config plic
  lines : levels (fun _ => false) log = plic.hartEip

theorem attended_initial (config : Config) : Attended config [] (initial config) := by
  refine ⟨?_, rfl⟩
  rintro hart - ⟨id, candidate⟩
  have pending := candidate.pending
  rw [pending_initial] at pending
  cases pending

theorem Attended.trigger {value : Unit} (attended : Attended config log plic)
    (returned : Returns (gatewayTriggerInterrupt config id) plic value next events) :
    Attended config (log ++ events) next := by
  obtain ⟨-, rfl, rfl⟩ := returns_gateway returned
  refine ⟨fun hart owns found => .inr rfl, ?_⟩
  rw [levels_append, attended.lines]
  rfl

theorem Attended.read {address count : Nat} {data : List (BitVec 8)}
    (attended : Attended config log plic)
    (returned : Returns (transport config (.read address count)) plic data next events) :
    Attended config (log ++ (events ++ [.answered data])) next := by
  rcases returns_transport_read returned with ⟨rfl, rfl⟩ |
    ⟨offset, -, -, -, -, -, -, rfl, rfl, -⟩
  · refine ⟨attended.delivers, ?_⟩
    rw [levels_append, attended.lines]
    rfl
  · refine ⟨?_, ?_⟩
    · rintro hart owns ⟨id, candidate⟩
      exact attended.delivers hart owns ⟨id, candidate_of_claim candidate⟩
    · rw [levels_append, attended.lines]
      rfl

/-- A write that uncovers nothing leaves nothing undelivered. -/
theorem delivers_written {address : Nat} {src : List (BitVec 8)} (delivers : Delivers config plic)
    (uncovers : UncoversNothing config plic (.access (.write address src))) :
    Delivers config (written config plic address src) := by
  rintro hart owns ⟨id, candidate⟩
  rw [hartEip_written, eRun_written]
  rcases uncovers with notified | nothing
  · exact .inr notified
  · cases line : plic.hartEip hart with
    | true => exact .inl rfl
    | false =>
        have before := nothing hart owns line id candidate
        rw [← line]
        exact delivers hart owns ⟨id, before⟩

/-- The callback behind a completion looks at its hart. -/
theorem Attended.complete {address size : Nat} {value : Unit}
    (attended : Attended config log plic)
    (returned : Returns (postWriteHartConfig config address size) plic value next events) :
    Attended config (log ++ events) next := by
  obtain ⟨delivers, lines⟩ := attended
  rcases returns_postWriteHartConfig returned with ⟨-, rfl, rfl⟩ | ⟨-, -, -, decided⟩
  · rw [List.append_nil]
    exact ⟨delivers, lines⟩
  · rcases decided with ⟨-, raised, rfl, rfl⟩ | ⟨none, rfl, rfl⟩
    · refine ⟨delivers, ?_⟩
      rw [levels_append, lines]
      exact line_self raised
    · refine ⟨?_, ?_⟩
      · intro hart owns found
        have some := hasPending_iff.mpr found
        rw [hasPending_setEip] at some
        by_cases same : hart = address / 4 - 1
        · rw [same, none] at some
          cases some
        · have kept : (setEip (address / 4 - 1) false plic).hartEip hart = plic.hartEip hart :=
            if_neg same
          rw [kept]
          exact delivers hart owns (hasPending_iff.mp some)
      · rw [levels_append, lines]
        rfl

theorem Attended.write {address : Nat} {src data : List (BitVec 8)}
    (attended : Attended config log plic)
    (uncovers : UncoversNothing config plic (.access (.write address src)))
    (returned : Returns (transport config (.write address src)) plic data next events) :
    Attended config (log ++ events) next := by
  have after : Attended config log (written config plic address src) := by
    refine ⟨delivers_written attended.delivers uncovers, ?_⟩
    rw [hartEip_written]
    exact attended.lines
  rcases returns_transport_write returned with ⟨rfl, rfl⟩ | ⟨offset, called⟩
  · rwa [List.append_nil]
  · exact after.complete called

theorem Attended.run {value : Unit} (attended : Attended config log plic)
    (returned : Returns (run config) plic value next events) :
    Attended config (log ++ events) next := by
  obtain ⟨rfl, level, -⟩ := returns_run returned
  refine ⟨?_, ?_⟩
  · intro hart owns found
    have some : hasPending config plic hart = true := (hasPending_iff.mpr found :)
    refine .inl ?_
    simp [some, owns]
  · rw [levels_append, attended.lines]
    exact level

theorem Attended.step (attended : Attended config log plic)
    (uncovers : UncoversNothing config plic action)
    (moved : step config plic action = some (next, events)) :
    Attended config (log ++ events) next := by
  have returned := returns_of_step moved
  cases action with
  | trigger id => exact attended.trigger returned
  | access access =>
      cases access with
      | read address count =>
          obtain ⟨data, reached, earlier, later, accessed, answered, rfl⟩ :=
            returns_bind_iff.mp returned
          obtain ⟨rfl, rfl⟩ := returns_emit_iff.mp answered
          exact attended.read accessed
      | write address data =>
          obtain ⟨_, reached, earlier, later, accessed, rest, rfl⟩ := returns_bind_iff.mp returned
          obtain ⟨-, rfl, rfl⟩ := returns_pure_iff.mp rest
          rw [List.append_nil]
          exact attended.write uncovers accessed
  | run =>
      obtain ⟨_, _, _, _, looked, chosen, rfl⟩ := returns_bind_iff.mp returned
      obtain ⟨rfl, rfl, rfl⟩ := returns_get_iff.mp looked
      rcases returns_when_iff.mp chosen with ⟨-, ran⟩ | ⟨-, rfl, rfl⟩
      · exact attended.run ran
      · rwa [List.nil_append, List.append_nil]

/-! ## Runs -/

/-- Along every run whose writes uncover nothing, a hart for which the controller finds something
to deliver has its line up, raised and not cleared since, or the process will run. -/
theorem no_interrupt_lost {actions : List Action}
    (quiet : Meets (step config) (UncoversNothing config) (initial config) actions)
    (ran : perform (step config) (initial config) actions = some (plic, log)) (hart : Nat)
    (owns : hart < config.numberCores)
    (found : ((hartHasPendingEnabledInterrupts config hart).run plic).result = .ok true) :
    (plic.hartEip hart = true ∧ levels (fun _ => false) log hart = true) ∨ plic.eRun = true := by
  have attended : Attended config log plic := by
    have kept := perform_keeps (fun holds meets moved => Attended.step holds meets moved)
      (attended_initial config) quiet ran
    rwa [List.nil_append] at kept
  have candidate : ∃ id, Candidate config plic hart true id := by
    refine hasPending_iff.mp ?_
    rcases looks_hasPending_anyway config plic hart with returned | ⟨-, failed⟩
    · rw [returned] at found
      exact Except.ok.inj found
    · rw [failed] at found
      cases found
  rcases attended.delivers hart owns candidate with raised | notified
  · rw [attended.lines]
    exact .inl ⟨raised, raised⟩
  · exact .inr notified

/-- The controller of the board never leaves an array. -/
theorem hifive_finds (found : hasPending hifive plic 0 = true) :
    ((hartHasPendingEnabledInterrupts hifive 0).run plic).result = .ok true := by
  have covers : hifive.Covers := by unfold Config.Covers; decide
  have looked := (looks_hasPending (fun _ => covers) (fun _ => hifive.coresPositive) :
    Looks True (hartHasPendingEnabledInterrupts hifive 0) plic _).returns_of_inside trivial
  rw [found] at looked
  exact congrArg Outcome.result looked

/-- While nothing is pending, no write uncovers anything. -/
theorem uncoversNothing_of_idle (idle : ∀ id, plic.pending id = false) (address : Nat)
    (src : List (BitVec 8)) : UncoversNothing config plic (.access (.write address src)) := by
  refine .inr ?_
  intro hart owns low id candidate
  have pending : plic.pending id = true := by
    have after := candidate.pending
    simpa only [State.pending, pendingInterrupts_written] using after
  rw [idle id] at pending
  cases pending

/-- Software enables an interrupt before it is triggered. -/
def earlyEnable : List Action :=
  [.access (.write 0x2000 [0x08, 0, 0, 0]), .trigger 3, .run]

theorem early_enable_delivered :
    ∃ plic log, perform (step hifive) (initial hifive) earlyEnable = some (plic, log) ∧
      ((plic.hartEip 0 = true ∧ levels (fun _ => false) log 0 = true) ∨ plic.eRun = true) := by
  have shown : (perform (step hifive) (initial hifive) earlyEnable).map (fun (plic, _) =>
      hasPending hifive plic 0) = some true := by decide +kernel
  obtain ⟨⟨plic, log⟩, ran, found⟩ := Option.map_eq_some_iff.mp shown
  have quiet : Meets (step hifive) (UncoversNothing hifive) (initial hifive) earlyEnable := by
    refine ⟨uncoversNothing_of_idle (pending_initial hifive) _ _, ?_⟩
    intro enabled _ _
    refine ⟨trivial, ?_⟩
    intro triggered _ _
    exact ⟨trivial, fun _ _ _ => trivial⟩
  exact ⟨plic, log, ran, no_interrupt_lost quiet ran 0 (by decide) (hifive_finds found)⟩

/-- An interrupt is triggered and the process runs; then software enables the interrupt. -/
def lateEnable : List Action :=
  [.trigger 3, .run, .access (.write 0x2000 [0x08, 0, 0, 0])]

theorem late_enable_lost :
    ∃ plic log, perform (step hifive) (initial hifive) lateEnable = some (plic, log) ∧
      ((hartHasPendingEnabledInterrupts hifive 0).run plic).result = .ok true ∧
      plic.hartEip 0 = false ∧ plic.eRun = false := by
  have shown : (perform (step hifive) (initial hifive) lateEnable).map (fun (plic, _) =>
      (hasPending hifive plic 0, plic.hartEip 0, plic.eRun)) = some (true, false, false) := by
    decide +kernel
  obtain ⟨⟨plic, log⟩, ran, values⟩ := Option.map_eq_some_iff.mp shown
  simp only [Prod.mk.injEq] at values
  obtain ⟨found, low, quiet⟩ := values
  exact ⟨plic, log, ran, hifive_finds found, low, quiet⟩

end SymexVP.Plic
