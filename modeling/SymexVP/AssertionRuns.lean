import SymexVP.StepAssertions
import SymexVP.CsrAccess
import SymexVP.TrapHandling

/-!
# Assertions along runs

Fetching, decoding, entering a handler and finishing a step keep what the assertions of
the hart are about, as the instructions do. The zero register may be written by an
instruction; the end of a step clears it, so that it is zero whenever a step begins.
-/

namespace SymexVP.Iss

open Exec Opcode

variable {P : Platform} (input : P.clover.terms.Assignment)

/-! ## Fetch and decode -/

theorem sound_loadWord : KeepsSound (fun _ => True) (loadWord input) := by
  refine Meets.tryCatch (Meets.bind sound_getHart fun hart _ => ?_) fun fault known => ?_
  · refine Meets.bind (sound_memory fun core => ?_) fun _ _ => sound_modifyHart fun _ => rfl
    exact meets_loadInstr (known_bus core input) core _
  · split
    · exact Meets.bind (sound_modifyHart fun _ => rfl) fun _ _ => Meets.throw trivial
    · exact Meets.throw known

theorem sound_fetch : KeepsSound (fun _ => True) (fetch input) := by
  refine Meets.bind sound_getHart fun hart sound => ?_
  refine Meets.bind (Meets.passes ?_) fun _ _ => sound_loadWord input
  rw [pcAlignmentMask_eq, BitVec.not_not]
  exact isEven_iff_and.mp sound.pc

theorem sound_decode : KeepsSound (fun _ => True) (decode : IssM P Unit) := by
  rintro state ⟨empty, sound⟩
  rw [decode_run]
  refine ⟨⟨empty, ?_⟩, fun _ _ => trivial, nofun⟩
  refine { sound with pc := sound.pc.add ?_ }
  split
  · exact isEven_iff.mpr rfl
  · exact isEven_iff.mpr rfl

theorem sound_execStep : KeepsSound (fun _ => True) (execStep input) := by
  refine Meets.bind (sound_fetch input) fun _ _ => Meets.bind sound_decode fun _ _ => ?_
  exact Meets.bind sound_getHart fun decoded _ => sound_execute input decoded.op

/-! ## Traps and interrupts -/

theorem sound_lexicalCast (number : Nat) :
    KeepsSound (fun _ => True) (lexicalCast number : IssM P (BitVec 32)) :=
  Meets.bind (Meets.require trivial) fun _ _ => Meets.pure trivial

theorem sound_prepareTrap (trap : SimulationTrap) :
    KeepsSound (fun _ => True) (prepareTrap trap : IssM P PrivilegeLevel) := by
  have rewound : KeepsSound (fun _ => True)
      (modifyHart fun hart => { hart with pc := hart.lastPc } : IssM P Unit) :=
    sound_changeHart fun hart sound => { sound with pc := sound.lastPc }
  refine Meets.bind rewound fun _ _ => Meets.bind sound_getHart fun hart _ => ?_
  refine Meets.ite (fun _ => ?_) fun _ => Meets.ite (fun _ => ?_) fun _ =>
    Meets.bind (Meets.require (by simp [Fault.Other, stepAssertions])) fun _ _ => ?_
  all_goals
    refine Meets.bind (sound_modifyHart fun _ => rfl) fun _ _ => ?_
    refine Meets.bind (sound_lexicalCast _) fun _ _ => ?_
    exact Meets.bind (sound_modifyHart fun _ => rfl) fun _ _ => Meets.pure trivial

theorem sound_prepareInterrupt (interrupts : PendingInterrupts) :
    KeepsSound (fun _ => True) (prepareInterrupt interrupts : IssM P Unit) := by
  unfold prepareInterrupt
  split
  · exact Meets.throw trivial
  · refine Meets.ite (fun _ => sound_modifyHart fun _ => rfl) fun _ => ?_
    refine Meets.ite (fun _ => sound_modifyHart fun _ => rfl) fun _ => ?_
    exact Meets.ite (fun _ => sound_modifyHart fun _ => rfl) fun _ => Meets.throw trivial

/-- A handler is entered at an even address, and what it returns to was even. -/
theorem sound_switchToTrapHandler (targetMode : PrivilegeLevel) :
    KeepsSound (fun _ => True) (switchToTrapHandler targetMode : IssM P Unit) := by
  refine Meets.bind sound_releaseLrScReservation fun _ _ => ?_
  refine Meets.bind sound_getHart fun before _ => ?_
  refine Meets.bind (sound_modifyHart fun _ => rfl) fun _ _ => ?_
  refine Meets.ite (fun _ => sound_changeHart fun hart sound => ?_) fun _ => ?_
  · exact { sound with pc := isEven_handlerAddress _ _, mepc := sound.pc }
  refine Meets.ite (fun _ => sound_changeHart fun hart sound => ?_) fun _ => ?_
  · exact { sound with pc := isEven_handlerAddress _ _, sepc := sound.pc }
  refine Meets.ite (fun _ => sound_changeHart fun hart sound => ?_) fun _ => Meets.throw trivial
  exact { sound with pc := isEven_handlerAddress _ _, uepc := sound.pc }

theorem sound_stepAndInterrupt : KeepsSound (fun _ => True) (stepAndInterrupt input) := by
  refine Meets.bind (sound_execStep input) fun _ _ => Meets.bind Meets.get fun state _ => ?_
  refine Meets.ite (fun _ => ?_) fun _ => Meets.pure trivial
  refine Meets.bind (sound_prepareInterrupt _) fun _ _ => Meets.bind (Meets.emit _) fun _ _ => ?_
  exact Meets.bind (sound_switchToTrapHandler _) fun _ _ => Meets.pure trivial

theorem sound_handleFault {fault : Fault} (known : Fault.Other fault) :
    KeepsSound (fun _ => True) (handleFault fault : IssM P Taken) := by
  cases fault with
  | trap trap =>
      refine Meets.bind (sound_prepareTrap _) fun targetMode _ => ?_
      exact Meets.bind (sound_switchToTrapHandler _) fun _ _ => Meets.pure trivial
  | _ => exact Meets.throw known

/-! ## The end of a step -/

/-- A reservation is counted down only while it counts. -/
theorem sound_countDown : KeepsSound (fun _ => True) (do
    let hart ← getHart
    Exec.when (hart.lrScCounter ≠ 0) do
      modifyHart fun hart => { hart with lrScCounter := hart.lrScCounter - 1 }
      let counted ← getHart
      Exec.require (0 ≤ counted.lrScCounter) (.assertion "lr_sc_counter >= 0")
      Exec.when (counted.lrScCounter = 0) releaseLrScReservation : IssM P Unit) := by
  have ended : KeepsSound (fun _ => True) (do
      let counted ← getHart
      Exec.require (0 ≤ counted.lrScCounter) (.assertion "lr_sc_counter >= 0")
      Exec.when (counted.lrScCounter = 0) releaseLrScReservation : IssM P Unit) := by
    refine Meets.bind sound_getHart fun counted sound => ?_
    refine Meets.bind (Meets.passes sound.counting.1) fun _ _ => ?_
    exact Meets.when fun _ => sound_releaseLrScReservation
  intro state holds
  by_cases counting : state.hart.lrScCounter = 0
  · simp only [getHart, bind_run, get_run, pure_run, Outcome.andThen_ok, Exec.when,
      counting, ne_eq, not_true_eq_false, if_false]
    refine ⟨holds, fun _ _ => trivial, ?_⟩
    rintro _ ⟨⟩
  · obtain ⟨empty, sound⟩ := holds
    have positive : 0 ≤ state.hart.lrScCounter ∧ state.hart.lrScCounter ≤ 17 := sound.counting
    let counted : State P :=
      { state with hart := { state.hart with lrScCounter := state.hart.lrScCounter - 1 } }
    have lower : 0 ≤ state.hart.lrScCounter - 1 ∧ state.hart.lrScCounter - 1 ≤ 17 := by omega
    have still : SoundState counted := ⟨empty, { sound with counting := lower }⟩
    obtain ⟨kept, -, thrown⟩ := ended counted still
    simp only [getHart, bind_run, get_run, pure_run, Outcome.andThen_ok, Exec.when, ne_eq,
      counting, not_false_eq_true, if_true, modifyHart, modify_run] at kept thrown ⊢
    exact ⟨kept, fun _ _ => trivial, thrown⟩

theorem sound_advance (newCycles : Nat) : KeepsSound (fun _ => True) (do
    modifyHart fun hart =>
      if CounterBits.CY.get hart.csrs.mcountinhibit = 0 then
        { hart with cycleCounter := hart.cycleCounter + newCycles }
      else hart
    let hart ← getHart
    memory fun _ => do
      Board.inc newCycles
      let board ← Exec.get
      Exec.when (P.world.needSync board.world board.localTime ∧ hart.lrScCounter = 0)
        Board.synchronise : IssM P Unit) := by
  refine Meets.bind (sound_modifyHart fun hart => ?_) fun _ _ => ?_
  · split <;> rfl
  refine Meets.bind sound_getHart fun hart _ => sound_memory fun _ => ?_
  refine Meets.bind (Meets.modify fun _ holds => holds) fun _ _ => ?_
  refine Meets.bind Meets.get fun board _ => Meets.when fun _ => ?_
  exact Meets.modify fun _ holds => holds

theorem sound_performanceAndSyncUpdate (executedOp : Mapping) :
    KeepsSound (fun _ => True) (performanceAndSyncUpdate executedOp : IssM P Unit) := by
  refine Meets.bind (sound_modifyHart fun hart => ?_) fun _ _ => ?_
  · dsimp only
    split <;> rfl
  have counted := Meets.bind sound_countDown fun _ _ =>
    sound_advance (P := P) (instrCycles executedOp)
  rw [bind_assoc] at counted
  exact counted

theorem sound_finishStep : KeepsSound (fun _ => True) (finishStep : IssM P Unit) := by
  refine Meets.bind (sound_write _ _) fun _ _ => Meets.bind Meets.get fun state _ => ?_
  refine Meets.bind (Meets.when fun _ => sound_modifyHart fun _ => rfl) fun _ _ => ?_
  exact Meets.bind sound_getHart fun hart _ => sound_performanceAndSyncUpdate _

/-! ## The zero register -/

def ZeroIsZero (state : State P) : Prop := (state.hart.regs 0).value.concrete = 0

/-- A computation that leaves the registers alone. -/
abbrev KeepsZero {α : Type} (body : IssM P α) : Prop :=
  Meets ZeroIsZero (fun _ => True) (fun _ => True) body

theorem zero_getHart : KeepsZero (getHart : IssM P (Hart P.clover.terms)) :=
  Meets.bind Meets.get fun _ _ => Meets.pure trivial

theorem zero_modifyHart {change : Hart P.clover.terms → Hart P.clover.terms}
    (same : ∀ hart, (change hart).regs = hart.regs) :
    KeepsZero (modifyHart change : IssM P Unit) := by
  refine Meets.modify fun state zero => ?_
  rw [ZeroIsZero, same]
  exact zero

theorem zero_memory {α : Type} (body : Core → MemM P α) : KeepsZero (memory body) := by
  have frame : Steps (Unchanged fun state : State P => state.hart.regs) (memory body) :=
    steps_memory (fun _ _ => rfl) body
  intro state zero
  have same : ((memory body).run state).state.hart.regs = state.hart.regs := frame state
  refine ⟨?_, fun _ _ => trivial, fun _ _ => trivial⟩
  rw [ZeroIsZero, same]
  exact zero

theorem zero_performanceAndSyncUpdate (executedOp : Mapping) :
    KeepsZero (performanceAndSyncUpdate executedOp : IssM P Unit) := by
  have released : KeepsZero (releaseLrScReservation : IssM P Unit) :=
    Meets.bind (zero_modifyHart fun _ => rfl) fun _ _ => zero_memory _
  refine Meets.bind (zero_modifyHart fun _ => rfl) fun _ _ => ?_
  refine Meets.bind zero_getHart fun counting _ => Meets.bind (Meets.when fun _ => ?_) fun _ _ => ?_
  · refine Meets.bind (zero_modifyHart fun _ => rfl) fun _ _ => ?_
    refine Meets.bind zero_getHart fun _ _ => ?_
    exact Meets.bind (Meets.require trivial) fun _ _ => Meets.when fun _ => released
  · refine Meets.bind (zero_modifyHart fun hart => ?_) fun _ _ => ?_
    · split <;> rfl
    exact Meets.bind zero_getHart fun _ _ => zero_memory _

/-- The end of a step clears the register, whatever the instruction has left in it. -/
theorem zero_finishStep (state : State P) :
    ZeroIsZero ((finishStep : IssM P Unit).run state).state := by
  have rest : KeepsZero (do
      let state ← Exec.get
      Exec.when state.board.shallExit (modifyHart fun hart => { hart with status := .terminated })
      let hart ← getHart
      performanceAndSyncUpdate hart.op : IssM P Unit) := by
    refine Meets.bind Meets.get fun state _ => ?_
    refine Meets.bind (Meets.when fun _ => zero_modifyHart fun _ => rfl) fun _ _ => ?_
    exact Meets.bind zero_getHart fun hart _ => zero_performanceAndSyncUpdate _
  have cleared : ZeroIsZero { state with hart := state.hart.write 0 ⟨32, .BVC 0⟩ } := by
    simp [ZeroIsZero, Hart.write, Hart.assignNew, Hart.assign, ConcolicValue.BVC]
  exact (rest _ cleared).1

/-! ## Whole steps and runs -/

theorem runStep_of_breakpoint {state : State P} (zero : ZeroIsZero state)
    (stopped : AtBreakpoint state) :
    (runStep input).run state = ⟨.ok .breakpoint,
      { state with hart := { state.hart with status := .hitBreakpoint } }, []⟩ := by
  unfold AtBreakpoint at stopped
  unfold ZeroIsZero at zero
  simp only [runStep, getHart, bind_run, get_run, pure_run, Outcome.andThen_ok, require_of zero,
    if_pos stopped]
  rfl

theorem sound_begun {state : State P} (holds : SoundState state) : SoundState (begun state) :=
  ⟨holds.1, { holds.2 with lastPc := holds.2.pc }⟩

/-- The part of a step behind its checks. -/
theorem sound_taken : KeepsSound (fun _ => True) (do
    let taken ← Exec.tryCatch (stepAndInterrupt input) handleFault
    finishStep
    pure taken : IssM P Taken) := by
  refine Meets.bind (Meets.tryCatch (sound_stepAndInterrupt input) fun _ known => ?_)
    fun taken _ => Meets.bind sound_finishStep fun _ _ => Meets.pure trivial
  exact sound_handleFault known

/-- A step keeps what the assertions are about, and none of them fails. -/
theorem sound_runStep {state : State P} (holds : SoundState state) (zero : ZeroIsZero state) :
    SoundState ((runStep input).run state).state ∧
      ∀ fault, ((runStep input).run state).result = .error fault → Fault.Other fault := by
  by_cases stopped : AtBreakpoint state
  · rw [runStep_of_breakpoint input zero stopped]
    exact ⟨holds, nofun⟩
  · rw [runStep_of_runs input ⟨zero, stopped⟩]
    obtain ⟨kept, -, thrown⟩ := sound_taken input (begun state) (sound_begun holds)
    exact ⟨kept, thrown⟩

theorem zero_runStep {state : State P} (zero : ZeroIsZero state) {taken : Taken}
    (returned : ((runStep input).run state).result = .ok taken) :
    ZeroIsZero ((runStep input).run state).state := by
  by_cases stopped : AtBreakpoint state
  · rw [runStep_of_breakpoint input zero stopped]
    exact zero
  · rw [runStep_of_runs input ⟨zero, stopped⟩] at returned ⊢
    obtain ⟨_, -, finished, reached⟩ := bind_eq_ok returned
    obtain ⟨_, -, -, last⟩ := bind_eq_ok finished
    rw [reached, last]
    exact zero_finishStep _

theorem sound_reset {start : State P} (reset : Reset start) (even : start.hart.pc &&& 1 = 0) :
    SoundState start ∧ ZeroIsZero start := by
  cases reset
  have zero : IsEven 0 := rfl
  have direct : (0 : BitVec 32).getLsbD 1 = false := rfl
  refine ⟨⟨fun _ _ _ _ => rfl, ?_⟩, rfl⟩
  exact ⟨isEven_iff_and.mpr even, zero, zero, zero, zero, direct, direct, direct, le_rfl,
    (by decide : (0 : Int) ≤ 17)⟩

theorem sound_of_reaches {start state : State P} (reset : Reset start)
    (even : start.hart.pc &&& 1 = 0) (reached : Reaches (runStep input) start state) :
    SoundState state ∧ ZeroIsZero state := by
  induction reached with
  | start => exact sound_reset reset even
  | step earlier returned inductionHypothesis =>
      obtain ⟨holds, zero⟩ := inductionHypothesis
      exact ⟨(sound_runStep input holds zero).1, zero_runStep input zero returned⟩

/-- From an even entry point on, whenever a step begins, the zero register is zero, the program
counter and the addresses handlers return to are even, handlers are direct or vectored, and a
reservation has at most seventeen instructions to go; and no assertion about this fails. -/
theorem assertions_hold {start state : State P} (reset : Reset start)
    (even : start.hart.pc &&& 1 = 0) (reached : Reaches (runStep input) start state) :
    (state.hart.regs 0).value.concrete = 0 ∧ state.hart.pc &&& 1 = 0 ∧
      (state.hart.csrs.mepc &&& 1 = 0 ∧ state.hart.csrs.sepc &&& 1 = 0 ∧
        state.hart.csrs.uepc &&& 1 = 0) ∧
      (state.hart.csrs.mtvec.getLsbD 1 = false ∧ state.hart.csrs.stvec.getLsbD 1 = false ∧
        state.hart.csrs.utvec.getLsbD 1 = false) ∧
      (0 ≤ state.hart.lrScCounter ∧ state.hart.lrScCounter ≤ 17) ∧
      ∀ text ∈ stepAssertions, ((runStep input).run state).result ≠ .error (.assertion text) := by
  obtain ⟨holds, zero⟩ := sound_of_reaches input reset even reached
  have sound := holds.2
  refine ⟨zero, isEven_iff_and.mp sound.pc, ⟨isEven_iff_and.mp sound.mepc,
    isEven_iff_and.mp sound.sepc, isEven_iff_and.mp sound.uepc⟩,
    ⟨sound.mtvec, sound.stvec, sound.utvec⟩, sound.counting, ?_⟩
  intro text about failed
  exact (sound_runStep input holds zero).2 _ failed about

/-- A program sets up a vectored handler, makes a reservation and traps. -/
theorem assertions_hold_trap :
    let state := stateAfter (runStep zeroInput) 4
      (programStart [0x04100093, 0x30509073, 0x1000212f, 0x00000073])
    (state.hart.regs 0).value.concrete = 0 ∧ state.hart.pc &&& 1 = 0 ∧
      (state.hart.csrs.mepc &&& 1 = 0 ∧ state.hart.csrs.sepc &&& 1 = 0 ∧
        state.hart.csrs.uepc &&& 1 = 0) ∧
      (state.hart.csrs.mtvec.getLsbD 1 = false ∧ state.hart.csrs.stvec.getLsbD 1 = false ∧
        state.hart.csrs.utvec.getLsbD 1 = false) ∧
      (0 ≤ state.hart.lrScCounter ∧ state.hart.lrScCounter ≤ 17) ∧
      ∀ text ∈ stepAssertions,
        ((runStep zeroInput).run state).result ≠ .error (.assertion text) :=
  assertions_hold zeroInput (reset_programStart _) rfl (reaches_stateAfter (by decide +kernel))

end SymexVP.Iss
