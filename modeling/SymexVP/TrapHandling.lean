import SymexVP.ControlState

/-!
# What a trap or interrupt does to the control state

The functions that route traps and interrupts act on one of three sets of registers,
one for each mode. With the set as a parameter each of them is one function of the
hart. A whole step is the execution of an instruction, then at most one entry into a
handler, then bookkeeping that leaves the control state alone.
-/

namespace SymexVP.Iss

open Exec Opcode

variable {P : Platform} (input : P.clover.terms.Assignment)

/-! ## Routing -/

/-- The mode that handles a synchronous exception. -/
def trapMode (hart : Hart P.clover.terms) (reason : ExceptionCode) : PrivilegeLevel :=
  if hart.prv = machineMode ∨ 1#32 <<< reason.code &&& hart.csrs.medeleg = 0 then machineMode
  else if hart.prv = supervisorMode ∨ 1#32 <<< reason.code &&& hart.csrs.sedeleg = 0 then
    supervisorMode
  else userMode

theorem isValid_trapMode (hart : Hart P.clover.terms) (reason : ExceptionCode) :
    isValidPrivilegeLevel (trapMode hart reason) := by
  unfold trapMode
  split_ifs <;> rfl

/-- Set the cause register of a mode. -/
def setCause (mode : PrivilegeLevel) (csrs : CsrTable) (code interrupt : BitVec 32) : CsrTable :=
  if mode = machineMode then { csrs with mcause := cause csrs.mcause code interrupt }
  else if mode = supervisorMode then { csrs with scause := cause csrs.scause code interrupt }
  else { csrs with ucause := cause csrs.ucause code interrupt }

/-- Set the trap value register of a mode. -/
def setTval (mode : PrivilegeLevel) (csrs : CsrTable) (tval : BitVec 32) : CsrTable :=
  if mode = machineMode then { csrs with mtval := tval }
  else if mode = supervisorMode then { csrs with stval := tval }
  else { csrs with utval := tval }

/-- The hart after `prepare_trap`: the program counter goes back, and the cause and value are
recorded for the mode that handles the trap. -/
def trapped (hart : Hart P.clover.terms) (raised : SimulationTrap) : Hart P.clover.terms :=
  { hart with
    pc := hart.lastPc
    csrs := setTval (trapMode hart raised.reason)
      (setCause (trapMode hart raised.reason) hart.csrs raised.reason.code 0)
      (BitVec.ofNat 32 raised.mtval) }

/-- A trap that `prepare_trap` can record: its value fits in a register, and if it is delegated
to user mode it comes from there. -/
def Recordable (hart : Hart P.clover.terms) (raised : SimulationTrap) : Prop :=
  raised.mtval < 2 ^ 32 ∧ (trapMode hart raised.reason = userMode → hart.prv = userMode)

section PrepareTrap

variable {state : State P} {raised : SimulationTrap}

/-- `prepare_trap` returns for a value that fits its register, unless a trap of an unknown level
is delegated to user mode. -/
theorem prepareTrap_run (fits : raised.mtval < 2 ^ 32)
    (handled : trapMode state.hart raised.reason = userMode → state.hart.prv = userMode) :
    (prepareTrap raised).run state =
      ⟨.ok (trapMode state.hart raised.reason),
        { state with hart := trapped state.hart raised }, []⟩ := by
  simp only [trapMode] at handled
  simp only [prepareTrap, trapped, trapMode, lexicalCast, require_of fits, bind_run, modifyHart,
    modify_run, Outcome.andThen_ok, getHart, get_run, pure_run]
  by_cases machine : state.hart.prv = machineMode ∨
      1#32 <<< raised.reason.code &&& state.hart.csrs.medeleg = 0
  · rw [if_pos machine, if_pos machine]
    rfl
  by_cases supervisor : state.hart.prv = supervisorMode ∨
      1#32 <<< raised.reason.code &&& state.hart.csrs.sedeleg = 0
  · rw [if_neg machine, if_pos supervisor, if_neg machine, if_pos supervisor]
    rfl
  · rw [if_neg machine, if_neg supervisor] at handled
    rw [if_neg machine, if_neg supervisor, if_neg machine, if_neg supervisor,
      require_of (handled rfl)]
    rfl

/-- Those are the only cases in which it does not return. -/
theorem recordable_of_prepareTrap {mode : PrivilegeLevel}
    (returned : ((prepareTrap raised).run state).result = .ok mode) :
    Recordable state.hart raised := by
  simp only [prepareTrap, lexicalCast, bind_run, modifyHart, modify_run, Outcome.andThen_ok,
    getHart, get_run, pure_run] at returned
  have handled : trapMode state.hart raised.reason = userMode → state.hart.prv = userMode := by
    intro delegated
    by_contra other
    rw [trapMode] at delegated
    split_ifs at delegated with machine supervisor
    · exact absurd delegated (by decide)
    · exact absurd delegated (by decide)
    · rw [if_neg machine, if_neg supervisor, require_of_not other] at returned
      cases returned
  refine ⟨?_, handled⟩
  by_contra large
  rw [require_of_not large] at returned
  split_ifs at returned with machine supervisor
  · cases returned
  · cases returned
  · rw [require_of (handled (by rw [trapMode, if_neg machine, if_neg supervisor]))] at returned
    cases returned

theorem prepareTrap_of_ok {mode : PrivilegeLevel}
    (returned : ((prepareTrap raised).run state).result = .ok mode) :
    (prepareTrap raised).run state =
      ⟨.ok (trapMode state.hart raised.reason),
        { state with hart := trapped state.hart raised }, []⟩ :=
  prepareTrap_run (recordable_of_prepareTrap returned).1 (recordable_of_prepareTrap returned).2

end PrepareTrap

/-- A known level hands a trap to itself or a higher level. -/
theorem handled_of_valid {hart : Hart P.clover.terms} (valid : isValidPrivilegeLevel hart.prv)
    (reason : ExceptionCode) : trapMode hart reason = userMode → hart.prv = userMode := by
  simp only [isValidPrivilegeLevel, Bool.or_eq_true, beq_iff_eq] at valid
  intro delegated
  rw [trapMode] at delegated
  split_ifs at delegated with machine supervisor
  · exact absurd delegated (by decide)
  · exact absurd delegated (by decide)
  · tauto

/-- `prepare_interrupt` on a set with a known member, for a known mode. -/
theorem prepareInterrupt_run {mode : PrivilegeLevel} (valid : isValidPrivilegeLevel mode)
    {pending : BitVec 32} {interrupt : Interrupt} (highest : highestPriority pending = some interrupt)
    (state : State P) :
    (prepareInterrupt ⟨mode, pending⟩).run state =
      ⟨.ok (), { state with
        hart := { state.hart with
          csrs := setCause mode state.hart.csrs (BitVec.ofNat 32 interrupt.code) 1 } }, []⟩ := by
  simp only [isValidPrivilegeLevel, Bool.or_eq_true, beq_iff_eq] at valid
  rw [prepareInterrupt, highest]
  obtain (rfl | rfl) | rfl := valid
  · rfl
  · rfl
  · rfl

/-- It returns only for such a set. -/
theorem prepareInterrupt_of_ok {pending : PendingInterrupts} {state : State P}
    (valid : isValidPrivilegeLevel pending.targetMode)
    (returned : ((prepareInterrupt pending).run state).result = .ok ()) :
    ∃ interrupt, highestPriority pending.pending = some interrupt ∧
      (prepareInterrupt pending).run state =
        ⟨.ok (), { state with
          hart := { state.hart with
            csrs := setCause pending.targetMode state.hart.csrs
              (BitVec.ofNat 32 interrupt.code) 1 } }, []⟩ := by
  cases highest : highestPriority pending.pending with
  | none =>
      rw [prepareInterrupt, highest] at returned
      cases returned
  | some interrupt => exact ⟨interrupt, rfl, prepareInterrupt_run valid highest state⟩

/-! ## Handlers -/

/-- The registers and fields of a mode. -/
def xtvec (mode : PrivilegeLevel) (csrs : CsrTable) : BitVec 32 :=
  if mode = machineMode then csrs.mtvec
  else if mode = supervisorMode then csrs.stvec
  else csrs.utvec

def xcause (mode : PrivilegeLevel) (csrs : CsrTable) : BitVec 32 :=
  if mode = machineMode then csrs.mcause
  else if mode = supervisorMode then csrs.scause
  else csrs.ucause

def xepc (mode : PrivilegeLevel) (csrs : CsrTable) : BitVec 32 :=
  if mode = machineMode then csrs.mepc
  else if mode = supervisorMode then csrs.sepc
  else csrs.uepc

def xtval (mode : PrivilegeLevel) (csrs : CsrTable) : BitVec 32 :=
  if mode = machineMode then csrs.mtval
  else if mode = supervisorMode then csrs.stval
  else csrs.utval

def setXepc (mode : PrivilegeLevel) (csrs : CsrTable) (pc : BitVec 32) : CsrTable :=
  if mode = machineMode then { csrs with mepc := pc }
  else if mode = supervisorMode then { csrs with sepc := pc }
  else { csrs with uepc := pc }

def xie (mode : PrivilegeLevel) : BitFields.BitField 32 :=
  if mode = machineMode then Mstatus.mie
  else if mode = supervisorMode then Mstatus.sie
  else Mstatus.uie

def xpie (mode : PrivilegeLevel) : BitFields.BitField 32 :=
  if mode = machineMode then Mstatus.mpie
  else if mode = supervisorMode then Mstatus.spie
  else Mstatus.upie

/-- The field for the previous level; user mode has none. -/
def setXpp (mode : PrivilegeLevel) (mstatus level : BitVec 32) : BitVec 32 :=
  if mode = machineMode then Mstatus.mpp.set mstatus level
  else if mode = supervisorMode then Mstatus.spp.set mstatus level
  else mstatus

def xpp (mode : PrivilegeLevel) (mstatus : BitVec 32) : PrivilegeLevel :=
  if mode = machineMode then Mstatus.mpp.get mstatus
  else if mode = supervisorMode then Mstatus.spp.get mstatus
  else userMode

/-- The hart after `switch_to_trap_handler`. -/
def entered (mode : PrivilegeLevel) (hart : Hart P.clover.terms) : Hart P.clover.terms :=
  let mstatus := hart.csrs.mstatus
  let saved := (xie mode).set ((xpie mode).set mstatus ((xie mode).get mstatus)) 0
  { hart with
    lrScCounter := 0
    prv := mode
    csrs := { setXepc mode hart.csrs hart.pc with mstatus := setXpp mode saved hart.prv }
    pc := handlerAddress (xtvec mode hart.csrs) (xcause mode hart.csrs) }

/-- The hart after `return_from_trap_handler`. -/
def returned (mode : PrivilegeLevel) (hart : Hart P.clover.terms) : Hart P.clover.terms :=
  let mstatus := hart.csrs.mstatus
  let restored := (xpie mode).set ((xie mode).set mstatus ((xpie mode).get mstatus)) 1
  { hart with
    prv := xpp mode mstatus
    pc := xepc mode hart.csrs
    csrs := { hart.csrs with mstatus := setXpp mode restored userMode } }

theorem mode_cases {mode : PrivilegeLevel} (valid : isValidPrivilegeLevel mode) :
    mode = machineMode ∨ mode = supervisorMode ∨ mode = userMode := by
  simp only [isValidPrivilegeLevel, Bool.or_eq_true, beq_iff_eq] at valid
  tauto

theorem switchToTrapHandler_run {mode : PrivilegeLevel} (valid : isValidPrivilegeLevel mode)
    (state : State P) :
    (switchToTrapHandler mode).run state =
      ⟨.ok (), ⟨entered mode state.hart,
        ((Board.unlock state.hart.csrs.mhartid).run state.board).state⟩, []⟩ := by
  obtain rfl | rfl | rfl := mode_cases valid <;> rfl

theorem returnFromTrapHandler_run {mode : PrivilegeLevel} (valid : isValidPrivilegeLevel mode)
    (state : State P) :
    (returnFromTrapHandler mode).run state =
      ⟨.ok (), { state with hart := returned mode state.hart }, []⟩ := by
  obtain rfl | rfl | rfl := mode_cases valid
  · simp only [returnFromTrapHandler, Misa.has_U]
    rfl
  · simp only [returnFromTrapHandler, Misa.has_U]
    rfl
  · rfl

/-! ## Whole steps -/

/-- A step with its program counter noted, before the instruction is fetched. -/
def begun (state : State P) : State P :=
  { state with hart := { state.hart with lastPc := state.hart.pc } }

/-- The step stops at a breakpoint and executes nothing. -/
def AtBreakpoint (state : State P) : Prop :=
  state.hart.debugMode ∧ state.hart.pc ∈ state.hart.breakpoints

/-- The outcome of the instruction a step executes. -/
def executed (state : State P) : Outcome Fault (State P) (Event P.clover.terms) Unit :=
  (execStep input).run (begun state)

/-- What a step does to the control state after it has executed an instruction. -/
inductive StepTakes (before : State P) : Taken → State P → Prop
  | breakpoint {after : State P} (same : control after = control before) :
      StepTakes before .breakpoint after
  | nothing {after : State P} (running : ¬AtBreakpoint before)
      (ran : (executed input before).result = .ok ())
      (calm : (computePendingInterrupts (executed input before).state).targetMode = noneMode)
      (same : control after = control (executed input before).state) :
      StepTakes before .nothing after
  | interrupt {after : State P} (pending : PendingInterrupts) (running : ¬AtBreakpoint before)
      (ran : (executed input before).result = .ok ())
      (selected : computePendingInterrupts (executed input before).state = pending)
      (chosen : pending.targetMode ≠ noneMode)
      (prepared : ((prepareInterrupt pending).run (executed input before).state).result = .ok ())
      (switched : ((switchToTrapHandler pending.targetMode).run
        ((prepareInterrupt pending).run (executed input before).state).state).result = .ok ())
      (same : control after = control ((switchToTrapHandler pending.targetMode).run
        ((prepareInterrupt pending).run (executed input before).state).state).state) :
      StepTakes before (.interrupt pending.targetMode) after
  | trap {after : State P} (raised : SimulationTrap) (mode : PrivilegeLevel)
      (running : ¬AtBreakpoint before)
      (ran : (executed input before).result = .error (.trap raised))
      (prepared : ((prepareTrap raised).run (executed input before).state).result = .ok mode)
      (switched : ((switchToTrapHandler mode).run
        ((prepareTrap raised).run (executed input before).state).state).result = .ok ())
      (same : control after = control ((switchToTrapHandler mode).run
        ((prepareTrap raised).run (executed input before).state).state).state) :
      StepTakes before (.trap mode) after

theorem quiet_finishStep : Quiet (finishStep : IssM P Unit) := by
  refine Steps.bind (quiet_write _ _) fun _ => Steps.bind Steps.get fun state => ?_
  refine Steps.bind (Steps.when fun _ => quiet_modifyHart (fun _ => rfl) fun _ => rfl) fun _ => ?_
  refine Steps.bind quiet_getHart fun hart => Steps.bind ?_ fun _ => ?_
  · refine Steps.modify fun state => ?_
    show Control.mk _ _ = Control.mk _ _
    dsimp only
    split <;> rfl
  refine Steps.bind quiet_getHart fun counting => Steps.bind (Steps.when fun _ => ?_) fun _ => ?_
  · refine Steps.bind (quiet_modifyHart (fun _ => rfl) fun _ => rfl) fun _ => ?_
    refine Steps.bind quiet_getHart fun counted => Steps.bind (Steps.require _ _) fun _ => ?_
    exact Steps.when fun _ => quiet_releaseLrScReservation
  · refine Steps.bind (quiet_modifyHart (fun hart => ?_) fun hart => ?_) fun _ => ?_
    · split <;> rfl
    · split <;> rfl
    · exact Steps.bind quiet_getHart fun synced => quiet_memory _

/-- An interrupt is only ever taken into a known mode. -/
theorem isValid_targetMode {state : State P}
    (chosen : (computePendingInterrupts state).targetMode ≠ noneMode) :
    isValidPrivilegeLevel (computePendingInterrupts state).targetMode := by
  revert chosen
  unfold computePendingInterrupts
  dsimp only
  split_ifs <;> intro chosen <;> first | rfl | exact absurd rfl chosen

/-- Nothing but an executed instruction raises a trap. -/
theorem ran_of_trap {state : State P} {raised : SimulationTrap}
    (trapped : ((stepAndInterrupt input).run state).result = .error (.trap raised)) :
    ((execStep input).run state).result = .error (.trap raised) ∧
      ((stepAndInterrupt input).run state).state = ((execStep input).run state).state := by
  rw [stepAndInterrupt, bind_run] at trapped ⊢
  generalize (execStep input).run state = outcome at trapped ⊢
  obtain ⟨result, after, log⟩ := outcome
  cases result with
  | error fault =>
      cases trapped
      exact ⟨rfl, rfl⟩
  | ok value =>
      exfalso
      simp only [Outcome.andThen_ok, bind_run, get_run, ite_run] at trapped
      split_ifs at trapped with chosen
      · have valid := isValid_targetMode chosen
        cases highest : highestPriority (computePendingInterrupts after).pending with
        | none => simp [prepareInterrupt, highest] at trapped
        | some interrupt =>
            simp [prepareInterrupt_run valid highest, switchToTrapHandler_run valid] at trapped

/-- The step executes an instruction. -/
def Runs (state : State P) : Prop :=
  (state.hart.regs 0).value.concrete = 0 ∧ ¬AtBreakpoint state

theorem runStep_of_runs {state : State P} (runs : Runs state) :
    (runStep input).run state =
      (do
        let taken ← Exec.tryCatch (stepAndInterrupt input) handleFault
        finishStep
        pure taken : IssM P Taken).run (begun state) := by
  obtain ⟨cleared, running⟩ := runs
  unfold AtBreakpoint at running
  simp only [runStep, getHart, bind_run, get_run, pure_run, Outcome.andThen_ok,
    require_of cleared, if_neg running]
  rfl

/-- A step that returns has found `x0` cleared; it stops at a breakpoint, or it executes an
instruction. -/
theorem runStep_of_ok {state : State P} {taken : Taken}
    (returned : ((runStep input).run state).result = .ok taken) :
    (AtBreakpoint state ∧ taken = .breakpoint ∧
        control ((runStep input).run state).state = control state) ∨
      (¬AtBreakpoint state ∧ (runStep input).run state =
        (do
          let taken ← Exec.tryCatch (stepAndInterrupt input) handleFault
          finishStep
          pure taken : IssM P Taken).run (begun state)) := by
  by_cases cleared : (state.hart.regs 0).value.concrete = 0
  · by_cases stopped : AtBreakpoint state
    · refine .inl ⟨stopped, ?_⟩
      unfold AtBreakpoint at stopped
      simp only [runStep, getHart, bind_run, get_run, pure_run, Outcome.andThen_ok,
        require_of cleared, if_pos stopped] at returned ⊢
      cases returned
      exact ⟨rfl, rfl⟩
    · exact .inr ⟨stopped, runStep_of_runs input ⟨cleared, stopped⟩⟩
  · simp only [runStep, getHart, bind_run, get_run, pure_run, Outcome.andThen_ok,
      require_of_not cleared] at returned
    cases returned

/-- An executed instruction, with the interrupt taken after it. -/
theorem stepTakes_stepAndInterrupt {state after : State P} {taken : Taken}
    (running : ¬AtBreakpoint state)
    (returned : ((stepAndInterrupt input).run (begun state)).result = .ok taken)
    (same : control after = control ((stepAndInterrupt input).run (begun state)).state) :
    StepTakes input state taken after := by
  obtain ⟨_, ran, returned, reached⟩ := bind_eq_ok returned
  rw [stepAndInterrupt, reached] at same
  change Outcome.result (Exec.run (ite _ _ _) _) = _ at returned
  change _ = control (Outcome.state (Exec.run (ite _ _ _) _)) at same
  by_cases chosen :
      (computePendingInterrupts ((execStep input).run (begun state)).state).targetMode ≠ noneMode
  · rw [if_pos chosen] at returned same
    obtain ⟨_, prepared, returned, reached⟩ := bind_eq_ok returned
    rw [reached] at same
    obtain ⟨_, switched, returned, reached⟩ := bind_eq_ok returned
    rw [reached] at same
    obtain ⟨_, switched, returned, reached⟩ := bind_eq_ok returned
    rw [reached] at same
    cases returned
    exact .interrupt _ running ran rfl chosen prepared switched same
  · rw [if_neg chosen] at returned same
    cases returned
    exact .nothing running ran (not_not.mp chosen) same

/-- A trap that is handled. -/
theorem stepTakes_handleFault {state after : State P} {taken : Taken} {fault : Fault}
    (running : ¬AtBreakpoint state)
    (faulted : ((stepAndInterrupt input).run (begun state)).result = .error fault)
    (returned : ((handleFault fault).run
      ((stepAndInterrupt input).run (begun state)).state).result = .ok taken)
    (same : control after = control ((handleFault fault).run
      ((stepAndInterrupt input).run (begun state)).state).state) :
    StepTakes input state taken after := by
  cases fault with
  | trap raised =>
      obtain ⟨ran, reached⟩ := ran_of_trap input faulted
      rw [← executed] at ran reached
      rw [reached] at returned same
      obtain ⟨mode, prepared, returned, reached⟩ := bind_eq_ok returned
      rw [handleFault, reached] at same
      obtain ⟨_, switched, returned, reached⟩ := bind_eq_ok returned
      rw [reached] at same
      cases returned
      exact .trap raised mode running ran prepared switched same
  | _ => cases returned

theorem stepTakes_runStep {state : State P} {taken : Taken}
    (returned : ((runStep input).run state).result = .ok taken) :
    StepTakes input state taken ((runStep input).run state).state := by
  obtain ⟨-, rfl, same⟩ | ⟨running, ran⟩ := runStep_of_ok input returned
  · exact .breakpoint same
  rw [ran] at returned ⊢
  obtain ⟨middle, guarded, finished, reached⟩ := bind_eq_ok returned
  rw [reached]
  obtain ⟨_, -, ended, reached⟩ := bind_eq_ok finished
  rw [reached]
  cases ended
  have quiet := quiet_finishStep
    ((Exec.tryCatch (stepAndInterrupt input) handleFault).run (begun state)).state
  obtain ⟨plain, reached⟩ | ⟨fault, faulted, handled, reached⟩ := tryCatch_eq_ok guarded
  · rw [reached] at quiet ⊢
    exact stepTakes_stepAndInterrupt input running plain quiet
  · rw [reached] at quiet ⊢
    exact stepTakes_handleFault input running faulted handled quiet

/-! ## Properties of the control state

A property of the control state holds after a step if it survives each of the changes a step
can make: a register write, a return, recording a cause or a value, entering a handler. -/

/-- What a write leaves behind does not depend on the counters. -/
theorem write32_settled (name : CsrName) (value : BitVec 32) (csrs : CsrTable) :
    (csrs.write32 value name).settled = (csrs.settled.write32 value name).settled := by
  cases name <;>
    simp only [CsrTable.write32, CsrTable.settled, CsrTable.defaultWrite32, Option.getD_some,
      Option.getD_none]

theorem writeCsr_control (name : CsrName) (value : BitVec 32) {before middle : State P}
    (same : control middle = control before) :
    control ((writeCsr name value).run middle).state = control before ∨
      control ((writeCsr name value).run middle).state =
        ⟨before.hart.prv, (before.hart.csrs.write32 value name).settled⟩ := by
  have level : middle.hart.prv = before.hart.prv := congrArg Control.prv same
  have table : middle.hart.csrs.settled = before.hart.csrs.settled := congrArg Control.csrs same
  obtain kept | changed := writeCsr_hart name value middle
  · left
    rw [← same, control, kept]
    rfl
  · right
    rw [control, changed, level, write32_settled, table, ← write32_settled]

theorem ExecChanges.keeps {holds : Control → Prop} {before after : State P}
    (changes : ExecChanges input before after) (initially : holds (control before))
    (write : ∀ word name csrVal value, FetchReturns input before word →
      name.addr = (decoded word).2.csr → csrPrv name.addr ≤ before.hart.prv →
      csrOperand (decodedOpcode word) (decodedHart before.hart word) csrVal = some value →
      (name.addr = CsrName.mstatus.addr →
        csrVal = before.hart.csrs.mstatus &&& CsrMask.MSTATUS) →
      holds ⟨before.hart.prv, (before.hart.csrs.write32 value name).settled⟩)
    (mret : ∀ word, FetchReturns input before word → decodedOpcode word = .mret →
      holds (control { before with hart := returned machineMode before.hart })) :
    holds (control after) := by
  cases changes with
  | quiet same =>
      rw [same]
      exact initially
  | dispatched word fetched changes =>
      cases changes with
      | quiet same =>
          rw [same]
          exact initially
      | mret returns =>
          rw [returnFromTrapHandler_run rfl]
          exact mret word fetched returns
      | write middle name csrVal value same addressed allowed operand old =>
          obtain kept | changed := writeCsr_control name value same
          · rw [kept]
            exact initially
          · rw [changed]
            exact write word name csrVal value fetched addressed allowed operand old

theorem StepTakes.keeps {holds : Control → Prop} {before after : State P} {taken : Taken}
    (takes : StepTakes input before taken after) (initially : holds (control before))
    (ran : ¬AtBreakpoint before → holds (control (executed input before).state))
    (recorded : ∀ mode (hart : Hart P.clover.terms) code interrupt,
      taken = .trap mode ∨ taken = .interrupt mode → isValidPrivilegeLevel mode →
      holds ⟨hart.prv, hart.csrs.settled⟩ →
      holds ⟨hart.prv, (setCause mode hart.csrs code interrupt).settled⟩)
    (valued : ∀ mode (hart : Hart P.clover.terms) tval, taken = .trap mode →
      isValidPrivilegeLevel mode → holds ⟨hart.prv, hart.csrs.settled⟩ →
      holds ⟨hart.prv, (setTval mode hart.csrs tval).settled⟩)
    (switched : ∀ mode (hart : Hart P.clover.terms),
      taken = .trap mode ∨ taken = .interrupt mode → isValidPrivilegeLevel mode →
      holds ⟨hart.prv, hart.csrs.settled⟩ →
      holds ⟨(entered mode hart).prv, (entered mode hart).csrs.settled⟩) :
    holds (control after) := by
  cases takes with
  | breakpoint same =>
      rw [same]
      exact initially
  | nothing running _ _ same =>
      rw [same]
      exact ran running
  | interrupt pending running _ selected chosen prepared _ same =>
      have valid : isValidPrivilegeLevel pending.targetMode := by
        rw [← selected] at chosen ⊢
        exact isValid_targetMode chosen
      obtain ⟨interrupt, -, explicit⟩ := prepareInterrupt_of_ok valid prepared
      rw [same, explicit, switchToTrapHandler_run valid]
      refine switched _ _ (.inr rfl) valid ?_
      exact recorded _ (executed input before).state.hart _ _ (.inr rfl) valid (ran running)
  | trap raised mode running _ prepared _ same =>
      have explicit := prepareTrap_of_ok prepared
      rw [explicit] at prepared same
      cases prepared
      have valid := isValid_trapMode (executed input before).state.hart raised.reason
      rw [same, switchToTrapHandler_run valid]
      refine switched _ _ (.inl rfl) valid ?_
      refine valued _ { (executed input before).state.hart with csrs := setCause _ _ _ _ } _ rfl
        valid ?_
      exact recorded _ (executed input before).state.hart _ _ (.inl rfl) valid (ran running)

end SymexVP.Iss
