import SymexVP.TrapHandling

/-!
# Isolation of machine mode

Below machine mode, a step that does not enter a machine-mode handler is meant to
leave machine-level state alone. Every CSR write is checked against the level of the
register, and the views of lower levels reach only their own bits of the shared
registers. `MRET` is not checked: it is the one instruction that breaks the isolation.
-/

namespace SymexVP.Iss

open Exec Opcode BitFields

variable {P : Platform} (input : P.clover.terms.Assignment)

/-- The registers that belong to machine mode, and of the shared ones the bits that do. -/
structure MachineLevel where
  mstatus : BitVec 32
  mie : BitVec 32
  medeleg : BitVec 32
  mideleg : BitVec 32
  mtvec : BitVec 32
  mscratch : BitVec 32
  mepc : BitVec 32
  mcause : BitVec 32
  mtval : BitVec 32
  mcounteren : BitVec 32
  mcountinhibit : BitVec 32
  pmpcfg : Fin 4 → BitVec 32
  pmpaddr : Fin 16 → BitVec 32

def machineLevel (csrs : CsrTable) : MachineLevel where
  mstatus := csrs.mstatus &&& ~~~CsrMask.SSTATUS
  mie := csrs.mie &&& ~~~CsrMask.SIE
  medeleg := csrs.medeleg
  mideleg := csrs.mideleg
  mtvec := csrs.mtvec
  mscratch := csrs.mscratch
  mepc := csrs.mepc
  mcause := csrs.mcause
  mtval := csrs.mtval
  mcounteren := csrs.mcounteren
  mcountinhibit := csrs.mcountinhibit
  pmpcfg := csrs.pmpcfg
  pmpaddr := csrs.pmpaddr

/-- Two tables that differ at most in what lower levels may see of `mstatus` and `mie`, and in
registers of lower levels. -/
theorem machineLevel_congr {csrs csrs' : CsrTable}
    (mstatus : csrs'.mstatus &&& ~~~CsrMask.SSTATUS = csrs.mstatus &&& ~~~CsrMask.SSTATUS)
    (mie : csrs'.mie &&& ~~~CsrMask.SIE = csrs.mie &&& ~~~CsrMask.SIE)
    (rest : machineLevel { csrs' with mstatus := csrs.mstatus, mie := csrs.mie } =
      machineLevel csrs) : machineLevel csrs' = machineLevel csrs := by
  simp only [machineLevel, MachineLevel.mk.injEq] at rest ⊢
  tauto

/-- A write to a register of a lower level does not touch machine-level state. -/
theorem write32_isolated {name : CsrName} (lower : csrPrv name.addr < machineMode)
    (value : BitVec 32) (csrs : CsrTable) :
    machineLevel (csrs.write32 value name) = machineLevel csrs := by
  cases name with
  | sstatus | ustatus =>
      refine machineLevel_congr ?_ rfl rfl
      exact merge_and_of_disjoint (by decide) _ _
  | sie | uie =>
      refine machineLevel_congr rfl ?_ rfl
      exact merge_and_of_disjoint (by decide) _ _
  | pmpcfg index =>
      have machine : ∀ index, ¬ csrPrv (CsrName.pmpcfg index).addr < machineMode := by decide
      exact absurd lower (machine index)
  | pmpaddr index =>
      have machine : ∀ index, ¬ csrPrv (CsrName.pmpaddr index).addr < machineMode := by decide
      exact absurd lower (machine index)
  | _ => first | rfl | exact absurd lower (by decide)

/-- Recording a cause for a lower mode and entering its handler does not touch it either. -/
theorem entered_isolated {mode : PrivilegeLevel} (lower : mode = supervisorMode ∨ mode = userMode)
    (hart : Hart P.clover.terms) :
    machineLevel (entered mode hart).csrs = machineLevel hart.csrs := by
  obtain rfl | rfl := lower
  · refine machineLevel_congr ?_ rfl rfl
    calc _ = _ := BitField.set_and_of_disjoint (by decide) _ _
      _ = _ := BitField.set_and_of_disjoint (by decide) _ _
      _ = _ := BitField.set_and_of_disjoint (by decide) _ _
  · refine machineLevel_congr ?_ rfl rfl
    calc _ = _ := BitField.set_and_of_disjoint (by decide) _ _
      _ = _ := BitField.set_and_of_disjoint (by decide) _ _

theorem setCause_isolated {mode : PrivilegeLevel} (lower : mode = supervisorMode ∨ mode = userMode)
    (csrs : CsrTable) (code interrupt : BitVec 32) :
    machineLevel (setCause mode csrs code interrupt) = machineLevel csrs := by
  obtain rfl | rfl := lower <;> rfl

theorem setTval_isolated {mode : PrivilegeLevel} (lower : mode = supervisorMode ∨ mode = userMode)
    (csrs : CsrTable) (tval : BitVec 32) :
    machineLevel (setTval mode csrs tval) = machineLevel csrs := by
  obtain rfl | rfl := lower <;> rfl

/-! ## Steps -/

/-- The level is still below machine mode, and machine-level state is the same. -/
structure Isolated (before after : State P) : Prop where
  below : after.hart.prv < machineMode
  same : machineLevel after.hart.csrs = machineLevel before.hart.csrs

/-- Isolation is a property of the control state. -/
def IsolatedFrom (fixed : MachineLevel) (control : Control) : Prop :=
  control.prv < machineMode ∧ machineLevel control.csrs = fixed

theorem isolated_iff {before after : State P} :
    Isolated before after ↔
      IsolatedFrom (machineLevel before.hart.csrs) (control after) :=
  ⟨fun isolated => ⟨isolated.below, isolated.same⟩, fun isolated => ⟨isolated.1, isolated.2⟩⟩

/-- The step executes an instruction with the given opcode. -/
def Executes (state : State P) (op : Mapping) : Prop :=
  ¬AtBreakpoint state ∧ ∃ word, FetchReturns input (begun state) word ∧ decodedOpcode word = op

/-- A step from this state leaves machine mode alone unless it enters it, and an `MRET` is
refused. -/
def StaysIsolated (state : State P) : Prop :=
  (∀ taken, ((runStep input).run state).result = .ok taken → taken ≠ .trap machineMode →
      taken ≠ .interrupt machineMode → Isolated state ((runStep input).run state).state) ∧
    (Executes input state .mret →
      ∃ mtval, (executed input state).result = .error (.trap ⟨.illegalInstr, mtval⟩))

/-- An instruction other than `MRET` does not touch machine-level state. -/
theorem isolated_executed {state : State P} (below : state.hart.prv < machineMode)
    (other : ¬Executes input state .mret) (running : ¬AtBreakpoint state) :
    IsolatedFrom (machineLevel state.hart.csrs) (control (executed input state).state) := by
  refine (execChanges_execStep input (begun state)).keeps input ⟨below, rfl⟩ ?_ ?_
  · intro word name csrVal value fetched addressed allowed operand old
    exact ⟨below, write32_isolated (Nat.lt_of_le_of_lt allowed below) value _⟩
  · intro word fetched returns
    exact absurd ⟨running, word, fetched, returns⟩ other

/-- Steps that do not execute `MRET` leave machine mode alone. -/
theorem isolated_runStep {state : State P} (below : state.hart.prv < machineMode)
    (other : ¬Executes input state .mret) {taken : Taken}
    (returned : ((runStep input).run state).result = .ok taken)
    (noTrap : taken ≠ .trap machineMode) (noInterrupt : taken ≠ .interrupt machineMode) :
    Isolated state ((runStep input).run state).state := by
  -- a handler that is entered is one of a lower mode
  have lower : ∀ mode, taken = .trap mode ∨ taken = .interrupt mode →
      isValidPrivilegeLevel mode → mode = supervisorMode ∨ mode = userMode := by
    rintro mode (rfl | rfl) valid
    · exact (mode_cases valid).resolve_left fun same => noTrap (same ▸ rfl)
    · exact (mode_cases valid).resolve_left fun same => noInterrupt (same ▸ rfl)
  rw [isolated_iff]
  refine (stepTakes_runStep input returned).keeps input ⟨below, rfl⟩
    (isolated_executed input below other) ?_ ?_ ?_
  · intro mode hart code interrupt enters valid isolated
    exact ⟨isolated.1, (setCause_isolated (lower mode enters valid) _ _ _).trans isolated.2⟩
  · intro mode hart tval enters valid isolated
    exact ⟨isolated.1, (setTval_isolated (lower mode (.inl enters) valid) _ _).trans isolated.2⟩
  · intro mode hart enters valid isolated
    have choice := lower mode enters valid
    refine ⟨?_, (entered_isolated choice hart).trans isolated.2⟩
    obtain rfl | rfl := choice
    · exact (by decide : supervisorMode < machineMode)
    · exact (by decide : userMode < machineMode)

/-- Below machine mode a step stays isolated exactly if it does not execute `MRET`. -/
theorem staysIsolated_iff {state : State P} (below : state.hart.prv < machineMode) :
    StaysIsolated input state ↔ ¬Executes input state .mret := by
  constructor
  · rintro ⟨-, refused⟩ executes
    obtain ⟨mtval, trapped⟩ := refused executes
    obtain ⟨-, word, fetched, returns⟩ := executes
    rw [executed, execStep_run input fetched, returns] at trapped
    cases trapped
  · intro other
    exact ⟨fun taken returned noTrap noInterrupt =>
      isolated_runStep input below other returned noTrap noInterrupt, fun executes =>
      absurd executes other⟩

/-- A run stays isolated in all its states below machine mode exactly if it never executes
`MRET` there. -/
theorem staysIsolated_along_run_iff (start : State P) :
    (∀ state, Reaches (runStep input) start state → state.hart.prv < machineMode →
        StaysIsolated input state) ↔
      ∀ state, Reaches (runStep input) start state → state.hart.prv < machineMode →
        ¬Executes input state .mret := by
  constructor
  · intro isolated state reached below
    exact (staysIsolated_iff input below).mp (isolated state reached below)
  · intro other state reached below
    exact (staysIsolated_iff input below).mpr (other state reached below)

/-- `MRET` at address zero, executed twice: the first time it leaves machine mode, the second
time it runs in user mode and turns machine-mode interrupts on. -/
theorem not_isolated_mret : ∃ state : State tryoutPlatform,
    Reachable zeroInput state ∧ state.hart.prv < machineMode ∧
      ((runStep zeroInput).run state).result = .ok .nothing ∧
      ¬Isolated state ((runStep zeroInput).run state).state := by
  let first := (runStep zeroInput).run (programStart [0x30200073])
  have returned : first.result = .ok .nothing := rfl
  refine ⟨first.state, ⟨_, reset_programStart _, .step .start returned⟩, ?_, ?_, fun isolated => ?_⟩
  · decide +kernel
  · decide +kernel
  · have enabled := congrArg MachineLevel.mstatus isolated.same
    revert enabled
    decide +kernel

end SymexVP.Iss
