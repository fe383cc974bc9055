import SymexVP.TrapRouting
import SymexVP.PrivilegeLevels

/-!
# Trap entry and return are inverse

Entering a handler saves the level, the program counter and the interrupt enable of
the mode in `xepc` and in packed fields of `mstatus`. A handler that neither writes
these registers nor traps leaves them alone, whatever else it does, so that the return
finds what the entry has saved. As long as it runs, the mode cannot be interrupted
again, because its enable is off.
-/

namespace SymexVP.Iss

open Exec Opcode BitFields

variable {P : Platform} (input : P.clover.terms.Assignment)

/-- The registers in which the entry into a handler saves the state of the hart. -/
def Saves (mode : PrivilegeLevel) : CsrName → Prop
  | .mstatus | .sstatus | .ustatus => True
  | .mepc => mode = machineMode
  | .sepc => mode = supervisorMode
  | .uepc => mode = userMode
  | _ => False

/-- The step executes an instruction that writes one of them: a CSR instruction, or `MRET`. -/
def WritesSaved (mode : PrivilegeLevel) (state : State P) : Prop :=
  ¬AtBreakpoint state ∧ ∃ word, FetchReturns input (begun state) word ∧
    (decodedOpcode word = .mret ∨
      ∃ name csrVal value, Saves mode name ∧ name.addr = (decoded word).2.csr ∧
        csrOperand (decodedOpcode word) (decodedHart (begun state).hart word) csrVal = some value)

/-- The states a handler passes through as long as its steps take no trap or interrupt and write
none of these registers. -/
inductive HandlerSteps (mode : PrivilegeLevel) (start : State P) : State P → Prop
  | start : HandlerSteps mode start start
  | step {state : State P} {taken : Taken} (earlier : HandlerSteps mode start state)
      (returned : ((runStep input).run state).result = .ok taken)
      (calm : taken = .nothing ∨ taken = .breakpoint)
      (harmless : ¬WritesSaved input mode state) :
      HandlerSteps mode start ((runStep input).run state).state

/-! ## What a handler keeps -/

/-- The mode of the handler and what it will return to. -/
def InHandler (mode : PrivilegeLevel) (mstatus pc : BitVec 32) (control : Control) : Prop :=
  control.prv = mode ∧ control.csrs.mstatus = mstatus ∧ xepc mode control.csrs = pc

/-- A write to another register does not touch what was saved. -/
theorem write32_saved {mode : PrivilegeLevel} (valid : isValidPrivilegeLevel mode)
    {name : CsrName} (other : ¬Saves mode name) (value : BitVec 32) (csrs : CsrTable) :
    (csrs.write32 value name).mstatus = csrs.mstatus ∧
      xepc mode (csrs.write32 value name) = xepc mode csrs := by
  cases name with
  | mstatus | sstatus | ustatus => exact absurd trivial other
  | mepc | sepc | uepc =>
      refine ⟨rfl, ?_⟩
      obtain rfl | rfl | rfl := mode_cases valid <;> first | rfl | exact absurd rfl other
  | _ => exact ⟨rfl, rfl⟩

section Handler

variable {mode : PrivilegeLevel} (valid : isValidPrivilegeLevel mode) {mstatus pc : BitVec 32}
  {state : State P} (inHandler : InHandler mode mstatus pc (control state))
  (harmless : ¬WritesSaved input mode state)

include valid inHandler harmless

theorem inHandler_executed (running : ¬AtBreakpoint state) :
    InHandler mode mstatus pc (control (executed input state).state) := by
  obtain ⟨level, saved, target⟩ := inHandler
  refine (execChanges_execStep input (begun state)).keeps input ⟨level, saved, target⟩ ?_ ?_
  · intro word name csrVal value fetched addressed _ operand _
    have other : ¬Saves mode name := fun saves =>
      harmless ⟨running, word, fetched, .inr ⟨name, csrVal, value, saves, addressed, operand⟩⟩
    obtain ⟨status, address⟩ := write32_saved valid other value state.hart.csrs
    exact ⟨level, status.trans saved, address.trans target⟩
  · intro word fetched returns
    exact absurd ⟨running, word, fetched, .inl returns⟩ harmless

theorem inHandler_runStep {taken : Taken} (returned : ((runStep input).run state).result = .ok taken)
    (calm : taken = .nothing ∨ taken = .breakpoint) :
    InHandler mode mstatus pc (control ((runStep input).run state).state) := by
  have enters : ∀ level, ¬(taken = .trap level ∨ taken = .interrupt level) := by
    rintro level (rfl | rfl) <;> simp at calm
  refine (stepTakes_runStep input returned).keeps input inHandler
    (inHandler_executed input valid inHandler harmless) ?_ ?_ ?_
  · intro level hart code interrupt entering
    exact absurd entering (enters level)
  · intro level hart tval entering
    exact absurd (.inl entering) (enters level)
  · intro level hart entering
    exact absurd entering (enters level)

end Handler

/-- A handler's steps keep what its entry has saved. -/
theorem inHandler_of_handlerSteps {mode : PrivilegeLevel} (valid : isValidPrivilegeLevel mode)
    {mstatus pc : BitVec 32} {start state : State P}
    (entered : InHandler mode mstatus pc (control start))
    (steps : HandlerSteps input mode start state) :
    InHandler mode mstatus pc (control state) := by
  induction steps with
  | start => exact entered
  | step earlier returned calm harmless inductionHypothesis =>
      exact inHandler_runStep input valid inductionHypothesis harmless returned calm

/-! ## The saved fields -/

section Fields

variable {mode : PrivilegeLevel} (valid : isValidPrivilegeLevel mode)

include valid

/-- `mstatus` after the entry into a handler. -/
def savedStatus (mode : PrivilegeLevel) (mstatus : BitVec 32) (level : PrivilegeLevel) :
    BitVec 32 :=
  setXpp mode ((xie mode).set ((xpie mode).set mstatus ((xie mode).get mstatus)) 0) level

/-- `mstatus` after the return from a handler. -/
def restoredStatus (mode : PrivilegeLevel) (mstatus : BitVec 32) : BitVec 32 :=
  setXpp mode ((xpie mode).set ((xie mode).set mstatus ((xpie mode).get mstatus)) 1) userMode

/-- Setting the previous level does not touch the interrupt enables. -/
theorem xie_setXpp (mstatus level : BitVec 32) :
    (xie mode).get (setXpp mode mstatus level) = (xie mode).get mstatus := by
  obtain rfl | rfl | rfl := mode_cases valid
  · exact BitField.get_set_of_apart (by decide) _ _
  · exact BitField.get_set_of_apart (by decide) _ _
  · rfl

theorem xpie_setXpp (mstatus level : BitVec 32) :
    (xpie mode).get (setXpp mode mstatus level) = (xpie mode).get mstatus := by
  obtain rfl | rfl | rfl := mode_cases valid
  · exact BitField.get_set_of_apart (by decide) _ _
  · exact BitField.get_set_of_apart (by decide) _ _
  · rfl

/-- The enable of a mode and its saved copy are single bits next to each other. -/
theorem xie_apart_xpie : BitField.Apart (xie mode) (xpie mode) ∧ (xie mode).len = 1 ∧
    (xpie mode).len = 1 := by
  obtain rfl | rfl | rfl := mode_cases valid <;> decide

theorem xie_savedStatus (mstatus : BitVec 32) (level : PrivilegeLevel) :
    (xie mode).get (savedStatus mode mstatus level) = 0 := by
  obtain ⟨-, single, -⟩ := xie_apart_xpie valid
  rw [savedStatus, xie_setXpp valid]
  exact BitField.get_set_of_fits (by rw [single]; decide) _

theorem xpie_savedStatus (mstatus : BitVec 32) (level : PrivilegeLevel) :
    (xpie mode).get (savedStatus mode mstatus level) = (xie mode).get mstatus := by
  obtain ⟨apart, single, single'⟩ := xie_apart_xpie valid
  rw [savedStatus, xpie_setXpp valid, BitField.get_set_of_apart apart.symm]
  refine BitField.get_set_of_fits ?_ _
  rw [single', ← single]
  exact BitField.toNat_get_lt _ _

theorem xie_restoredStatus (mstatus : BitVec 32) :
    (xie mode).get (restoredStatus mode mstatus) = (xpie mode).get mstatus := by
  obtain ⟨apart, single, single'⟩ := xie_apart_xpie valid
  rw [restoredStatus, xie_setXpp valid, BitField.get_set_of_apart apart]
  refine BitField.get_set_of_fits ?_ _
  rw [single, ← single']
  exact BitField.toNat_get_lt _ _

theorem xpie_restoredStatus (mstatus : BitVec 32) :
    (xpie mode).get (restoredStatus mode mstatus) = 1 := by
  obtain ⟨-, -, single⟩ := xie_apart_xpie valid
  rw [restoredStatus, xpie_setXpp valid]
  exact BitField.get_set_of_fits (by rw [single]; decide) _

/-- A level that is not above the mode fits the field for the previous one. -/
theorem xpp_setXpp {level : PrivilegeLevel} (known : isValidPrivilegeLevel level)
    (below : level ≤ mode) (mstatus : BitVec 32) : xpp mode (setXpp mode mstatus level) = level := by
  obtain rfl | rfl | rfl := mode_cases valid
  · exact mpp_set_of_valid known mstatus
  · refine BitField.get_set_of_fits ?_ mstatus
    obtain rfl | rfl | rfl := mode_cases known
    · exact absurd below (by decide)
    · decide
    · decide
  · obtain rfl | rfl | rfl := mode_cases known
    · exact absurd below (by decide)
    · exact absurd below (by decide)
    · rfl

end Fields

/-! ## Entry, handler and return -/

theorem inHandler_entered {mode : PrivilegeLevel} (valid : isValidPrivilegeLevel mode)
    (state : State P) :
    InHandler mode (savedStatus mode state.hart.csrs.mstatus state.hart.prv) state.hart.pc
      (control ((switchToTrapHandler mode).run state).state) := by
  rw [switchToTrapHandler_run valid]
  refine ⟨rfl, rfl, ?_⟩
  obtain rfl | rfl | rfl := mode_cases valid <;> rfl

/-- While the enable of the current mode is off, that mode is not interrupted. -/
theorem targetMode_ne_of_inHandler {mode : PrivilegeLevel} (valid : isValidPrivilegeLevel mode)
    {mstatus pc : BitVec 32} (disabled : (xie mode).get mstatus = 0) {state : State P}
    (inHandler : InHandler mode mstatus pc (control state)) :
    (computePendingInterrupts state).targetMode ≠ mode := by
  intro selected
  obtain ⟨level, status, -⟩ := inHandler
  have current : state.hart.prv = mode := level
  have chosen : (computePendingInterrupts state).targetMode ≠ noneMode := by
    rw [selected]
    rintro rfl
    cases valid
  obtain ⟨-, able, -, -⟩ := (interruptIsSelected state).1 chosen
  rw [selected] at able
  obtain below | ⟨-, enabled⟩ := able
  · rw [current] at below
    exact absurd below (BitVec.lt_irrefl mode)
  · have bit := BitField.getLsbD_get (xie mode) state.hart.csrs.mstatus 0
    rw [show state.hart.csrs.mstatus = mstatus from status] at enabled bit
    rw [disabled, (xie_apart_xpie valid).2.1, Nat.add_zero, enabled] at bit
    exact absurd bit (by decide)

/-- After the entry into a handler, any steps of it, and the return, the hart is at the level and
program counter it had at the entry, with the interrupt enable it had, and the return has left
the saved enable on and user mode as the previous level. The handler's mode is not
interrupted between two of its steps, nor after the instruction of a step. -/
theorem entry_handler_return {entry last : State P} {mode : PrivilegeLevel}
    (valid : isValidPrivilegeLevel mode) (known : isValidPrivilegeLevel entry.hart.prv)
    (below : entry.hart.prv ≤ mode)
    (steps : HandlerSteps input mode ((switchToTrapHandler mode).run entry).state last) :
    ((switchToTrapHandler mode).run entry).result = .ok () ∧
      ((returnFromTrapHandler mode).run last).result = .ok () ∧
      (let after := ((returnFromTrapHandler mode).run last).state.hart
       after.prv = entry.hart.prv ∧ after.pc = entry.hart.pc ∧
        (xie mode).get after.csrs.mstatus = (xie mode).get entry.hart.csrs.mstatus ∧
        (xpie mode).get after.csrs.mstatus = 1 ∧ xpp mode after.csrs.mstatus = userMode) ∧
      ∀ during, HandlerSteps input mode ((switchToTrapHandler mode).run entry).state during →
        (computePendingInterrupts during).targetMode ≠ mode ∧
          (¬AtBreakpoint during → ¬WritesSaved input mode during →
            (computePendingInterrupts (executed input during).state).targetMode ≠ mode) := by
  have entered := inHandler_entered valid entry
  have disabled := xie_savedStatus valid entry.hart.csrs.mstatus entry.hart.prv
  obtain ⟨-, status, target⟩ := inHandler_of_handlerSteps input valid entered steps
  have saved : last.hart.csrs.mstatus =
      savedStatus mode entry.hart.csrs.mstatus entry.hart.prv := status
  refine ⟨by rw [switchToTrapHandler_run valid], by rw [returnFromTrapHandler_run valid], ?_,
    fun during reached => ?_⟩
  · rw [returnFromTrapHandler_run valid]
    refine ⟨?_, target, ?_, xpie_restoredStatus valid _, ?_⟩
    · show xpp mode last.hart.csrs.mstatus = _
      rw [saved]
      exact xpp_setXpp valid known below _
    · show (xie mode).get (restoredStatus mode last.hart.csrs.mstatus) = _
      rw [xie_restoredStatus valid, saved, xpie_savedStatus valid]
    · exact xpp_setXpp valid rfl (show userMode ≤ mode from Nat.zero_le _) _
  · have inHandler := inHandler_of_handlerSteps input valid entered reached
    refine ⟨targetMode_ne_of_inHandler valid disabled inHandler, fun running harmless => ?_⟩
    exact targetMode_ne_of_inHandler valid disabled
      (inHandler_executed input valid inHandler harmless running)

/-- A handler of one instruction that does nothing. -/
theorem entry_handler_return_nop :
    let entry := programStart [0x00000013]
    let last := ((runStep zeroInput).run ((switchToTrapHandler machineMode).run entry).state).state
    ((returnFromTrapHandler machineMode).run last).state.hart.prv = entry.hart.prv := by
  intro entry last
  let handler := ((switchToTrapHandler machineMode).run entry).state
  have harmless : ¬WritesSaved zeroInput machineMode handler := by
    rintro ⟨-, word, ⟨-, rfl⟩, choice⟩
    have plain : decodedOpcode ((fetch zeroInput).run (begun handler)).state.hart.instr = .addi := by
      decide +kernel
    rw [plain] at choice
    obtain returns | ⟨name, csrVal, value, -, -, operand⟩ := choice
    · cases returns
    · cases operand
  have returned : ((runStep zeroInput).run handler).result = .ok .nothing := by decide +kernel
  exact (entry_handler_return zeroInput rfl rfl (by decide)
    (.step .start returned (.inl rfl) harmless)).2.2.1.1

end SymexVP.Iss
