import SymexVP.StepContracts
import SymexVP.TrapHandling

/-!
# Routing of traps and interrupts

Which mode handles a trap or an interrupt is decided by two levels of delegation
registers and by the interrupt enables of the modes. The decision for interrupts is
stated here without the nesting of the source: an interrupt is routed to one mode, and
a mode qualifies if something is routed to it and it may be interrupted. That some
interrupt is always found for a qualifying mode rests on an invariant of all runs: no
bit of `mie` is ever set that does not stand for one of the nine interrupts.
-/

namespace SymexVP.Iss

open Exec Opcode BitFields

variable {P : Platform} (input : P.clover.terms.Assignment)

/-! ## The bits of `mie` -/

/-- Only the nine interrupts are enabled. -/
def EnablesKnown (control : Control) : Prop := control.csrs.mie &&& ~~~CsrMask.MIE = 0

/-- Each of the three views of `mie` writes known bits only. -/
theorem write32_mie {csrs : CsrTable} (known : csrs.mie &&& ~~~CsrMask.MIE = 0)
    (name : CsrName) (value : BitVec 32) :
    (csrs.write32 value name).mie &&& ~~~CsrMask.MIE = 0 := by
  cases name with
  | mie | sie | uie => exact (merge_and_of_disjoint (by decide) _ _).trans known
  | _ => exact known

theorem enablesKnown_executed {state : State P} (known : EnablesKnown (control state)) :
    EnablesKnown (control (executed input state).state) := by
  refine (execChanges_execStep input (begun state)).keeps input known ?_ ?_
  · intro word name csrVal value _ _ _ _ _
    have before : state.hart.csrs.mie &&& ~~~CsrMask.MIE = 0 := known
    exact write32_mie before name value
  · intro word _ _
    exact known

theorem enablesKnown_runStep {state : State P} (known : EnablesKnown (control state))
    {taken : Taken} (returned : ((runStep input).run state).result = .ok taken) :
    EnablesKnown (control ((runStep input).run state).state) := by
  refine (stepTakes_runStep input returned).keeps input known
    (fun _ => enablesKnown_executed input known) ?_ ?_ ?_
  · intro mode hart code interrupt _ valid known
    obtain rfl | rfl | rfl := mode_cases valid <;> exact known
  · intro mode hart tval _ valid known
    obtain rfl | rfl | rfl := mode_cases valid <;> exact known
  · intro mode hart _ valid known
    obtain rfl | rfl | rfl := mode_cases valid <;> exact known

theorem enablesKnown_of_reachable {state : State P} (reachable : Reachable input state) :
    EnablesKnown (control state) := by
  obtain ⟨start, reset, reached⟩ := reachable
  induction reached with
  | start =>
      cases reset
      exact (by decide : (0 : BitVec 32) &&& ~~~CsrMask.MIE = 0)
  | step _ returned inductionHypothesis => exact enablesKnown_runStep input inductionHypothesis returned

/-! ## Interrupts -/

/-- The interrupts that the delegation registers route to a mode. -/
def routed (mode : PrivilegeLevel) (csrs : CsrTable) : BitVec 32 :=
  if mode = machineMode then ~~~csrs.mideleg
  else if mode = supervisorMode then csrs.mideleg &&& ~~~csrs.sideleg
  else csrs.mideleg &&& csrs.sideleg

/-- The enabled pending interrupts among them. -/
def routedTo (mode : PrivilegeLevel) (state : State P) : BitVec 32 :=
  state.hart.csrs.mie &&& state.board.mip &&& routed mode state.hart.csrs

/-- A mode above the current one can always be interrupted, the current one if it has enabled
interrupts. -/
def Interruptible (mode : PrivilegeLevel) (state : State P) : Prop :=
  state.hart.prv < mode ∨
    state.hart.prv = mode ∧ state.hart.csrs.mstatus.getLsbD (xie mode).lo = true

/-- An interrupt is to be taken into the mode. -/
def Qualifies (mode : PrivilegeLevel) (state : State P) : Prop :=
  routedTo mode state ≠ 0 ∧ Interruptible mode state

/-- Nothing is below user mode. -/
theorem not_lt_userMode (level : PrivilegeLevel) : ¬level < userMode := BitVec.not_lt_zero

/-- `compute_pending_interrupts` selects the highest mode that qualifies, with everything that
is routed to it. -/
theorem computePendingInterrupts_spec (state : State P) :
    computePendingInterrupts state =
      open Classical in
      if Qualifies machineMode state then ⟨machineMode, routedTo machineMode state⟩
      else if Qualifies supervisorMode state then ⟨supervisorMode, routedTo supervisorMode state⟩
      else if Qualifies userMode state then ⟨userMode, routedTo userMode state⟩
      else ⟨noneMode, 0⟩ := by
  have machine : Qualifies machineMode state ↔
      state.hart.csrs.mie &&& state.board.mip &&& ~~~state.hart.csrs.mideleg ≠ 0 ∧
        (state.hart.prv < machineMode ∨ state.hart.prv = machineMode ∧
          state.hart.csrs.mstatus.getLsbD Mstatus.mie.lo) := Iff.rfl
  have supervisor : Qualifies supervisorMode state ↔
      state.hart.csrs.mie &&& state.board.mip &&&
          (state.hart.csrs.mideleg &&& ~~~state.hart.csrs.sideleg) ≠ 0 ∧
        (state.hart.prv < supervisorMode ∨ state.hart.prv = supervisorMode ∧
          state.hart.csrs.mstatus.getLsbD Mstatus.sie.lo) := Iff.rfl
  have user : Qualifies userMode state ↔
      state.hart.csrs.mie &&& state.board.mip &&&
          (state.hart.csrs.mideleg &&& state.hart.csrs.sideleg) ≠ 0 ∧
        state.hart.prv = userMode ∧ state.hart.csrs.mstatus.getLsbD Mstatus.uie.lo := by
    refine and_congr_right fun _ => ⟨fun able => ?_, .inr⟩
    exact able.resolve_left (not_lt_userMode _)
  by_cases empty : state.hart.csrs.mie &&& state.board.mip = 0
  · have none : ∀ mode, ¬Qualifies mode state := by
      rintro mode ⟨some, -⟩
      exact some (by rw [routedTo, empty]; exact BitVec.zero_and)
    rw [if_neg (none _), if_neg (none _), if_neg (none _)]
    unfold computePendingInterrupts
    exact if_pos empty
  · unfold computePendingInterrupts
    dsimp only
    rw [if_neg empty, BitVec.and_assoc _ state.hart.csrs.mideleg,
      BitVec.and_assoc _ state.hart.csrs.mideleg]
    simp only [machine, supervisor, user]
    rfl

/-- The interrupt is in the set, and no interrupt that is tested before it is. -/
def Highest (pending : BitVec 32) (interrupt : Interrupt) : Prop :=
  pending.getLsbD interrupt.code = true ∧
    ∃ earlier later, Interrupt.byPriority = earlier ++ interrupt :: later ∧
      ∀ other ∈ earlier, pending.getLsbD other.code = false

theorem highest_of_find {pending : BitVec 32} {interrupt : Interrupt}
    (found : highestPriority pending = some interrupt) : Highest pending interrupt := by
  obtain ⟨member, earlier, later, split, clear⟩ := List.find?_eq_some_iff_append.mp found
  refine ⟨member, earlier, later, split, fun other before => ?_⟩
  exact Bool.eq_false_of_not_eq_true fun set => by simpa [set] using clear other before

/-- The bits of the mask are those of the nine interrupts. -/
theorem interrupt_of_mask : ∀ index < 32, CsrMask.MIE.getLsbD index = true →
    ∃ interrupt ∈ Interrupt.byPriority, interrupt.code = index := by
  decide

/-- A set of known interrupts with a member has a highest one. -/
theorem highestPriority_isSome {pending : BitVec 32} (nonempty : pending ≠ 0)
    (known : pending &&& ~~~CsrMask.MIE = 0) :
    ∃ interrupt, highestPriority pending = some interrupt := by
  obtain ⟨index, set⟩ : ∃ index, pending.getLsbD index = true := by
    by_contra clear
    push Not at clear
    refine nonempty (BitVec.eq_of_getLsbD_eq fun index _ => ?_)
    rw [Bool.eq_false_of_not_eq_true (clear index)]
    exact (BitVec.getLsbD_zero).symm
  have bound : index < 32 := BitVec.lt_of_getLsbD set
  have masked : CsrMask.MIE.getLsbD index = true := by
    have bit := congrArg (BitVec.getLsbD · index) known
    simpa [BitVec.getLsbD_and, BitVec.getLsbD_not, set, bound] using bit
  obtain ⟨interrupt, listed, code⟩ := interrupt_of_mask index bound masked
  cases found : highestPriority pending with
  | some interrupt => exact ⟨interrupt, rfl⟩
  | none =>
      have absent := List.find?_eq_none.mp found interrupt listed
      rw [code] at absent
      exact absurd set absent

/-! ## Causes -/

theorem cause_interrupt {flag : BitVec 32} (bit : flag.toNat < 2 ^ 1) (reg code : BitVec 32) :
    Mcause.interrupt.get (cause reg code flag) = flag := by
  rw [cause, BitField.get_set_of_apart (by decide)]
  exact BitField.get_set_of_fits bit _

theorem cause_code {code : BitVec 32} (fits : code.toNat < 2 ^ 31) (reg flag : BitVec 32) :
    Mcause.exceptionCode.get (cause reg code flag) = code :=
  BitField.get_set_of_fits fits _

theorem xcause_setCause {mode : PrivilegeLevel} (valid : isValidPrivilegeLevel mode)
    (csrs : CsrTable) (code flag : BitVec 32) :
    xcause mode (setCause mode csrs code flag) = cause (xcause mode csrs) code flag := by
  obtain rfl | rfl | rfl := mode_cases valid <;> rfl

theorem xcause_setTval {mode : PrivilegeLevel} (valid : isValidPrivilegeLevel mode)
    (csrs : CsrTable) (tval : BitVec 32) :
    xcause mode (setTval mode csrs tval) = xcause mode csrs := by
  obtain rfl | rfl | rfl := mode_cases valid <;> rfl

/-! ## The four functions -/

/-- `prepare_trap` hands a trap to a mode that is not below the current one and that the
delegation registers allow, and writes its two registers and no other. -/
def TrapIsRouted (state : State P) (raised : SimulationTrap) : Prop :=
  ∃ mode csrs, isValidPrivilegeLevel mode ∧
    (prepareTrap raised).run state =
      ⟨.ok mode, { state with hart := { state.hart with pc := state.hart.lastPc, csrs := csrs } },
        []⟩ ∧
    state.hart.prv ≤ mode ∧
    (mode ≠ machineMode → 1#32 <<< raised.reason.code &&& state.hart.csrs.medeleg ≠ 0) ∧
    (mode = userMode → 1#32 <<< raised.reason.code &&& state.hart.csrs.sedeleg ≠ 0) ∧
    csrs = setTval mode (setCause mode state.hart.csrs raised.reason.code 0)
      (BitVec.ofNat 32 raised.mtval) ∧
    Mcause.interrupt.get (xcause mode csrs) = 0 ∧
    Mcause.exceptionCode.get (xcause mode csrs) = raised.reason.code

/-- A selected mode qualifies and comes with all that is routed to it; if none is selected, none
qualifies. -/
def InterruptIsSelected (state : State P) : Prop :=
  let selected := computePendingInterrupts state
  (selected.targetMode ≠ noneMode →
      isValidPrivilegeLevel selected.targetMode ∧ Interruptible selected.targetMode state ∧
        selected.pending = routedTo selected.targetMode state ∧ selected.pending ≠ 0) ∧
    (selected.targetMode = noneMode → ∀ mode, isValidPrivilegeLevel mode → ¬Qualifies mode state)

/-- `prepare_interrupt` records the highest interrupt of a selection. -/
def InterruptIsRecorded (state : State P) : Prop :=
  let selected := computePendingInterrupts state
  selected.targetMode ≠ noneMode → ∃ interrupt csrs, Highest selected.pending interrupt ∧
    (prepareInterrupt selected).run state =
      ⟨.ok (), { state with hart := { state.hart with csrs := csrs } }, []⟩ ∧
    csrs = setCause selected.targetMode state.hart.csrs (BitVec.ofNat 32 interrupt.code) 1 ∧
    Mcause.interrupt.get (xcause selected.targetMode csrs) = 1 ∧
    Mcause.exceptionCode.get (xcause selected.targetMode csrs) = BitVec.ofNat 32 interrupt.code

/-- `switch_to_trap_handler` jumps to the base of the handler, and behind it to the entry for
the recorded code exactly for an interrupt in vectored mode. -/
def HandlerIsEntered (state : State P) : Prop :=
  ∀ mode, isValidPrivilegeLevel mode →
    ((switchToTrapHandler mode).run state).result = .ok () ∧
      ((switchToTrapHandler mode).run state).state.hart.pc =
        Mtvec.getBaseAddress (xtvec mode state.hart.csrs) +
          if Mcause.interrupt.get (xcause mode state.hart.csrs) = 1 ∧
            Mtvec.mode.get (xtvec mode state.hart.csrs) = Mtvec.vectored
          then 4 * Mcause.exceptionCode.get (xcause mode state.hart.csrs) else 0

/-- Traps and interrupts are routed as described. -/
structure Routes (state : State P) : Prop where
  trap : ∀ raised : SimulationTrap, raised.mtval < 2 ^ 32 → TrapIsRouted state raised
  selected : InterruptIsSelected state
  recorded : InterruptIsRecorded state
  entered : HandlerIsEntered state

theorem trapMode_ge {hart : Hart P.clover.terms} (valid : isValidPrivilegeLevel hart.prv)
    (reason : ExceptionCode) : hart.prv ≤ trapMode hart reason := by
  unfold trapMode
  obtain machine | supervisor | user := mode_cases valid
  · rw [if_pos (.inl machine), machine]
    decide
  · rw [supervisor]
    split_ifs
    · decide
    · decide
    · simp_all
  · rw [user]
    split_ifs <;> decide

theorem trapIsRouted {state : State P} (valid : isValidPrivilegeLevel state.hart.prv)
    {raised : SimulationTrap} (fits : raised.mtval < 2 ^ 32) : TrapIsRouted state raised := by
  have known := isValid_trapMode state.hart raised.reason
  have code : raised.reason.code.toNat < 2 ^ 31 := by cases raised.reason <;> decide
  refine ⟨_, _, known, prepareTrap_run fits (handled_of_valid valid _), trapMode_ge valid _, ?_, ?_,
    rfl, ?_, ?_⟩
  · intro other same
    exact other (if_pos (.inr same))
  · intro user same
    rw [trapMode] at user
    split_ifs at user with machine supervisor
    · exact absurd user (by decide)
    · exact absurd user (by decide)
    · exact supervisor (.inr same)
  · rw [xcause_setTval known, xcause_setCause known]
    exact cause_interrupt (by decide) _ _
  · rw [xcause_setTval known, xcause_setCause known]
    exact cause_code code _ _

/-- A known mode is not the sentinel. -/
theorem none_of_valid {mode : PrivilegeLevel} (valid : isValidPrivilegeLevel mode)
    {conclusion : Prop} (none : mode = noneMode) : conclusion := by
  subst none
  cases valid

theorem interruptIsSelected (state : State P) : InterruptIsSelected state := by
  unfold InterruptIsSelected
  dsimp only
  rw [computePendingInterrupts_spec]
  split_ifs with machine supervisor user
  · exact ⟨fun _ => ⟨rfl, machine.2, rfl, machine.1⟩, none_of_valid rfl⟩
  · exact ⟨fun _ => ⟨rfl, supervisor.2, rfl, supervisor.1⟩, none_of_valid rfl⟩
  · exact ⟨fun _ => ⟨rfl, user.2, rfl, user.1⟩, none_of_valid rfl⟩
  · refine ⟨fun other => absurd rfl other, fun _ mode valid => ?_⟩
    obtain rfl | rfl | rfl := mode_cases valid
    · exact machine
    · exact supervisor
    · exact user

theorem interruptIsRecorded {state : State P} (known : EnablesKnown (control state)) :
    InterruptIsRecorded state := by
  intro chosen
  obtain ⟨valid, -, all, nonempty⟩ := (interruptIsSelected state).1 chosen
  have enabled : (computePendingInterrupts state).pending &&& ~~~CsrMask.MIE = 0 := by
    have clear : state.hart.csrs.mie &&& ~~~CsrMask.MIE = 0 := known
    rw [all, routedTo, BitVec.and_assoc, BitVec.and_assoc,
      BitVec.and_comm (routed _ _), ← BitVec.and_assoc state.board.mip,
      BitVec.and_comm state.board.mip, BitVec.and_assoc, ← BitVec.and_assoc, clear]
    exact BitVec.zero_and
  obtain ⟨interrupt, highest⟩ := highestPriority_isSome nonempty enabled
  have code : (BitVec.ofNat 32 interrupt.code).toNat < 2 ^ 31 := by cases interrupt <;> decide
  refine ⟨interrupt, _, highest_of_find highest, prepareInterrupt_run valid highest state, rfl,
    ?_, ?_⟩
  · rw [xcause_setCause valid]
    exact cause_interrupt (by decide) _ _
  · rw [xcause_setCause valid]
    exact cause_code code _ _

theorem handlerIsEntered (state : State P) : HandlerIsEntered state := by
  intro mode valid
  rw [switchToTrapHandler_run valid]
  refine ⟨rfl, ?_⟩
  show handlerAddress _ _ = _
  unfold handlerAddress
  split_ifs
  · rfl
  · exact (BitVec.add_zero _).symm

theorem routes {state : State P} (valid : isValidPrivilegeLevel state.hart.prv)
    (known : EnablesKnown (control state)) : Routes state where
  trap := fun _ fits => trapIsRouted valid fits
  selected := interruptIsSelected state
  recorded := interruptIsRecorded known
  entered := handlerIsEntered state

/-- In a reachable state with a known level, and in the state the instruction executed next
leaves, traps and interrupts are routed as described. A trap that instruction raises has a
value that fits its register, as long as no page is ever translated. -/
theorem routes_of_reachable {state : State P} (reachable : Reachable input state) :
    (isValidPrivilegeLevel state.hart.prv → Routes state) ∧
      (isValidPrivilegeLevel (executed input state).state.hart.prv →
        Routes (executed input state).state) ∧
      ∀ raised, (executed input state).result = .error (.trap raised) → Fits P raised.mtval := by
  have known := enablesKnown_of_reachable input reachable
  refine ⟨fun valid => routes valid known,
    fun valid => routes valid (enablesKnown_executed input known), fun raised trapped => ?_⟩
  have between := noTranslation_of_reachable input reachable
  have empty : NoTranslation (begun state) := between
  exact fits_of_raised input empty trapped

/-- After a first instruction that enables the machine-mode software interrupt. -/
theorem routes_mie : Routes (stateAfter (runStep zeroInput) 1 (programStart [0x30445073])) :=
  (routes_of_reachable zeroInput ⟨_, reset_programStart _,
    reaches_stateAfter (by decide +kernel)⟩).1 (by decide +kernel)

end SymexVP.Iss
