import SymexVP.OutsideWorld
import SymexVP.ControlState

/-!
# Invariants of the world along the runs of a hart

The hart reaches the world through its memory interface only, and the pending interrupts
also through the three registers that show them, whose writable bits are those of user and
supervisor mode. What the steps of the world and such writes keep therefore holds in every
reachable state, and in the state an instruction leaves before interrupts are looked at.
-/

namespace SymexVP.Iss

open Exec

variable {P : Platform} (input : P.clover.terms.Assignment)

abbrev StateEvolves {α : Type} (body : IssM P α) : Prop := Steps (Evolves State.surface) body

/-! ## Building blocks -/

theorem evolves_getHart : StateEvolves (getHart : IssM P (Hart P.clover.terms)) :=
  Steps.bind Steps.get fun _ => Steps.pure _

theorem evolves_modifyHart (change : Hart P.clover.terms → Hart P.clover.terms) :
    StateEvolves (modifyHart change : IssM P Unit) := Steps.modify fun _ => .refl

theorem evolves_memory {α : Type} {body : Core → MemM P α}
    (evolves : ∀ core, BoardEvolves (body core)) : StateEvolves (memory body) := by
  refine Steps.bind evolves_getHart fun hart state => ?_
  exact evolves hart.core state.board

theorem evolves_getValue {width : Nat} (use : Use) (value : ConcolicValue P.clover.terms width) :
    StateEvolves (getValue use value : IssM P (BitVec width)) :=
  Steps.bind (Steps.emit _) fun _ => Steps.pure _

theorem evolves_raiseIllegalInstruction {α : Type} :
    StateEvolves (raiseIllegalInstruction : IssM P α) :=
  Steps.bind evolves_getHart fun _ => Steps.throw _

theorem evolves_requireIsa (extension : BitVec 32) :
    StateEvolves (requireIsa extension : IssM P Unit) :=
  Steps.bind evolves_getHart fun _ => Steps.when fun _ => evolves_raiseIllegalInstruction

theorem evolves_jumpTo (target : BitVec 32) : StateEvolves (jumpTo target : IssM P Unit) := by
  refine Steps.bind (evolves_modifyHart _) fun _ => Steps.bind evolves_getHart fun hart => ?_
  exact Steps.bind (Steps.require _ _) fun _ => Steps.when fun _ => Steps.throw _

theorem evolves_trackAndTraceBranch (cond : Bool) (expr : ConcolicValue P.clover.terms 1) :
    StateEvolves (trackAndTraceBranch cond expr : IssM P Unit) := by
  refine Steps.bind evolves_getHart fun hart => ?_
  split
  · exact Steps.emit _
  · exact Steps.pure _

theorem evolves_trapCheckAddrAlignment (alignment : Nat) (isLoad : Bool)
    (addr : ConcolicValue P.clover.terms 32) :
    StateEvolves (trapCheckAddrAlignment alignment isLoad addr : IssM P Unit) :=
  Steps.bind (evolves_getValue _ _) fun _ => Steps.when fun _ => Steps.throw _

theorem evolves_releaseLrScReservation : StateEvolves (releaseLrScReservation : IssM P Unit) :=
  Steps.bind (evolves_modifyHart _) fun _ => evolves_memory fun _ => Board.evolves_unlock _

/-! ## Instructions -/

theorem evolves_branch (operation : CompareOp) : StateEvolves (branch operation : IssM P Unit) :=
  Steps.bind evolves_getHart fun _ => Steps.bind (Steps.when fun _ => evolves_jumpTo _) fun _ =>
    evolves_trackAndTraceBranch _ _

theorem evolves_compute (value : Hart P.clover.terms → Concolic P.clover.terms) :
    StateEvolves (compute value : IssM P Unit) := evolves_modifyHart _

theorem evolves_arithmetic (operation : BinaryOp)
    (operand : Hart P.clover.terms → ConcolicValue P.clover.terms 32) :
    StateEvolves (arithmetic operation operand : IssM P Unit) := evolves_compute _

theorem evolves_comparison (operation : CompareOp)
    (operand : Hart P.clover.terms → ConcolicValue P.clover.terms 32) :
    StateEvolves (comparison operation operand : IssM P Unit) := evolves_compute _

theorem evolves_jalr : StateEvolves (jalr : IssM P Unit) := by
  refine Steps.bind evolves_getHart fun _ => Steps.bind (evolves_getValue _ _) fun _ => ?_
  exact Steps.bind (evolves_jumpTo _) fun _ => evolves_modifyHart _

section Accesses

variable {check : ConcolicValue P.clover.terms 32 → IssM P Unit}
  (checks : ∀ addr, StateEvolves (check addr)) (numBytes : Nat)

include checks

theorem evolves_store : StateEvolves (store input check numBytes) := by
  refine Steps.bind evolves_getHart fun _ => Steps.bind (checks _) fun _ => ?_
  exact evolves_memory fun core => evolves_symbolicStoreData (evolves_bus core input) _ _ _

theorem evolves_load : StateEvolves (load input check numBytes) := by
  refine Steps.bind evolves_getHart fun _ => Steps.bind (checks _) fun _ => ?_
  refine Steps.bind (evolves_memory fun core => ?_) fun _ => evolves_modifyHart _
  exact evolves_loadSigned (evolves_bus core input) _ _

theorem evolves_loadUnsigned : StateEvolves (loadUnsigned input check numBytes) := by
  refine Steps.bind evolves_getHart fun _ => Steps.bind (checks _) fun _ => ?_
  refine Steps.bind (evolves_memory fun core => ?_) fun _ => evolves_modifyHart _
  exact SymexVP.evolves_loadUnsigned (evolves_bus core input) _ _

end Accesses

theorem evolves_ecall : StateEvolves (ecall : IssM P Unit) :=
  Steps.bind evolves_getHart fun _ =>
    Steps.ite (Steps.throw _) (Steps.ite (Steps.throw _)
      (Steps.ite (Steps.throw _) (Steps.throw _)))

theorem evolves_wfi : StateEvolves (wfi : IssM P Unit) := by
  refine Steps.bind evolves_releaseLrScReservation fun _ => Steps.bind Steps.get fun state => ?_
  refine Steps.ite evolves_raiseIllegalInstruction (Steps.ite evolves_raiseIllegalInstruction ?_)
  exact Steps.ite (evolves_memory fun _ => Board.evolves_waitFor .waitWfi) (Steps.pure _)

theorem evolves_multiply
    (extend₁ extend₂ : ConcolicValue P.clover.terms 32 → ConcolicValue P.clover.terms 64)
    (offset : Nat) : StateEvolves (multiply extend₁ extend₂ offset : IssM P Unit) :=
  Steps.bind (evolves_requireIsa _) fun _ => evolves_modifyHart _

theorem evolves_divide (onZero : Hart P.clover.terms → Hart P.clover.terms)
    (result : Hart P.clover.terms → ConcolicValue P.clover.terms 32) :
    StateEvolves (divide onZero result : IssM P Unit) := by
  refine Steps.bind (evolves_requireIsa _) fun _ => Steps.bind evolves_getHart fun hart => ?_
  refine Steps.bind (Steps.ite (evolves_modifyHart _) (evolves_modifyHart _)) fun _ => ?_
  exact evolves_trackAndTraceBranch _ _

theorem evolves_returnFromTrapHandler (mode : PrivilegeLevel) :
    StateEvolves (returnFromTrapHandler mode : IssM P Unit) :=
  Steps.ite (evolves_modifyHart _) (Steps.ite (evolves_modifyHart _)
    (Steps.ite (evolves_modifyHart _) (Steps.throw _)))

theorem evolves_lrW : StateEvolves (lrW input) := by
  refine Steps.bind (evolves_requireIsa _) fun _ => Steps.bind evolves_getHart fun hart => ?_
  refine Steps.bind (evolves_trapCheckAddrAlignment _ _ _) fun _ => ?_
  refine Steps.bind (evolves_memory fun core => ?_) fun _ => ?_
  · exact evolves_atomicLoadReservedWord (evolves_bus core input) _ _
  · exact Steps.bind (evolves_modifyHart _) fun _ => evolves_modifyHart _

theorem evolves_scW : StateEvolves (scW input) := by
  refine Steps.bind (evolves_requireIsa _) fun _ => Steps.bind evolves_getHart fun hart => ?_
  refine Steps.bind (evolves_trapCheckAddrAlignment _ _ _) fun _ => ?_
  refine Steps.bind (evolves_modifyHart _) fun _ => Steps.bind (evolves_memory fun core => ?_)
    fun _ => ?_
  · exact evolves_atomicStoreConditionalWord (evolves_bus core input) _ _ _
  · exact Steps.bind (evolves_modifyHart _) fun _ => evolves_modifyHart _

theorem evolves_executeAmo (operation : ConcolicValue P.clover.terms 32 →
    ConcolicValue P.clover.terms 32 → ConcolicValue P.clover.terms 32) :
    StateEvolves (executeAmo input operation) := by
  refine Steps.bind (evolves_requireIsa _) fun _ => Steps.bind evolves_getHart fun hart => ?_
  refine Steps.bind (evolves_trapCheckAddrAlignment _ _ _) fun _ => ?_
  refine Steps.bind (Steps.tryCatch (evolves_memory fun core => ?_) fun fault => ?_) fun data => ?_
  · exact evolves_atomicLoadWord (evolves_bus core input) _
  · split <;> exact Steps.throw _
  · refine Steps.bind (evolves_memory fun core => ?_) fun _ => evolves_modifyHart _
    exact evolves_atomicStoreWord (evolves_bus core input) _ _

/-! ## Control and status registers -/

theorem evolves_isInvalidCsrAccess (address : BitVec 32) (isWrite : Bool) :
    StateEvolves (isInvalidCsrAccess address isWrite : IssM P Bool) :=
  Steps.bind (Steps.when fun _ => evolves_requireIsa _) fun _ => Steps.bind evolves_getHart fun _ =>
    Steps.pure _

theorem evolves_updateTime : StateEvolves (updateTime : IssM P (BitVec 64)) := by
  refine Steps.bind (evolves_memory fun _ board => ?_) fun _ => ?_
  · exact .single (@Surface.Step.does P board.surface [] _ (.updateAndGetMtime board.world))
  · exact Steps.bind (evolves_modifyHart _) fun _ => Steps.pure _

theorem evolves_updateCycle : StateEvolves (updateCycle : IssM P (BitVec 64)) := by
  refine Steps.bind (Steps.bind evolves_getHart fun _ => ?_) fun _ => ?_
  · exact Steps.bind (Steps.require _ _) fun _ => Steps.pure _
  · exact Steps.bind (evolves_modifyHart _) fun _ => Steps.pure _

theorem evolves_readCsr (name : CsrName) : StateEvolves (readCsr name : IssM P (BitVec 32)) := by
  refine Steps.bind Steps.get fun state => ?_
  cases name
  case time | timeh | mtime | mtimeh => exact Steps.bind evolves_updateTime fun _ => Steps.pure _
  case mcycle | mcycleh => exact Steps.bind evolves_updateCycle fun _ => Steps.pure _
  case satp => exact Steps.ite evolves_raiseIllegalInstruction (Steps.pure _)
  all_goals exact Steps.pure _

theorem evolves_getCsrValue (address : BitVec 32) :
    StateEvolves (getCsrValue address : IssM P (BitVec 32)) := by
  refine Steps.bind (Steps.bind evolves_getHart fun hart => ?_) fun _ => ?_
  · refine Steps.ite (Steps.ite evolves_raiseIllegalInstruction ?_) (Steps.pure _)
    exact Steps.ite evolves_raiseIllegalInstruction (Steps.pure _)
  · refine Steps.ite (Steps.pure _) ?_
    split
    · exact evolves_readCsr _
    · exact evolves_raiseIllegalInstruction

theorem evolves_setMip (value mask : BitVec 32) (software : mask &&& ~~~CsrMask.MIP_WRITE = 0) :
    StateEvolves (writeCsr.setMip value mask : IssM P Unit) :=
  Steps.modify fun state => .single (.written state.surface mask value software)

theorem evolves_writeCsr (name : CsrName) (value : BitVec 32) :
    StateEvolves (writeCsr name value : IssM P Unit) := by
  intro state
  cases name
  case satp =>
      have written : StateEvolves (writeCsr .satp value : IssM P Unit) :=
        Steps.bind evolves_getHart fun _ =>
          Steps.ite evolves_raiseIllegalInstruction (evolves_modifyHart _)
      exact written state
  case mip => exact evolves_setMip value CsrMask.MIP_WRITE (by decide) state
  case sip => exact evolves_setMip value CsrMask.SIP (by decide) state
  case uip => exact evolves_setMip value CsrMask.UIP (by decide) state
  all_goals exact .refl

theorem evolves_setCsrValue (address value : BitVec 32) :
    StateEvolves (setCsrValue address value : IssM P Unit) := by
  refine Steps.ite (Steps.pure _) ?_
  split
  · exact evolves_writeCsr _ _
  · exact evolves_raiseIllegalInstruction

theorem evolves_csrWrite {source : Hart P.clover.terms → IssM P (BitVec 32)}
    (reads : ∀ hart, StateEvolves (source hart)) : StateEvolves (csrWrite source) := by
  refine Steps.bind evolves_getHart fun hart => ?_
  refine Steps.bind (evolves_isInvalidCsrAccess _ _) fun _ => ?_
  refine Steps.ite evolves_raiseIllegalInstruction (Steps.bind (Steps.when fun _ => ?_) fun _ => ?_)
  · exact Steps.bind (evolves_getCsrValue _) fun _ => evolves_modifyHart _
  · exact Steps.bind (reads _) fun _ => evolves_setCsrValue _ _

theorem evolves_csrModify {α : Type} {writes : Hart P.clover.terms → Bool}
    {prepare : Hart P.clover.terms → IssM P α} {update : α → BitVec 32 → IssM P (BitVec 32)}
    (prepares : ∀ hart, StateEvolves (prepare hart))
    (updates : ∀ operand value, StateEvolves (update operand value)) :
    StateEvolves (csrModify writes prepare update) := by
  refine Steps.bind evolves_getHart fun hart => ?_
  refine Steps.bind (evolves_isInvalidCsrAccess _ _) fun _ => ?_
  refine Steps.ite evolves_raiseIllegalInstruction (Steps.bind (prepares _) fun operand => ?_)
  refine Steps.bind (evolves_getCsrValue _) fun value => ?_
  refine Steps.bind (Steps.when fun _ => evolves_modifyHart _) fun _ => Steps.when fun _ => ?_
  exact Steps.bind (updates _ _) fun _ => evolves_setCsrValue _ _

theorem evolves_execute (op : Opcode.Mapping) : StateEvolves (execute input op) := by
  have unchecked : ∀ addr, StateEvolves (Iss.unchecked addr : IssM P Unit) :=
    fun _ => Steps.pure _
  cases op with
  | undefined => exact evolves_raiseIllegalInstruction
  | jal =>
      exact Steps.bind evolves_getHart fun _ => Steps.bind (evolves_jumpTo _) fun _ =>
        evolves_modifyHart _
  | jalr => exact evolves_jalr
  | beq | bne | blt | bge | bltu | bgeu => exact evolves_branch _
  | sb => exact evolves_store input unchecked 1
  | sh | sw => exact evolves_store input (evolves_trapCheckAddrAlignment _ _) _
  | lb => exact evolves_load input unchecked 1
  | lh | lw => exact evolves_load input (evolves_trapCheckAddrAlignment _ _) _
  | lbu => exact evolves_loadUnsigned input unchecked 1
  | lhu => exact evolves_loadUnsigned input (evolves_trapCheckAddrAlignment _ _) _
  | fence | fenceI => exact Steps.pure _
  | ecall => exact evolves_ecall
  | csrrw => exact evolves_csrWrite fun _ => evolves_getValue _ _
  | csrrwi => exact evolves_csrWrite fun _ => Steps.pure _
  | csrrs =>
      exact evolves_csrModify (fun _ => Steps.pure _) fun _ _ =>
        Steps.bind (evolves_getValue _ _) fun _ => Steps.pure _
  | csrrc => exact evolves_csrModify (fun _ => evolves_getValue _ _) fun _ _ => Steps.pure _
  | csrrsi | csrrci => exact evolves_csrModify (fun _ => Steps.pure _) fun _ _ => Steps.pure _
  | mul | mulh | mulhu | mulhsu => exact evolves_multiply _ _ _
  | div | divu | rem | remu => exact evolves_divide _ _
  | lrW => exact evolves_lrW input
  | scW => exact evolves_scW input
  | amoswapW => exact evolves_executeAmo input fun _ b => b
  | amoaddW | amoxorW | amoandW | amoorW | amominW | amominuW | amomaxW | amomaxuW =>
      exact evolves_executeAmo input _
  | wfi => exact evolves_wfi
  | mret => exact evolves_returnFromTrapHandler _
  | ebreak => exact evolves_modifyHart fun hart => { hart with status := .hitBreakpoint }
  | lui | auipc => exact evolves_compute _
  | slti | sltiu | slt | sltu => exact evolves_comparison _ _
  | addi | xori | ori | andi | add | sub | sll | srl | sra | xor | or | and | slli | srli | srai =>
      exact evolves_arithmetic _ _
  | _ => exact Steps.throw _

/-! ## Steps -/

theorem evolves_execStep : StateEvolves (execStep input) := by
  refine Steps.bind ?_ fun _ => Steps.bind ?_ fun _ => Steps.bind evolves_getHart fun decoded =>
    evolves_execute input decoded.op
  · refine Steps.bind evolves_getHart fun hart => Steps.bind (Steps.require _ _) fun _ => ?_
    refine Steps.tryCatch (Steps.bind evolves_getHart fun hart => ?_) fun fault => ?_
    · exact Steps.bind (evolves_memory fun core => evolves_loadInstr (evolves_bus core input) _)
        fun _ => evolves_modifyHart _
    · split
      · exact Steps.bind (evolves_modifyHart _) fun _ => Steps.throw _
      · exact Steps.throw _
  · refine Steps.bind evolves_getHart fun hart => Steps.ite ?_ (evolves_modifyHart _)
    split
    · exact Steps.throw _
    · exact Steps.bind (evolves_modifyHart _) fun _ => Steps.when fun _ => evolves_requireIsa _

theorem evolves_prepareTrap (trap : SimulationTrap) :
    StateEvolves (prepareTrap trap : IssM P PrivilegeLevel) := by
  have records : ∀ (first : CsrTable → CsrTable) (second : BitVec 32 → CsrTable → CsrTable)
      (mode : PrivilegeLevel), StateEvolves (do
        modifyCsrs first
        let value ← lexicalCast trap.mtval
        modifyCsrs (second value)
        pure mode : IssM P PrivilegeLevel) := fun _ _ _ =>
    Steps.bind (evolves_modifyHart _) fun _ => Steps.bind (Steps.bind (Steps.require _ _) fun _ =>
      Steps.pure _) fun _ => Steps.bind (evolves_modifyHart _) fun _ => Steps.pure _
  refine Steps.bind (evolves_modifyHart _) fun _ => Steps.bind evolves_getHart fun hart => ?_
  exact Steps.ite (records _ _ _) (Steps.ite (records _ _ _)
    (Steps.bind (Steps.require _ _) fun _ => records _ _ _))

theorem evolves_prepareInterrupt (interrupts : PendingInterrupts) :
    StateEvolves (prepareInterrupt interrupts : IssM P Unit) := by
  unfold prepareInterrupt
  split
  · exact Steps.throw _
  · exact Steps.ite (evolves_modifyHart _) (Steps.ite (evolves_modifyHart _)
      (Steps.ite (evolves_modifyHart _) (Steps.throw _)))

theorem evolves_switchToTrapHandler (targetMode : PrivilegeLevel) :
    StateEvolves (switchToTrapHandler targetMode : IssM P Unit) := by
  refine Steps.bind evolves_releaseLrScReservation fun _ => ?_
  refine Steps.bind evolves_getHart fun hart => Steps.bind (evolves_modifyHart _) fun _ => ?_
  exact Steps.ite (evolves_modifyHart _) (Steps.ite (evolves_modifyHart _)
    (Steps.ite (evolves_modifyHart _) (Steps.throw _)))

theorem evolves_stepAndInterrupt : StateEvolves (stepAndInterrupt input) := by
  refine Steps.bind (evolves_execStep input) fun _ => Steps.bind Steps.get fun state => ?_
  refine Steps.ite (Steps.bind (evolves_prepareInterrupt _) fun _ => ?_) (Steps.pure _)
  refine Steps.bind (Steps.emit _) fun _ => ?_
  exact Steps.bind (evolves_switchToTrapHandler _) fun _ => Steps.pure _

theorem evolves_handleFault (fault : Fault) : StateEvolves (handleFault fault : IssM P Taken) := by
  unfold handleFault
  split
  · refine Steps.bind (evolves_prepareTrap _) fun mode => ?_
    exact Steps.bind (evolves_switchToTrapHandler _) fun _ => Steps.pure _
  · exact Steps.throw _

theorem evolves_performanceAndSyncUpdate (executedOp : Opcode.Mapping) :
    StateEvolves (performanceAndSyncUpdate executedOp : IssM P Unit) := by
  refine Steps.bind (evolves_modifyHart _) fun _ => Steps.bind evolves_getHart fun hart => ?_
  refine Steps.bind (Steps.when fun _ => ?_) fun _ => ?_
  · refine Steps.bind (evolves_modifyHart _) fun _ => Steps.bind evolves_getHart fun counted => ?_
    exact Steps.bind (Steps.require _ _) fun _ => Steps.when fun _ => evolves_releaseLrScReservation
  · refine Steps.bind (evolves_modifyHart _) fun _ => Steps.bind evolves_getHart fun synced => ?_
    refine evolves_memory fun _ => Steps.bind (evolves_inside fun _ => rfl) fun _ => ?_
    exact Steps.bind Steps.get fun board => Steps.when fun _ => Board.evolves_synchronise

theorem evolves_finishStep : StateEvolves (finishStep : IssM P Unit) := by
  refine Steps.bind (evolves_modifyHart _) fun _ => Steps.bind Steps.get fun state => ?_
  refine Steps.bind (Steps.when fun _ => evolves_modifyHart _) fun _ => ?_
  exact Steps.bind evolves_getHart fun hart => evolves_performanceAndSyncUpdate _

theorem evolves_runStep : StateEvolves (runStep input) := by
  refine Steps.bind evolves_getHart fun hart => Steps.bind (Steps.require _ _) fun _ => ?_
  refine Steps.ite (Steps.bind (evolves_modifyHart _) fun _ => Steps.pure _) ?_
  refine Steps.bind (evolves_modifyHart _) fun _ => ?_
  refine Steps.bind ?_ fun _ => Steps.bind evolves_finishStep fun _ => Steps.pure _
  exact Steps.tryCatch (evolves_stepAndInterrupt input) evolves_handleFault

/-! ## Runs -/

/-- A run from reset takes the world through its own steps, and the pending interrupts with it. -/
theorem evolves_of_reaches {start state : State P} (reached : Reaches (runStep input) start state) :
    Evolves State.surface start state := by
  induction reached with
  | start => exact .refl
  | step _ _ inductionHypothesis => exact inductionHypothesis.trans (evolves_runStep input _)

end SymexVP.Iss
