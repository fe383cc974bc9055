import SymexVP.AccessFaults
import SymexVP.CsrPermissions
import SymexVP.StateSteps

/-!
# Precise exceptions

An instruction that raises an exception has to leave the registers as they were, so
that it can be executed again once the handler has removed the cause. The simulator
changes its state as it goes and throws from deep inside the memory and register
functions, so each instruction must write its result after the last call that can
throw.

All of them do, except one: a store-conditional sets its result to failure before it
stores, on purpose, and a store that traps leaves that result behind.
-/

namespace SymexVP.Iss

open Exec Opcode

variable {P : Platform} (input : P.clover.terms.Assignment)

/-! ## What a trapping instruction may do -/

/-- The devices may have moved the interrupt lines, and nothing else has written the pending
interrupts. -/
def Signalled (before after : Board P) : Prop :=
  ∃ signals : List Signal, after.mip = signals.foldl Signal.apply before.mip

theorem Signalled.refl (board : Board P) : Signalled board board := ⟨[], rfl⟩

theorem Signalled.trans {first middle last : Board P} (earlier : Signalled first middle)
    (later : Signalled middle last) : Signalled first last := by
  obtain ⟨signals, same⟩ := earlier
  obtain ⟨more, same'⟩ := later
  refine ⟨signals ++ more, ?_⟩
  rw [same', same, List.foldl_append]

instance : Std.Refl (@Signalled P) := ⟨Signalled.refl⟩

instance : IsTrans (Board P) Signalled := ⟨fun _ _ _ => Signalled.trans⟩

theorem signalled_of_step {hart : BitVec 32} {before after : Board P}
    {log : List (Event P.clover.terms)} (step : BoardStep hart before log after) :
    Signalled before after := by
  cases step with
  | signalled _ signals => exact ⟨signals, rfl⟩
  | _ => exact ⟨[], rfl⟩

theorem signalled_of_takes {hart : BitVec 32} {α : Type} {body : MemM P α}
    (taken : BoardTakes hart body) (board : Board P) : Signalled board (body.run board).state :=
  taken.steps signalled_of_step board

/-- The fields of the hart that a trap must not disturb before it is taken. -/
structure Frame (terms : Terms) where
  regs : BitVec 5 → RegValue terms
  csrs : CsrTable
  prv : PrivilegeLevel
  lastPc : BitVec 32

def frame (hart : Hart P.clover.terms) : Frame P.clover.terms :=
  ⟨hart.regs, hart.csrs, hart.prv, hart.lastPc⟩

/-- Nothing the program could notice has happened. -/
structure Silent (before after : State P) : Prop where
  frame : frame after.hart = frame before.hart
  mip : Signalled before.board after.board

instance : Std.Refl (Silent (P := P)) := ⟨fun state => ⟨rfl, .refl state.board⟩⟩

instance : IsTrans (State P) Silent :=
  ⟨fun _ _ _ earlier later => ⟨later.frame.trans earlier.frame, earlier.mip.trans later.mip⟩⟩

/-- An instruction that traps has done nothing the program could notice. -/
abbrev PreciseIss {α : Type} (body : IssM P α) : Prop := Precise Silent IsTrap body

/-! ## Building blocks -/

theorem silent_getHart : Steps Silent (getHart : IssM P (Hart P.clover.terms)) :=
  Steps.bind Steps.get fun _ => Steps.pure _

theorem silent_modifyHart {change : Hart P.clover.terms → Hart P.clover.terms}
    (same : ∀ hart, frame (change hart) = frame hart) :
    Steps Silent (modifyHart change : IssM P Unit) :=
  Steps.modify fun state => ⟨same state.hart, .refl state.board⟩

theorem silent_memory {α : Type} {body : Core → MemM P α}
    (taken : ∀ core, BoardTakes core.hartId (body core)) : Steps Silent (memory body) := by
  refine Steps.bind silent_getHart fun hart state => ?_
  exact ⟨rfl, signalled_of_takes (taken hart.core) state.board⟩

theorem silent_raiseIllegalInstruction {α : Type} :
    Steps Silent (raiseIllegalInstruction : IssM P α) :=
  Steps.bind silent_getHart fun _ => Steps.throw _

theorem silent_requireIsa (extension : BitVec 32) :
    Steps Silent (requireIsa extension : IssM P Unit) :=
  Steps.bind silent_getHart fun _ => Steps.when fun _ => silent_raiseIllegalInstruction

theorem silent_getValue {width : Nat} (use : Use) (value : ConcolicValue P.clover.terms width) :
    Steps Silent (getValue use value : IssM P (BitVec width)) :=
  Steps.bind (Steps.emit _) fun _ => Steps.pure _

theorem silent_jumpTo (target : BitVec 32) : Steps Silent (jumpTo target : IssM P Unit) := by
  refine Steps.bind (silent_modifyHart fun _ => rfl) fun _ => ?_
  refine Steps.bind silent_getHart fun hart => Steps.bind (Steps.require _ _) fun _ => ?_
  exact Steps.when fun _ => Steps.throw _

theorem silent_trackAndTraceBranch (cond : Bool) (expr : ConcolicValue P.clover.terms 1) :
    Steps Silent (trackAndTraceBranch cond expr : IssM P Unit) := by
  refine Steps.bind silent_getHart fun hart => ?_
  split
  · exact Steps.emit _
  · exact Steps.pure _

theorem silent_trapCheckAddrAlignment (alignment : Nat) (isLoad : Bool)
    (addr : ConcolicValue P.clover.terms 32) :
    Steps Silent (trapCheckAddrAlignment alignment isLoad addr : IssM P Unit) :=
  Steps.bind (silent_getValue _ _) fun _ => Steps.when fun _ => Steps.throw _

theorem silent_releaseLrScReservation : Steps Silent (releaseLrScReservation : IssM P Unit) :=
  Steps.bind (silent_modifyHart fun _ => rfl) fun _ =>
    silent_memory fun _ => (Board.takes_unlock _).board

theorem calm_trackAndTraceBranch (cond : Bool) (expr : ConcolicValue P.clover.terms 1) :
    Calm (trackAndTraceBranch cond expr : IssM P Unit) := by
  refine Meets.bind calm_getHart fun hart _ => ?_
  split
  · exact Meets.emit _
  · exact Meets.pure trivial

theorem precise_modifyHart (change : Hart P.clover.terms → Hart P.clover.terms) :
    PreciseIss (modifyHart change : IssM P Unit) := Precise.of_meets (calm_modifyHart change)

/-! ## Instructions -/

theorem precise_compute (value : Hart P.clover.terms → Concolic P.clover.terms) :
    PreciseIss (compute value : IssM P Unit) := precise_modifyHart _

theorem precise_arithmetic (operation : BinaryOp)
    (operand : Hart P.clover.terms → ConcolicValue P.clover.terms 32) :
    PreciseIss (arithmetic operation operand : IssM P Unit) := precise_compute _

theorem precise_comparison (operation : CompareOp)
    (operand : Hart P.clover.terms → ConcolicValue P.clover.terms 32) :
    PreciseIss (comparison operation operand : IssM P Unit) := precise_compute _

theorem precise_ebreak : PreciseIss (ebreak : IssM P Unit) := precise_modifyHart _

theorem precise_mret : PreciseIss (returnFromTrapHandler machineMode : IssM P Unit) := by
  rintro state _ ⟨raised, rfl⟩ thrown
  rw [returnFromTrapHandler_run rfl] at thrown
  cases thrown

theorem precise_jal : PreciseIss (jal : IssM P Unit) :=
  Precise.bind silent_getHart fun _ => Precise.bind (silent_jumpTo _) fun _ =>
    precise_modifyHart _

theorem precise_jalr : PreciseIss (jalr : IssM P Unit) :=
  Precise.bind silent_getHart fun _ => Precise.bind (silent_getValue _ _) fun _ =>
    Precise.bind (silent_jumpTo _) fun _ => precise_modifyHart _

theorem precise_branch (operation : CompareOp) : PreciseIss (branch operation : IssM P Unit) := by
  refine Precise.of_steps (Steps.bind silent_getHart fun hart => ?_)
  exact Steps.bind (Steps.when fun _ => silent_jumpTo _) fun _ => silent_trackAndTraceBranch _ _

section Accesses

variable {check : ConcolicValue P.clover.terms 32 → IssM P Unit}
  (checked : ∀ addr, Steps Silent (check addr)) (numBytes : Nat)

include checked

theorem precise_store : PreciseIss (store input check numBytes) := by
  refine Precise.of_steps (Steps.bind silent_getHart fun hart => Steps.bind (checked _) fun _ => ?_)
  exact silent_memory fun core => (takes_storeBytes (takes_bus core input) _ _ _).board

theorem precise_load : PreciseIss (load input check numBytes) := by
  refine Precise.bind silent_getHart fun hart => Precise.bind (checked _) fun _ => ?_
  refine Precise.bind (silent_memory fun core => ?_) fun value => precise_modifyHart _
  exact (takes_loadSigned (takes_bus core input) _ _).board

theorem precise_loadUnsigned : PreciseIss (loadUnsigned input check numBytes) := by
  refine Precise.bind silent_getHart fun hart => Precise.bind (checked _) fun _ => ?_
  refine Precise.bind (silent_memory fun core => ?_) fun value => precise_modifyHart _
  exact (SymexVP.takes_loadUnsigned (takes_bus core input) _ _).board

end Accesses

theorem precise_ecall : PreciseIss (ecall : IssM P Unit) := by
  refine Precise.of_steps (Steps.bind silent_getHart fun hart => Steps.ite (Steps.throw _) ?_)
  exact Steps.ite (Steps.throw _) (Steps.ite (Steps.throw _) (Steps.throw _))

theorem precise_wfi : PreciseIss (wfi : IssM P Unit) := by
  refine Precise.of_steps (Steps.bind silent_releaseLrScReservation fun _ => ?_)
  refine Steps.bind Steps.get fun state => Steps.ite silent_raiseIllegalInstruction ?_
  refine Steps.ite silent_raiseIllegalInstruction (Steps.ite ?_ (Steps.pure _))
  exact silent_memory fun _ => (Board.takes_waitFor _).board

theorem precise_multiply
    (extend₁ extend₂ : ConcolicValue P.clover.terms 32 → ConcolicValue P.clover.terms 64)
    (offset : Nat) : PreciseIss (multiply extend₁ extend₂ offset : IssM P Unit) :=
  Precise.bind (silent_requireIsa _) fun _ => precise_modifyHart _

theorem precise_divide (onZero : Hart P.clover.terms → Hart P.clover.terms)
    (result : Hart P.clover.terms → ConcolicValue P.clover.terms 32) :
    PreciseIss (divide onZero result) := by
  refine Precise.bind (silent_requireIsa _) fun _ => Precise.bind silent_getHart fun hart => ?_
  refine Precise.of_meets (Meets.bind (Meets.ite (fun _ => calm_modifyHart _) fun _ => ?_)
    fun _ _ => calm_trackAndTraceBranch _ _)
  exact calm_modifyHart _

theorem precise_lrW : PreciseIss (lrW input) := by
  refine Precise.bind (silent_requireIsa _) fun _ => Precise.bind silent_getHart fun hart => ?_
  refine Precise.bind (silent_trapCheckAddrAlignment _ _ _) fun _ => ?_
  refine Precise.bind (silent_memory fun core => ?_) fun value => ?_
  · exact takes_atomicLoadReservedWord (takes_bus core input) _ _
  · exact Precise.of_meets (Meets.bind (calm_modifyHart _) fun _ _ => calm_modifyHart _)

theorem precise_executeAmo (operation : ConcolicValue P.clover.terms 32 →
    ConcolicValue P.clover.terms 32 → ConcolicValue P.clover.terms 32) :
    PreciseIss (executeAmo input operation) := by
  refine Precise.bind (silent_requireIsa _) fun _ => Precise.bind silent_getHart fun hart => ?_
  refine Precise.bind (silent_trapCheckAddrAlignment _ _ _) fun _ => ?_
  refine Precise.bind (Steps.tryCatch (silent_memory fun core => ?_) fun fault => ?_) fun data => ?_
  · exact (takes_atomicLoadWord (takes_bus core input) _).board
  · split <;> exact Steps.throw _
  · refine Precise.bind (silent_memory fun core => ?_) fun _ => precise_modifyHart _
    exact (takes_atomicStoreWord (takes_bus core input) _ _).board

/-! ## CSR instructions

The read may refresh a counter and its result is shown in `rd` before the write, but a
register that can be read can also be written. -/

theorem silent_isInvalidCsrAccess (address : BitVec 32) (isWrite : Bool) :
    Steps Silent (isInvalidCsrAccess address isWrite : IssM P Bool) := by
  refine Steps.bind (Steps.when fun _ => silent_requireIsa _) fun _ => ?_
  exact Steps.bind silent_getHart fun _ => Steps.pure _

theorem readCsr_of_trap {name : CsrName} {state : State P} {raised : SimulationTrap}
    (thrown : ((readCsr name).run state).result = .error (.trap raised)) :
    (readCsr name).run state = illegal state := by
  by_cases computed : name.refreshed = true
  · rw [readCsr_refreshed computed] at thrown
    exact absurd thrown (refreshedValue_ne_trap _ _ _)
  · rw [readCsr_run (Bool.eq_false_of_not_eq_true computed)] at thrown ⊢
    split at thrown
    · next blocked => exact if_pos blocked
    · cases thrown

theorem getCsrValue_of_trap {address : BitVec 32} {state : State P} {raised : SimulationTrap}
    (thrown : ((getCsrValue address).run state).result = .error (.trap raised)) :
    (getCsrValue address).run state = illegal state := by
  rw [getCsrValue, bind_run, validateCsrCounterReadAccessRights_run] at thrown ⊢
  split at thrown
  · next forbidden =>
      rw [if_pos forbidden]
      rfl
  · next allowed =>
      rw [if_neg allowed]
      simp only [Outcome.andThen_ok] at thrown ⊢
      split at thrown
      · cases thrown
      · next other =>
          rw [if_neg other]
          cases found : CsrName.find address with
          | none => rfl
          | some name =>
              simp only [found] at thrown ⊢
              rw [readCsr_of_trap thrown]
              rfl

theorem setCsrValue_of_trap {address value : BitVec 32} {state : State P}
    {raised : SimulationTrap}
    (thrown : ((setCsrValue address value).run state).result = .error (.trap raised)) :
    (setCsrValue address value).run state = illegal state := by
  rw [setCsrValue] at thrown ⊢
  split at thrown
  · cases thrown
  · next other =>
      rw [if_neg other]
      cases found : CsrName.find address with
      | none => rfl
      | some name =>
          simp only [found, writeCsr_run] at thrown ⊢
          split at thrown
          · next blocked => exact if_pos blocked
          · cases thrown

theorem precise_getCsrValue (address : BitVec 32) :
    PreciseIss (getCsrValue address : IssM P (BitVec 32)) := by
  rintro state _ ⟨raised, rfl⟩ thrown
  rw [getCsrValue_of_trap thrown]
  exact Std.Refl.refl state

theorem precise_setCsrValue (address value : BitVec 32) :
    PreciseIss (setCsrValue address value : IssM P Unit) := by
  rintro state _ ⟨raised, rfl⟩ thrown
  rw [setCsrValue_of_trap thrown]
  exact Std.Refl.refl state

/-- After a read that was let through, no write to the register traps. -/
theorem not_trap_stored {address csrVal : BitVec 32} {state other : State P}
    (read : ((getCsrValue address).run state).result = .ok csrVal)
    (same : control other = control state) {source : IssM P (BitVec 32)} (plain : Plain source)
    {fault : Fault} (trap : IsTrap fault) :
    ((source >>= setCsrValue address).run other).result ≠ .error fault := by
  obtain ⟨raised, rfl⟩ := trap
  intro thrown
  have readable : ¬(¬Implemented address ∨ TvmForbids state.hart.csrs address) := by
    intro refused
    obtain ⟨mtval, impossible⟩ := (refuses_getCsrValue address state).mpr (.inr refused)
    rw [read] at impossible
    cases impossible
  apply readable
  rw [← refuses_stored plain address same, Refuses]
  obtain ⟨value, returned, unchanged⟩ := plain other
  obtain early | ⟨middle, found, late⟩ := bind_eq_error.mp thrown
  · rw [returned] at early
    cases early
  · rw [setCsrValue_of_trap late] at late
    cases late
    exact ⟨_, thrown⟩

theorem precise_csrWrite {source : Hart P.clover.terms → IssM P (BitVec 32)}
    (plain : ∀ hart, Plain (source hart)) (silent : ∀ hart, Steps Silent (source hart)) :
    PreciseIss (csrWrite source) := by
  refine Precise.bind silent_getHart fun hart => ?_
  refine Precise.bind (silent_isInvalidCsrAccess _ _) fun invalid => ?_
  refine Precise.ite (Precise.of_steps silent_raiseIllegalInstruction) ?_
  by_cases shown : hart.rd ≠ 0
  · rw [Exec.when, if_pos shown]
    refine Precise.bind_last (Precise.bind_last (precise_getCsrValue _) ?_) ?_
    · rintro state value - fault ⟨raised, rfl⟩ ⟨⟩
    · intro state _ returned fault trap
      obtain ⟨csrVal, read, -, reached⟩ := bind_eq_ok returned
      rw [reached]
      refine not_trap_stored read ?_ (plain hart) trap
      exact (quiet_write (fun _ => hart.rd) (fun _ => ⟨32, .BVC csrVal⟩) _).trans
        (quiet_getCsrValue _ _)
  · rw [Exec.when, if_neg shown]
    refine Precise.bind (Steps.pure _) fun _ => Precise.bind (silent hart) fun value => ?_
    exact precise_setCsrValue _ _

theorem precise_csrModify {α : Type} {writes : Hart P.clover.terms → Bool}
    {prepare : Hart P.clover.terms → IssM P α} {update : α → BitVec 32 → IssM P (BitVec 32)}
    (silent : ∀ hart, Steps Silent (prepare hart))
    (plain : ∀ operand csrVal, Plain (update operand csrVal)) :
    PreciseIss (csrModify writes prepare update) := by
  refine Precise.bind silent_getHart fun hart => ?_
  refine Precise.bind (silent_isInvalidCsrAccess _ _) fun invalid => ?_
  refine Precise.ite (Precise.of_steps silent_raiseIllegalInstruction) ?_
  refine Precise.bind (silent hart) fun operand => ?_
  refine Precise.bind_last (precise_getCsrValue _) fun state csrVal read fault trap thrown => ?_
  have shown : Quiet (Exec.when (hart.rd ≠ 0)
      (modifyHart fun after => after.write hart.rd ⟨32, .BVC csrVal⟩) : IssM P Unit) :=
    Steps.when fun _ => quiet_write _ _
  have calm : Calm (Exec.when (hart.rd ≠ 0)
      (modifyHart fun after => after.write hart.rd ⟨32, .BVC csrVal⟩) : IssM P Unit) :=
    Meets.when fun _ => calm_modifyHart _
  obtain early | ⟨_, -, late⟩ := bind_eq_error.mp thrown
  · exact (calm _ trivial).2.2 fault early trap
  · rw [Exec.when] at late
    split at late
    · exact not_trap_stored read ((shown _).trans (quiet_getCsrValue _ _)) (plain operand csrVal)
        trap late
    · cases late

/-- Every instruction but store-conditional. -/
theorem precise_execute {op : Mapping} (other : op ≠ .scW) : PreciseIss (execute input op) := by
  have unchecked : ∀ addr, Steps Silent (Iss.unchecked addr : IssM P Unit) := fun _ => Steps.pure _
  cases op with
  | undefined => exact Precise.of_steps silent_raiseIllegalInstruction
  | jal => exact precise_jal
  | jalr => exact precise_jalr
  | beq | bne | blt | bge | bltu | bgeu => exact precise_branch _
  | sb => exact precise_store input unchecked 1
  | sh | sw => exact precise_store input (silent_trapCheckAddrAlignment _ _) _
  | lb => exact precise_load input unchecked 1
  | lh | lw => exact precise_load input (silent_trapCheckAddrAlignment _ _) _
  | lbu => exact precise_loadUnsigned input unchecked 1
  | lhu => exact precise_loadUnsigned input (silent_trapCheckAddrAlignment _ _) _
  | fence | fenceI => exact Precise.of_steps (Steps.pure _)
  | ecall => exact precise_ecall
  | csrrw => exact precise_csrWrite (fun _ => plain_getValue _ _) fun _ => silent_getValue _ _
  | csrrwi => exact precise_csrWrite (fun _ => plain_pure _) fun _ => Steps.pure _
  | csrrs =>
      refine precise_csrModify (fun _ => Steps.pure _) fun operand csrVal state => ?_
      exact ⟨_, rfl, rfl⟩
  | csrrc => exact precise_csrModify (fun _ => silent_getValue _ _) fun _ _ => plain_pure _
  | csrrsi | csrrci => exact precise_csrModify (fun _ => Steps.pure _) fun _ _ => plain_pure _
  | mul | mulh | mulhu | mulhsu => exact precise_multiply _ _ _
  | div | divu | rem | remu => exact precise_divide _ _
  | lrW => exact precise_lrW input
  | scW => exact absurd rfl other
  | amoswapW => exact precise_executeAmo input fun _ b => b
  | amoaddW | amoxorW | amoandW | amoorW | amominW | amominuW | amomaxW | amomaxuW =>
      exact precise_executeAmo input _
  | wfi => exact precise_wfi
  | mret => exact precise_mret
  | ebreak => exact precise_ebreak
  | lui | auipc => exact precise_compute _
  | slti | sltiu | slt | sltu => exact precise_comparison _ _
  | addi | xori | ori | andi | add | sub | sll | srl | sra | xor | or | and | slli | srli | srai =>
      exact precise_arithmetic _ _
  | _ => exact Precise.of_steps (Steps.throw _)

/-! ## Store-conditional -/

/-- The hart with the result of a failed store-conditional. -/
def failed (hart : Hart P.clover.terms) : Hart P.clover.terms :=
  hart.write hart.rd ⟨32, .BVC 1⟩

/-- The part of a store-conditional behind the alignment check. -/
theorem precise_conditionalStore (hart : Hart P.clover.terms) :
    PreciseIss (do
      let stored ← memory fun core => MemoryInterface.atomicStoreConditionalWord (bus core input)
        core (hart.regs hart.rs1).object hart.rs1Value hart.rs2Value
      modifyHart fun after => after.write hart.rd ⟨32, .BVC (if stored then 0 else 1)⟩
      modifyHart fun after => { after with lrScCounter := 0 } : IssM P Unit) := by
  refine Precise.bind (silent_memory fun core => ?_) fun value => ?_
  · exact (takes_atomicStoreConditionalWord (takes_bus core input) _ _ _).board
  · exact Precise.of_meets (Meets.bind (calm_modifyHart _) fun _ _ => calm_modifyHart _)

/-- A store-conditional that traps has done nothing, or it has passed the alignment check and
has set its result. -/
theorem scW_of_trap {state : State P} {raised : SimulationTrap}
    (thrown : ((scW input).run state).result = .error (.trap raised)) :
    Silent state ((scW input).run state).state ∨
      state.hart.rs1Value.concrete.toNat % 4 = 0 ∧
        Silent { state with hart := failed state.hart } ((scW input).run state).state := by
  have enabled : ¬¬state.hart.csrs.misa.has Misa.A = true := by simp
  by_cases aligned : state.hart.rs1Value.concrete.toNat % 4 = 0
  · right
    refine ⟨aligned, ?_⟩
    simp only [scW, requireIsa, trapCheckAddrAlignment, getValue, Exec.when, getHart, bind_run,
      get_run, emit_run, pure_run, Outcome.andThen_ok, if_neg enabled, if_neg (not_not.mpr aligned),
      modifyHart, modify_run] at thrown ⊢
    exact precise_conditionalStore input state.hart { state with hart := failed state.hart } _
      ⟨raised, rfl⟩ thrown
  · left
    simp only [scW, requireIsa, trapCheckAddrAlignment, getValue, Exec.when, getHart, bind_run,
      get_run, emit_run, pure_run, Outcome.andThen_ok, if_neg enabled, if_pos aligned, raiseTrap,
      throw_run, Outcome.andThen_error]
    exact Std.Refl.refl state

/-! ## Whole steps -/

theorem silent_fetch : Steps Silent (fetch input) := by
  refine Steps.bind silent_getHart fun hart => Steps.bind (Steps.require _ _) fun _ => ?_
  refine Steps.tryCatch (Steps.bind silent_getHart fun hart => ?_) fun fault => ?_
  · refine Steps.bind (silent_memory fun core => ?_) fun word => silent_modifyHart fun _ => rfl
    exact (takes_loadInstr (takes_bus core input) _).board
  · split
    · exact Steps.bind (silent_modifyHart fun _ => rfl) fun _ => Steps.throw _
    · exact Steps.throw _

/-- The step executes a store-conditional to an aligned address, found in the given hart. -/
def ConditionalStore (state : State P) (hart : Hart P.clover.terms) : Prop :=
  ∃ word, FetchReturns input (begun state) word ∧ decodedOpcode word = .scW ∧
    hart = decodedHart (begun state).hart word ∧ hart.rs1Value.concrete.toNat % 4 = 0

/-- What an instruction that traps has done by then. -/
theorem executed_of_trap {state : State P} {raised : SimulationTrap}
    (thrown : (executed input state).result = .error (.trap raised)) :
    Silent (begun state) (executed input state).state ∨
      ∃ hart, ConditionalStore input state hart ∧
        Silent { state with hart := failed hart } (executed input state).state := by
  cases returned : ((fetch input).run (begun state)).result with
  | error fault =>
      left
      have fetched := silent_fetch input (begun state)
      simp only [executed, execStep, bind_run]
      generalize (fetch input).run (begun state) = outcome at returned fetched ⊢
      obtain ⟨result, after, log⟩ := outcome
      subst returned
      exact fetched
  | ok value =>
      let word := ((fetch input).run (begun state)).state.hart.instr
      have fetched : FetchReturns input (begun state) word := ⟨returned, rfl⟩
      have quiet : Silent (begun state) (decodedState input (begun state) word) :=
        ⟨rfl, (silent_fetch input (begun state)).mip⟩
      rw [executed, execStep_run input fetched] at thrown ⊢
      by_cases conditional : decodedOpcode word = .scW
      · rw [conditional] at thrown ⊢
        obtain silent | ⟨aligned, silent⟩ := scW_of_trap input thrown
        · exact .inl (IsTrans.trans _ _ _ quiet silent)
        · refine .inr ⟨decodedHart (begun state).hart word, ⟨word, fetched, conditional, rfl, aligned⟩,
            ?_⟩
          exact ⟨silent.frame, quiet.mip.trans silent.mip⟩
      · left
        refine IsTrans.trans _ _ _ quiet ?_
        exact precise_execute input conditional _ _ ⟨raised, rfl⟩ thrown

/-- What the end of a step does: `x0` is cleared and an instruction is counted. -/
structure Finished (before after : State P) : Prop where
  regs : ∀ index, index ≠ 0 → after.hart.regs index = before.hart.regs index
  csrs : { after.hart.csrs with instret := 0 } = { before.hart.csrs with instret := 0 }
  mip : Signalled before.board after.board

instance : Std.Refl (Finished (P := P)) := ⟨fun state => ⟨fun _ _ => rfl, rfl, .refl state.board⟩⟩

instance : IsTrans (State P) Finished :=
  ⟨fun _ _ _ earlier later =>
    ⟨fun index other => (later.regs index other).trans (earlier.regs index other),
      later.csrs.trans earlier.csrs, earlier.mip.trans later.mip⟩⟩

theorem finished_of_silent {α : Type} {body : IssM P α} (silent : Steps Silent body) :
    Steps Finished body := by
  intro state
  obtain ⟨same, mip⟩ := silent state
  refine ⟨fun index _ => ?_, ?_, mip⟩
  · exact congrArg (fun frame => frame.regs index) same
  · exact congrArg (fun frame => { frame.csrs with instret := 0 }) same

theorem finished_finishStep : Steps Finished (finishStep : IssM P Unit) := by
  have cleared : Steps Finished
      (modifyHart fun hart => hart.write 0 ⟨32, .BVC 0⟩ : IssM P Unit) := by
    refine Steps.modify fun state => ⟨fun index other => ?_, rfl, .refl _⟩
    exact Function.update_of_ne other _ _
  have counted : Steps Finished (modifyCsrs fun csrs =>
      if CounterBits.IR.get csrs.mcountinhibit = 0 then { csrs with instret := csrs.instret + 1 }
      else csrs : IssM P Unit) := by
    refine Steps.modify fun state => ⟨fun index other => rfl, ?_, .refl _⟩
    dsimp only
    split <;> rfl
  refine Steps.bind cleared fun _ => Steps.bind Steps.get fun state => ?_
  refine Steps.bind (Steps.when fun _ => ?_) fun _ => ?_
  · exact finished_of_silent (silent_modifyHart fun _ => rfl)
  refine Steps.bind (finished_of_silent silent_getHart) fun hart => Steps.bind counted fun _ => ?_
  refine finished_of_silent (Steps.bind silent_getHart fun counting => ?_)
  refine Steps.bind (Steps.when fun _ => ?_) fun _ => ?_
  · refine Steps.bind (silent_modifyHart fun _ => rfl) fun _ => ?_
    refine Steps.bind silent_getHart fun counted => Steps.bind (Steps.require _ _) fun _ => ?_
    exact Steps.when fun _ => silent_releaseLrScReservation
  · refine Steps.bind (silent_modifyHart fun hart => ?_) fun _ => ?_
    · split <;> rfl
    refine Steps.bind silent_getHart fun synced => silent_memory fun _ => AccessTakes.board ?_
    refine Takes.bind (Board.takes_inc _) fun _ => Takes.bind Takes.get fun board => ?_
    exact Takes.when Board.takes_synchronise

/-- The table without the registers that entering a handler and finishing a step write. -/
def outsideEntry (mode : PrivilegeLevel) (csrs : CsrTable) : CsrTable :=
  let blank : CsrTable :=
    if mode = machineMode then { csrs with mcause := 0, mtval := 0, mepc := 0 }
    else if mode = supervisorMode then { csrs with scause := 0, stval := 0, sepc := 0 }
    else { csrs with ucause := 0, utval := 0, uepc := 0 }
  { blank with mstatus := 0, instret := 0 }

section Entry

variable {mode : PrivilegeLevel} (valid : isValidPrivilegeLevel mode) (csrs : CsrTable)

include valid

theorem outsideEntry_setCause (code interrupt : BitVec 32) :
    outsideEntry mode (setCause mode csrs code interrupt) = outsideEntry mode csrs := by
  obtain rfl | rfl | rfl := mode_cases valid <;> rfl

theorem outsideEntry_setTval (tval : BitVec 32) :
    outsideEntry mode (setTval mode csrs tval) = outsideEntry mode csrs := by
  obtain rfl | rfl | rfl := mode_cases valid <;> rfl

theorem outsideEntry_setXepc (pc mstatus : BitVec 32) :
    outsideEntry mode { setXepc mode csrs pc with mstatus := mstatus } = outsideEntry mode csrs := by
  obtain rfl | rfl | rfl := mode_cases valid <;> rfl

end Entry

/-- Entering the handler of a trap writes nothing else. -/
theorem outsideEntry_entered {hart : Hart P.clover.terms} {raised : SimulationTrap}
    {mode : PrivilegeLevel} (routed : trapMode hart raised.reason = mode) :
    outsideEntry mode (entered mode (trapped hart raised)).csrs = outsideEntry mode hart.csrs := by
  have valid : isValidPrivilegeLevel mode := by
    rw [← routed]
    exact isValid_trapMode hart raised.reason
  rw [trapped, routed]
  refine (outsideEntry_setXepc valid _ _ _).trans ?_
  rw [outsideEntry_setTval valid, outsideEntry_setCause valid]

theorem xepc_entered {hart : Hart P.clover.terms} {raised : SimulationTrap} {mode : PrivilegeLevel}
    (valid : isValidPrivilegeLevel mode) :
    xepc mode (entered mode (trapped hart raised)).csrs = hart.lastPc := by
  obtain rfl | rfl | rfl := mode_cases valid <;> rfl

theorem outsideEntry_finished {mode : PrivilegeLevel} (valid : isValidPrivilegeLevel mode)
    {before after : State P} (finished : Finished before after) :
    outsideEntry mode after.hart.csrs = outsideEntry mode before.hart.csrs := by
  have uncounted : ∀ csrs : CsrTable,
      outsideEntry mode csrs = outsideEntry mode { csrs with instret := 0 } := by
    intro csrs
    obtain rfl | rfl | rfl := mode_cases valid <;> rfl
  rw [uncounted, finished.csrs, ← uncounted]

theorem xepc_finished {mode : PrivilegeLevel} (valid : isValidPrivilegeLevel mode)
    {before after : State P} (finished : Finished before after) :
    xepc mode after.hart.csrs = xepc mode before.hart.csrs := by
  have uncounted : ∀ csrs : CsrTable, xepc mode csrs = xepc mode { csrs with instret := 0 } := by
    intro csrs
    obtain rfl | rfl | rfl := mode_cases valid <;> rfl
  rw [uncounted, finished.csrs, ← uncounted]

/-- An instruction that returns is not reported as a trap. -/
theorem stepAndInterrupt_ne_trap (state : State P) (mode : PrivilegeLevel) :
    ((stepAndInterrupt input).run state).result ≠ .ok (.trap mode) := by
  intro returned
  obtain ⟨_, -, rest, -⟩ := bind_eq_ok returned
  obtain ⟨after, -, rest, -⟩ := bind_eq_ok rest
  rw [ite_run] at rest
  split at rest
  · obtain ⟨_, -, rest, -⟩ := bind_eq_ok rest
    obtain ⟨_, -, rest, -⟩ := bind_eq_ok rest
    obtain ⟨_, -, rest, -⟩ := bind_eq_ok rest
    cases rest
  · cases rest

theorem trapped_mhartid (hart : Hart P.clover.terms) (raised : SimulationTrap) :
    (trapped hart raised).csrs.mhartid = hart.csrs.mhartid := by
  have valid := isValid_trapMode hart raised.reason
  rw [trapped]
  generalize trapMode hart raised.reason = mode at valid ⊢
  obtain rfl | rfl | rfl := mode_cases valid <;> rfl

theorem handleFault_run {raised : SimulationTrap} {state : State P}
    (recordable : Recordable state.hart raised) :
    (handleFault (.trap raised)).run state =
      ⟨.ok (.trap (trapMode state.hart raised.reason)),
        ⟨entered (trapMode state.hart raised.reason) (trapped state.hart raised),
          ((Board.unlock state.hart.csrs.mhartid).run state.board).state⟩, []⟩ := by
  have valid := isValid_trapMode state.hart raised.reason
  rw [handleFault, bind_run, prepareTrap_run recordable.1 recordable.2, Outcome.andThen_ok,
    bind_run, switchToTrapHandler_run valid, trapped_mhartid]
  rfl

theorem handleFault_of_trap {raised : SimulationTrap} {mode : PrivilegeLevel} {state : State P}
    (handled : ((handleFault (.trap raised)).run state).result = .ok (.trap mode)) :
    Recordable state.hart raised ∧ trapMode state.hart raised.reason = mode ∧
      ((handleFault (.trap raised)).run state).state =
        ⟨entered mode (trapped state.hart raised),
          ((Board.unlock state.hart.csrs.mhartid).run state.board).state⟩ := by
  obtain ⟨_, prepared, -⟩ := bind_eq_ok handled
  have recordable := recordable_of_prepareTrap prepared
  rw [handleFault_run recordable] at handled ⊢
  cases handled
  exact ⟨recordable, rfl, rfl⟩

/-- A step that handles a trap runs the instruction, enters the handler and finishes. -/
theorem runStep_of_trap {state : State P} {mode : PrivilegeLevel}
    (taken : ((runStep input).run state).result = .ok (.trap mode)) :
    ∃ raised, (executed input state).result = .error (.trap raised) ∧
      Recordable (executed input state).state.hart raised ∧
      trapMode (executed input state).state.hart raised.reason = mode ∧
      Finished ⟨entered mode (trapped (executed input state).state.hart raised),
          ((Board.unlock (executed input state).state.hart.csrs.mhartid).run
            (executed input state).state.board).state⟩
        ((runStep input).run state).state := by
  obtain ⟨-, impossible, -⟩ | ⟨-, ran⟩ := runStep_of_ok input taken
  · cases impossible
  rw [ran] at taken ⊢
  obtain ⟨middle, guarded, rest, reached⟩ := bind_eq_ok taken
  rw [reached]
  obtain ⟨_, -, ended, reached⟩ := bind_eq_ok rest
  rw [reached]
  cases ended
  have finished := finished_finishStep
    ((Exec.tryCatch (stepAndInterrupt input) handleFault).run (begun state)).state
  obtain ⟨plain, reached⟩ | ⟨fault, faulted, handled, reached⟩ := tryCatch_eq_ok guarded
  · exact absurd plain (stepAndInterrupt_ne_trap input _ _)
  · rw [reached] at finished ⊢
    cases fault with
    | trap raised =>
        obtain ⟨thrown, same⟩ := ran_of_trap input faulted
        rw [same] at handled finished ⊢
        obtain ⟨recordable, routed, entry⟩ := handleFault_of_trap handled
        rw [entry] at finished ⊢
        exact ⟨raised, thrown, recordable, routed, finished⟩
    | _ => cases handled

/-- After the trap: the program counter of the instruction is kept for the handler, the other
control and status registers are as before, up to the interrupt lines, and so are the general
registers, except that a store-conditional whose store traps has failed. -/
structure TrapIsPrecise (mode : PrivilegeLevel) (before after : State P) : Prop where
  xepc : xepc mode after.hart.csrs = before.hart.pc
  csrs : outsideEntry mode after.hart.csrs = outsideEntry mode before.hart.csrs
  mip : Signalled before.board after.board
  regs : (∀ index, index ≠ 0 → after.hart.regs index = before.hart.regs index) ∨
    ∃ hart, ConditionalStore input before hart ∧
      ∀ index, index ≠ 0 →
        (index = hart.rd → (after.hart.regs index).value = .BVC 1) ∧
        (index ≠ hart.rd → after.hart.regs index = before.hart.regs index)

theorem regs_failed (hart : Hart P.clover.terms) (index : BitVec 5) :
    (index = hart.rd → ((failed hart).regs index).value = .BVC 1) ∧
      (index ≠ hart.rd → (failed hart).regs index = hart.regs index) := by
  refine ⟨?_, fun other => Function.update_of_ne other _ _⟩
  rintro rfl
  simp [failed, Hart.write, Hart.assignNew, Hart.assign]

/-- Entering the handler and finishing the step keep what the instruction has left. -/
theorem trapIsPrecise_of_frame {state reached after : State P} {raised : SimulationTrap}
    {mode : PrivilegeLevel} (routed : trapMode reached.hart raised.reason = mode)
    (finished : Finished ⟨entered mode (trapped reached.hart raised),
      ((Board.unlock reached.hart.csrs.mhartid).run reached.board).state⟩ after)
    (lastPc : reached.hart.lastPc = state.hart.pc) (csrs : reached.hart.csrs = state.hart.csrs)
    (mip : Signalled state.board reached.board)
    (regs : (∀ index, index ≠ 0 → reached.hart.regs index = state.hart.regs index) ∨
      ∃ hart, ConditionalStore input state hart ∧
        ∀ index, index ≠ 0 →
          (index = hart.rd → (reached.hart.regs index).value = .BVC 1) ∧
          (index ≠ hart.rd → reached.hart.regs index = state.hart.regs index)) :
    TrapIsPrecise input mode state after := by
  have valid : isValidPrivilegeLevel mode := by
    rw [← routed]
    exact isValid_trapMode _ _
  refine ⟨?_, ?_, ?_, ?_⟩
  · rw [xepc_finished valid finished, xepc_entered valid, lastPc]
  · rw [outsideEntry_finished valid finished, outsideEntry_entered routed, csrs]
  · exact mip.trans ((signalled_of_takes (Board.takes_unlock _).board _).trans finished.mip)
  · have kept : ∀ index, index ≠ 0 → after.hart.regs index = reached.hart.regs index :=
      finished.regs
    obtain same | ⟨hart, conditional, written⟩ := regs
    · exact .inl fun index other => (kept index other).trans (same index other)
    · refine .inr ⟨hart, conditional, fun index other => ?_⟩
      rw [kept index other]
      exact written index other

/-- Every trap is precise. -/
theorem trapIsPrecise {state : State P} {mode : PrivilegeLevel}
    (taken : ((runStep input).run state).result = .ok (.trap mode)) :
    TrapIsPrecise input mode state ((runStep input).run state).state := by
  obtain ⟨raised, thrown, -, routed, finished⟩ := runStep_of_trap input taken
  obtain ⟨same, mip⟩ | ⟨hart, conditional, same, mip⟩ := executed_of_trap input thrown
  · refine trapIsPrecise_of_frame input routed finished ?_ ?_ mip (.inl fun index _ => ?_)
    · exact congrArg Frame.lastPc same
    · exact congrArg Frame.csrs same
    · exact congrArg (fun frame => frame.regs index) same
  · obtain ⟨word, fetched, conditional, rfl, aligned⟩ := conditional
    refine trapIsPrecise_of_frame input routed finished ?_ ?_ mip
      (.inr ⟨_, ⟨word, fetched, conditional, rfl, aligned⟩, fun index _ => ?_⟩)
    · exact congrArg Frame.lastPc same
    · exact congrArg Frame.csrs same
    · rw [show (executed input state).state.hart.regs index = (failed _).regs index from
        congrArg (fun frame => frame.regs index) same]
      exact regs_failed _ index

/-- An environment call. -/
theorem trapIsPrecise_ecall :
    ((runStep zeroInput).run (programStart [0x00000073])).result = .ok (.trap machineMode) ∧
      TrapIsPrecise zeroInput machineMode (programStart [0x00000073])
        ((runStep zeroInput).run (programStart [0x00000073])).state :=
  ⟨by decide +kernel, trapIsPrecise zeroInput (by decide +kernel)⟩

/-- A load-reserved and a store-conditional to the sensor's value register: the sensor answers the
load and refuses the store, and `x6` holds `1` when the handler starts. -/
theorem not_unchanged_scW : ∃ state : State tryoutPlatform, Reachable zeroInput state ∧
    ((runStep zeroInput).run state).result = .ok (.trap machineMode) ∧
    (((runStep zeroInput).run state).state.hart.regs 6).value.concrete ≠
      (state.hart.regs 6).value.concrete := by
  let start := programStart
    [0x02020137, 0x00100193, 0x10312223, 0x10810093, 0x1000a2af, 0x1870a32f]
  have reached : Reaches (runStep zeroInput) start (stateAfter (runStep zeroInput) 5 start) :=
    reaches_stateAfter (by decide +kernel)
  refine ⟨_, ⟨start, reset_programStart _, reached⟩, ?_, ?_⟩
  · decide +kernel
  · decide +kernel

end SymexVP.Iss
