import SymexVP.BoardSteps
import SymexVP.ControlState

/-!
# The single steps of a hart and its board

The hart reaches its board only through the memory interface and through the write of
a pending-interrupt register; everything else it does stays in its own fields or is
observed. It never changes its own number, since the register that holds it is
read-only. One traversal of the instructions shows this for a whole `run_step`, and so
for every run.
-/

namespace SymexVP.Iss

open Exec

variable {P : Platform} (input : P.clover.terms.Assignment)

/-- One step of a hart with its board. -/
inductive StateStep : State P → List (Event P.clover.terms) → State P → Prop
  | board (state : State P) {log : List (Event P.clover.terms)} {after : Board P}
      (step : BoardStep state.hart.csrs.mhartid state.board log after) :
      StateStep state log { state with board := after }
  | hart (state : State P) (hart : Hart P.clover.terms)
      (same : hart.csrs.mhartid = state.hart.csrs.mhartid) :
      StateStep state [] { state with hart := hart }
  | branch (state : State P) (taken : Bool) (expression : P.clover.terms.Expr 1)
      (pc : BitVec 32) : StateStep state [.branch taken expression pc] state
  | concretized (state : State P) (use : Use) (symbolic : Bool) :
      StateStep state [.concretized use symbolic] state
  | interrupt (state : State P) (mode : PrivilegeLevel) : StateStep state [.interrupt mode] state
  /-- A control and status register instruction writes the pending interrupts. -/
  | pending (state : State P) (mip : BitVec 32) :
      StateStep state [] { state with board := { state.board with mip := mip } }

/-- What a function of the hart does is a chain of steps. -/
abbrev StateTakes {α : Type} (body : IssM P α) : Prop := Takes StateStep body

/-- The registers, the counters and the number of a hart. -/
structure Essentials (terms : Terms) where
  regs : BitVec 5 → RegValue terms
  nextObject : Nat
  lrScCounter : Int
  cycleCounter : Nat
  mhartid : BitVec 32

def essentials {terms : Terms} (hart : Hart terms) : Essentials terms :=
  ⟨hart.regs, hart.nextObject, hart.lrScCounter, hart.cycleCounter, hart.csrs.mhartid⟩

/-- What a single step does to the fields of a hart. Not every instruction counts for the
reservation. -/
inductive HartStep (counts : Prop) : Hart P.clover.terms → Hart P.clover.terms → Prop
  | aside {before after : Hart P.clover.terms} (same : essentials after = essentials before) :
      HartStep counts before after
  | write (hart : Hart P.clover.terms) (index : BitVec 5) (data : Concolic P.clover.terms) :
      HartStep counts hart (hart.write index data)
  | copy (hart : Hart P.clover.terms) : HartStep counts hart (copyRs1 hart)
  | counting (hart : Hart P.clover.terms) (count : Int) (counted : counts) :
      HartStep counts hart { hart with lrScCounter := count }
  | cycles (hart : Hart P.clover.terms) (executed : Opcode.Mapping) :
      HartStep counts hart { hart with cycleCounter := hart.cycleCounter + instrCycles executed }

/-- A step of a hart with its board that says what it does to the fields of the hart. Not every
instruction makes a reservation. -/
inductive Move (counts reserves : Prop) : State P → List (Event P.clover.terms) → State P → Prop
  | board (state : State P) {log : List (Event P.clover.terms)} {after : Board P}
      (step : BoardStep state.hart.csrs.mhartid state.board log after)
      (kept : reserves ∨ after.lrAddr = state.board.lrAddr) :
      Move counts reserves state log { state with board := after }
  | hart (state : State P) {hart : Hart P.clover.terms} (step : HartStep counts state.hart hart) :
      Move counts reserves state [] { state with hart := hart }
  | branch (state : State P) (taken : Bool) (expression : P.clover.terms.Expr 1)
      (pc : BitVec 32) : Move counts reserves state [.branch taken expression pc] state
  | concretized (state : State P) (use : Use) (symbolic : Bool) :
      Move counts reserves state [.concretized use symbolic] state
  | interrupt (state : State P) (mode : PrivilegeLevel) :
      Move counts reserves state [.interrupt mode] state
  | pending (state : State P) (mip : BitVec 32) :
      Move counts reserves state [] { state with board := { state.board with mip := mip } }

abbrev Moves (counts reserves : Prop) {α : Type} (body : IssM P α) : Prop :=
  Takes (Move counts reserves) body

theorem HartStep.mhartid {counts : Prop} {before after : Hart P.clover.terms}
    (step : HartStep counts before after) : after.csrs.mhartid = before.csrs.mhartid := by
  cases step with
  | aside same => exact congrArg Essentials.mhartid same
  | write index data => rw [write_csrs]
  | copy | counting | cycles => rfl

theorem Move.stateStep {counts reserves : Prop} {before after : State P}
    {log : List (Event P.clover.terms)} (move : Move counts reserves before log after) :
    StateStep before log after := by
  cases move with
  | board step => exact .board before step
  | hart step => exact .hart before _ step.mhartid
  | branch taken expression pc => exact .branch before taken expression pc
  | concretized use symbolic => exact .concretized before use symbolic
  | interrupt mode => exact .interrupt before mode
  | pending mip => exact .pending before mip

theorem Moves.state {counts reserves : Prop} {α : Type} {body : IssM P α}
    (moves : Moves counts reserves body) : StateTakes body :=
  fun state => (moves state).mono Move.stateStep

variable {counts reserves : Prop}

theorem takes_getHart : Moves counts reserves (getHart : IssM P (Hart P.clover.terms)) :=
  Takes.bind Takes.get fun _ => Takes.pure _

theorem takes_stepHart {change : Hart P.clover.terms → Hart P.clover.terms}
    (steps : ∀ hart, HartStep counts hart (change hart)) :
    Moves counts reserves (modifyHart change : IssM P Unit) :=
  Takes.modify fun state => .hart state (steps state.hart)

theorem takes_modifyHart {change : Hart P.clover.terms → Hart P.clover.terms}
    (same : ∀ hart, essentials (change hart) = essentials hart) :
    Moves counts reserves (modifyHart change : IssM P Unit) :=
  takes_stepHart fun hart => .aside (same hart)

theorem takes_modifyCsrs {change : CsrTable → CsrTable}
    (same : ∀ csrs, (change csrs).mhartid = csrs.mhartid) :
    Moves counts reserves (modifyCsrs change : IssM P Unit) :=
  takes_modifyHart fun hart => by simp only [essentials, same]

theorem takes_write (index : Hart P.clover.terms → BitVec 5)
    (data : Hart P.clover.terms → Concolic P.clover.terms) :
    Moves counts reserves
      (modifyHart fun hart => hart.write (index hart) (data hart) : IssM P Unit) :=
  takes_stepHart fun hart => .write hart _ _

theorem takes_count {count : Hart P.clover.terms → Int} (counted : counts) :
    Moves counts reserves
      (modifyHart fun hart => { hart with lrScCounter := count hart } : IssM P Unit) :=
  takes_stepHart fun hart => .counting hart _ counted

theorem takes_memory {α : Type} {body : Core → MemM P α}
    (taken : ∀ core, AccessTakes core.hartId (body core)) :
    Moves counts reserves (memory body) := by
  intro state
  -- the interface acts on behalf of the hart it belongs to
  refine (taken state.hart.core state.board).map (fun board => { state with board := board }) ?_
  exact fun step => .board { state with board := _ } step.1 (.inr step.2)

/-- A load-reserved also leaves its address behind. -/
theorem takes_reserving {α : Type} {body : Core → MemM P α} (reserving : reserves)
    (taken : ∀ core, BoardTakes core.hartId (body core)) :
    Moves counts reserves (memory body) := by
  intro state
  refine (taken state.hart.core state.board).map (fun board => { state with board := board }) ?_
  exact fun step => .board { state with board := _ } step (.inl reserving)

theorem takes_getValue {width : Nat} (use : Use) (value : ConcolicValue P.clover.terms width) :
    Moves counts reserves (getValue use value : IssM P (BitVec width)) :=
  Takes.bind (Takes.emit fun state => .concretized state _ _) fun _ => Takes.pure _

theorem takes_raiseIllegalInstruction {α : Type} :
    Moves counts reserves (raiseIllegalInstruction : IssM P α) :=
  Takes.bind takes_getHart fun _ => Takes.throw _

theorem takes_requireIsa (extension : BitVec 32) :
    Moves counts reserves (requireIsa extension : IssM P Unit) :=
  Takes.bind takes_getHart fun _ => Takes.when takes_raiseIllegalInstruction

theorem takes_jumpTo (target : BitVec 32) : Moves counts reserves (jumpTo target : IssM P Unit) := by
  refine Takes.bind (takes_modifyHart fun _ => rfl) fun _ => Takes.bind takes_getHart fun hart => ?_
  exact Takes.bind (Takes.require _ _) fun _ => Takes.when (Takes.throw _)

theorem takes_trackAndTraceBranch (cond : Bool) (expr : ConcolicValue P.clover.terms 1) :
    Moves counts reserves (trackAndTraceBranch cond expr : IssM P Unit) := by
  refine Takes.bind takes_getHart fun hart => ?_
  split
  · exact Takes.emit fun state => .branch state _ _ _
  · exact Takes.pure _

theorem takes_trapCheckAddrAlignment (alignment : Nat) (isLoad : Bool)
    (addr : ConcolicValue P.clover.terms 32) :
    Moves counts reserves (trapCheckAddrAlignment alignment isLoad addr : IssM P Unit) :=
  Takes.bind (takes_getValue _ _) fun _ => Takes.when (Takes.throw _)

theorem takes_releaseLrScReservation (counted : counts) :
    Moves counts reserves (releaseLrScReservation : IssM P Unit) :=
  Takes.bind (takes_count counted) fun _ => takes_memory fun _ => Board.takes_unlock _

/-! ## Instructions -/

theorem takes_compute (value : Hart P.clover.terms → Concolic P.clover.terms) :
    Moves counts reserves (compute value : IssM P Unit) := takes_write _ _

theorem takes_arithmetic (operation : BinaryOp)
    (operand : Hart P.clover.terms → ConcolicValue P.clover.terms 32) :
    Moves counts reserves (arithmetic operation operand : IssM P Unit) := takes_compute _

theorem takes_comparison (operation : CompareOp)
    (operand : Hart P.clover.terms → ConcolicValue P.clover.terms 32) :
    Moves counts reserves (comparison operation operand : IssM P Unit) := takes_compute _

theorem takes_ebreak : Moves counts reserves (ebreak : IssM P Unit) := takes_modifyHart fun _ => rfl

theorem takes_jal : Moves counts reserves (jal : IssM P Unit) :=
  Takes.bind takes_getHart fun _ => Takes.bind (takes_jumpTo _) fun _ => takes_write _ _

theorem takes_jalr : Moves counts reserves (jalr : IssM P Unit) := by
  refine Takes.bind takes_getHart fun _ => Takes.bind (takes_getValue _ _) fun _ => ?_
  exact Takes.bind (takes_jumpTo _) fun _ => takes_write _ _

theorem takes_branch (operation : CompareOp) : Moves counts reserves (branch operation : IssM P Unit) :=
  Takes.bind takes_getHart fun _ => Takes.bind (Takes.when (takes_jumpTo _)) fun _ =>
    takes_trackAndTraceBranch _ _

section Accesses

variable {check : ConcolicValue P.clover.terms 32 → IssM P Unit}
  (checks : ∀ addr, Moves counts reserves (check addr)) (numBytes : Nat)

include checks

theorem takes_store : Moves counts reserves (store input check numBytes) := by
  refine Takes.bind takes_getHart fun _ => Takes.bind (checks _) fun _ => ?_
  exact takes_memory fun core => takes_storeBytes (takes_bus core input) _ _ _

theorem takes_load : Moves counts reserves (load input check numBytes) := by
  refine Takes.bind takes_getHart fun _ => Takes.bind (checks _) fun _ => ?_
  refine Takes.bind (takes_memory fun core => takes_loadSigned (takes_bus core input) _ _)
    fun _ => ?_
  exact takes_write _ _

theorem takes_loadUnsigned : Moves counts reserves (loadUnsigned input check numBytes) := by
  refine Takes.bind takes_getHart fun _ => Takes.bind (checks _) fun _ => ?_
  refine Takes.bind (takes_memory fun core =>
    SymexVP.takes_loadUnsigned (takes_bus core input) _ _) fun _ => ?_
  exact takes_write _ _

end Accesses

theorem takes_ecall : Moves counts reserves (ecall : IssM P Unit) :=
  Takes.bind takes_getHart fun _ =>
    Takes.ite (Takes.throw _) (Takes.ite (Takes.throw _) (Takes.ite (Takes.throw _) (Takes.throw _)))

theorem takes_isInvalidCsrAccess (address : BitVec 32) (isWrite : Bool) :
    Moves counts reserves (isInvalidCsrAccess address isWrite : IssM P Bool) :=
  Takes.bind (Takes.when (takes_requireIsa _)) fun _ => Takes.bind takes_getHart fun _ =>
    Takes.pure _

theorem takes_updateTime : Moves counts reserves (updateTime : IssM P (BitVec 64)) := by
  refine Takes.bind (takes_memory fun _ => ?_) fun _ => ?_
  · refine Takes.bind Takes.get fun board => ?_
    exact Takes.bind (Takes.modify fun board => ⟨.world board _, rfl⟩) fun _ => Takes.pure _
  · exact Takes.bind (takes_modifyCsrs fun _ => rfl) fun _ => Takes.pure _

theorem takes_updateCycle : Moves counts reserves (updateCycle : IssM P (BitVec 64)) := by
  refine Takes.bind (Takes.bind takes_getHart fun _ => ?_) fun _ => ?_
  · exact Takes.bind (Takes.require _ _) fun _ => Takes.pure _
  · exact Takes.bind (takes_modifyCsrs fun _ => rfl) fun _ => Takes.pure _

theorem takes_readCsr (name : CsrName) : Moves counts reserves (readCsr name : IssM P (BitVec 32)) := by
  refine Takes.bind Takes.get fun state => ?_
  cases name
  case time | timeh | mtime | mtimeh => exact Takes.bind takes_updateTime fun _ => Takes.pure _
  case mcycle | mcycleh => exact Takes.bind takes_updateCycle fun _ => Takes.pure _
  case satp => exact Takes.ite takes_raiseIllegalInstruction (Takes.pure _)
  all_goals exact Takes.pure _

theorem takes_getCsrValue (address : BitVec 32) :
    Moves counts reserves (getCsrValue address : IssM P (BitVec 32)) := by
  refine Takes.bind (Takes.bind takes_getHart fun hart => ?_) fun _ => ?_
  · refine Takes.ite (Takes.ite takes_raiseIllegalInstruction ?_) (Takes.pure _)
    exact Takes.ite takes_raiseIllegalInstruction (Takes.pure _)
  · refine Takes.ite (Takes.pure _) ?_
    split
    · exact takes_readCsr _
    · exact takes_raiseIllegalInstruction

theorem takes_setMip (value mask : BitVec 32) :
    Moves counts reserves (writeCsr.setMip value mask : IssM P Unit) := by
  intro state
  exact .single (.pending state _)

theorem takes_writeCsr {name : CsrName} (other : name ≠ .mhartid) (value : BitVec 32) :
    Moves counts reserves (writeCsr name value : IssM P Unit) := by
  intro state
  cases name
  case satp =>
      have written : Moves counts reserves (modifyCsrs fun csrs =>
          { csrs with satp := BitFields.merge CsrMask.SATP csrs.satp value } : IssM P Unit) :=
        takes_modifyCsrs fun _ => rfl
      have guarded : Moves counts reserves (if state.hart.csrs.mstatus.getLsbD Mstatus.tvm.lo then
          raiseIllegalInstruction else modifyCsrs fun csrs =>
          { csrs with satp := BitFields.merge CsrMask.SATP csrs.satp value } : IssM P Unit) :=
        Takes.ite takes_raiseIllegalInstruction written
      exact guarded state
  case mip | sip | uip => exact takes_setMip _ _ state
  case mhartid => exact absurd rfl other
  all_goals exact .single (.hart state (.aside rfl))

/-- The number of the hart is in a read-only register. -/
theorem takes_setCsrValue {address : BitVec 32} (writable : csrReadonly address = false)
    (value : BitVec 32) : Moves counts reserves (setCsrValue address value : IssM P Unit) := by
  refine Takes.ite (Takes.pure _) ?_
  split
  · next name found =>
      refine takes_writeCsr (fun same => ?_) _
      rw [← CsrName.addr_of_find found, same] at writable
      cases writable
  · exact takes_raiseIllegalInstruction

/-- What a valid access writes to can be written. -/
theorem writable_of_valid {address : BitVec 32} {isWrite : Bool} (state : State P)
    {invalid : Bool}
    (returned : ((isInvalidCsrAccess address isWrite).run state).result = .ok invalid)
    (valid : invalid = false) (writes : isWrite = true) : csrReadonly address = false := by
  obtain ⟨-, -, rest, -⟩ := bind_eq_ok returned
  cases rest
  subst writes
  simp only [Bool.or_eq_false_iff, Bool.true_and] at valid
  exact valid.1.1.1

theorem takes_csrWrite {source : Hart P.clover.terms → IssM P (BitVec 32)}
    (reads : ∀ hart, Moves counts reserves (source hart)) : Moves counts reserves (csrWrite source) := by
  refine Takes.bind takes_getHart fun hart => ?_
  refine Takes.bind_returns (takes_isInvalidCsrAccess _ _)
    (fun state _ returned => writable_of_valid state returned) fun invalid known => ?_
  cases invalid with
  | true => exact takes_raiseIllegalInstruction
  | false =>
      refine Takes.bind (Takes.when (Takes.bind (takes_getCsrValue _) fun _ => takes_write _ _))
        fun _ => ?_
      exact Takes.bind (reads _) fun _ => takes_setCsrValue (known rfl rfl) _

theorem takes_csrModify {α : Type} {writes : Hart P.clover.terms → Bool}
    {prepare : Hart P.clover.terms → IssM P α} {update : α → BitVec 32 → IssM P (BitVec 32)}
    (prepares : ∀ hart, Moves counts reserves (prepare hart))
    (updates : ∀ operand value, Moves counts reserves (update operand value)) :
    Moves counts reserves (csrModify writes prepare update) := by
  refine Takes.bind takes_getHart fun hart => ?_
  refine Takes.bind_returns (takes_isInvalidCsrAccess _ _)
    (fun state _ returned => writable_of_valid state returned) fun invalid known => ?_
  cases invalid with
  | true => exact takes_raiseIllegalInstruction
  | false =>
      refine Takes.bind (prepares _) fun operand => Takes.bind (takes_getCsrValue _) fun value => ?_
      refine Takes.bind (Takes.when (takes_write _ _)) fun _ => ?_
      by_cases chosen : writes hart = true
      · refine Takes.when (Takes.bind (updates _ _) fun _ => ?_)
        exact takes_setCsrValue (known rfl chosen) _
      · rw [Exec.when, if_neg chosen]
        exact Takes.pure _

theorem takes_wfi (counted : counts) : Moves counts reserves (wfi : IssM P Unit) := by
  refine Takes.bind (takes_releaseLrScReservation counted) fun _ => Takes.bind Takes.get fun state => ?_
  refine Takes.ite takes_raiseIllegalInstruction (Takes.ite takes_raiseIllegalInstruction ?_)
  exact Takes.ite (takes_memory fun _ => Board.takes_waitFor _) (Takes.pure _)

theorem takes_returnFromTrapHandler (returnMode : PrivilegeLevel) :
    Moves counts reserves (returnFromTrapHandler returnMode : IssM P Unit) :=
  Takes.ite (takes_modifyHart fun _ => rfl) (Takes.ite (takes_modifyHart fun _ => rfl)
    (Takes.ite (takes_modifyHart fun _ => rfl) (Takes.throw _)))

theorem takes_multiply
    (extend₁ extend₂ : ConcolicValue P.clover.terms 32 → ConcolicValue P.clover.terms 64)
    (offset : Nat) : Moves counts reserves (multiply extend₁ extend₂ offset : IssM P Unit) :=
  Takes.bind (takes_requireIsa _) fun _ => takes_write _ _

theorem takes_divide {onZero : Hart P.clover.terms → Hart P.clover.terms}
    (steps : ∀ hart, HartStep counts hart (onZero hart))
    (result : Hart P.clover.terms → ConcolicValue P.clover.terms 32) :
    Moves counts reserves (divide onZero result : IssM P Unit) := by
  refine Takes.bind (takes_requireIsa _) fun _ => Takes.bind takes_getHart fun hart => ?_
  refine Takes.bind (Takes.ite (takes_stepHart steps) (takes_write _ _)) fun _ => ?_
  exact takes_trackAndTraceBranch _ _

theorem takes_lrW (counted : counts) (reserving : reserves) :
    Moves counts reserves (lrW input) := by
  refine Takes.bind (takes_requireIsa _) fun _ => Takes.bind takes_getHart fun hart => ?_
  refine Takes.bind (takes_trapCheckAddrAlignment _ _ _) fun _ => ?_
  refine Takes.bind (takes_reserving reserving fun core =>
    takes_atomicLoadReservedWord (takes_bus core input) _ _) fun _ => ?_
  exact Takes.bind (takes_write _ _) fun _ => takes_count counted

theorem takes_scW (counted : counts) : Moves counts reserves (scW input) := by
  refine Takes.bind (takes_requireIsa _) fun _ => Takes.bind takes_getHart fun hart => ?_
  refine Takes.bind (takes_trapCheckAddrAlignment _ _ _) fun _ => ?_
  refine Takes.bind (takes_write _ _) fun _ => ?_
  refine Takes.bind (takes_memory fun core =>
    takes_atomicStoreConditionalWord (takes_bus core input) _ _ _) fun _ => ?_
  exact Takes.bind (takes_write _ _) fun _ => takes_count counted

theorem takes_executeAmo (operation : ConcolicValue P.clover.terms 32 →
    ConcolicValue P.clover.terms 32 → ConcolicValue P.clover.terms 32) :
    Moves counts reserves (executeAmo input operation) := by
  refine Takes.bind (takes_requireIsa _) fun _ => Takes.bind takes_getHart fun hart => ?_
  refine Takes.bind (takes_trapCheckAddrAlignment _ _ _) fun _ => ?_
  refine Takes.bind (Takes.tryCatch (takes_memory fun core =>
    takes_atomicLoadWord (takes_bus core input) _) fun fault => ?_) fun data => ?_
  · split <;> exact Takes.throw _
  · refine Takes.bind (takes_memory fun core =>
      takes_atomicStoreWord (takes_bus core input) _ _) fun _ => ?_
    exact takes_write _ _

/-- The instructions that count for the reservation. -/
def CountsReservation (op : Opcode.Mapping) : Prop := op = .lrW ∨ op = .scW ∨ op = .wfi

theorem takes_execute {op : Opcode.Mapping} (counted : CountsReservation op → counts)
    (reserving : op = .lrW → reserves) : Moves counts reserves (execute input op) := by
  have unchecked : ∀ addr, Moves counts reserves (Iss.unchecked addr : IssM P Unit) :=
    fun _ => Takes.pure _
  have ones : ∀ hart : Hart P.clover.terms, HartStep counts hart (allOnes hart) :=
    fun hart => .write hart _ _
  cases op with
  | undefined => exact takes_raiseIllegalInstruction
  | jal => exact takes_jal
  | jalr => exact takes_jalr
  | beq | bne | blt | bge | bltu | bgeu => exact takes_branch _
  | sb => exact takes_store input unchecked 1
  | sh | sw => exact takes_store input (takes_trapCheckAddrAlignment _ _) _
  | lb => exact takes_load input unchecked 1
  | lh | lw => exact takes_load input (takes_trapCheckAddrAlignment _ _) _
  | lbu => exact takes_loadUnsigned input unchecked 1
  | lhu => exact takes_loadUnsigned input (takes_trapCheckAddrAlignment _ _) _
  | fence | fenceI => exact Takes.pure _
  | ecall => exact takes_ecall
  | csrrw => exact takes_csrWrite fun _ => takes_getValue _ _
  | csrrwi => exact takes_csrWrite fun _ => Takes.pure _
  | csrrs =>
      exact takes_csrModify (fun _ => Takes.pure _) fun _ _ =>
        Takes.bind (takes_getValue _ _) fun _ => Takes.pure _
  | csrrc => exact takes_csrModify (fun _ => takes_getValue _ _) fun _ _ => Takes.pure _
  | csrrsi | csrrci => exact takes_csrModify (fun _ => Takes.pure _) fun _ _ => Takes.pure _
  | mul | mulh | mulhu | mulhsu => exact takes_multiply _ _ _
  | div | divu => exact takes_divide ones _
  | rem | remu => exact takes_divide .copy _
  | lrW => exact takes_lrW input (counted (.inl rfl)) (reserving rfl)
  | scW => exact takes_scW input (counted (.inr (.inl rfl)))
  | amoswapW => exact takes_executeAmo input fun _ b => b
  | amoaddW | amoxorW | amoandW | amoorW | amominW | amominuW | amomaxW | amomaxuW =>
      exact takes_executeAmo input _
  | wfi => exact takes_wfi (counted (.inr (.inr rfl)))
  | mret => exact takes_returnFromTrapHandler _
  | ebreak => exact takes_ebreak
  | lui | auipc => exact takes_compute _
  | slti | sltiu | slt | sltu => exact takes_comparison _ _
  | addi | xori | ori | andi | add | sub | sll | srl | sra | xor | or | and | slli | srli | srai =>
      exact takes_arithmetic _ _
  | _ => exact Takes.throw _

/-! ## Steps and runs -/

theorem takes_fetch : Moves counts reserves (fetch input) := by
  refine Takes.bind takes_getHart fun hart => Takes.bind (Takes.require _ _) fun _ => ?_
  refine Takes.tryCatch (Takes.bind takes_getHart fun hart => ?_) fun fault => ?_
  · exact Takes.bind (takes_memory fun core => takes_loadInstr (takes_bus core input) _)
      fun _ => takes_modifyHart fun _ => rfl
  · split
    · exact Takes.bind (takes_modifyHart fun _ => rfl) fun _ => Takes.throw _
    · exact Takes.throw _

theorem takes_decode : Moves counts reserves (decode : IssM P Unit) := by
  refine Takes.bind takes_getHart fun hart => Takes.ite ?_ (takes_modifyHart fun _ => rfl)
  split
  · exact Takes.throw _
  · exact Takes.bind (takes_modifyHart fun _ => rfl) fun _ => Takes.when (takes_requireIsa _)

theorem takes_execStep (counted : counts) (reserving : reserves) :
    Moves counts reserves (execStep input) :=
  Takes.bind (takes_fetch input) fun _ => Takes.bind takes_decode fun _ =>
    Takes.bind takes_getHart fun _ => takes_execute input (fun _ => counted) fun _ => reserving

theorem takes_lexicalCast (number : Nat) :
    Moves counts reserves (lexicalCast number : IssM P (BitVec 32)) :=
  Takes.bind (Takes.require _ _) fun _ => Takes.pure _

theorem takes_prepareTrap (trap : SimulationTrap) :
    Moves counts reserves (prepareTrap trap : IssM P PrivilegeLevel) := by
  have records : ∀ {first : CsrTable → CsrTable} {second : BitVec 32 → CsrTable → CsrTable}
      (_ : ∀ csrs, (first csrs).mhartid = csrs.mhartid)
      (_ : ∀ value csrs, (second value csrs).mhartid = csrs.mhartid)
      (mode : PrivilegeLevel), Moves counts reserves (do
        modifyCsrs first
        let value ← lexicalCast trap.mtval
        modifyCsrs (second value)
        pure mode : IssM P PrivilegeLevel) := fun same same' _ =>
    Takes.bind (takes_modifyCsrs same) fun _ => Takes.bind (takes_lexicalCast _) fun value =>
      Takes.bind (takes_modifyCsrs (same' value)) fun _ => Takes.pure _
  refine Takes.bind (takes_modifyHart fun _ => rfl) fun _ => Takes.bind takes_getHart fun hart => ?_
  refine Takes.ite (records ?_ ?_ _) (Takes.ite (records ?_ ?_ _)
    (Takes.bind (Takes.require _ _) fun _ => records ?_ ?_ _))
  all_goals
    intros
    rfl

theorem takes_prepareInterrupt (interrupts : PendingInterrupts) :
    Moves counts reserves (prepareInterrupt interrupts : IssM P Unit) := by
  unfold prepareInterrupt
  split
  · exact Takes.throw _
  · exact Takes.ite (takes_modifyCsrs fun _ => rfl) (Takes.ite (takes_modifyCsrs fun _ => rfl)
      (Takes.ite (takes_modifyCsrs fun _ => rfl) (Takes.throw _)))

theorem takes_switchToTrapHandler (counted : counts) (targetMode : PrivilegeLevel) :
    Moves counts reserves (switchToTrapHandler targetMode : IssM P Unit) := by
  refine Takes.bind (takes_releaseLrScReservation counted) fun _ => Takes.bind takes_getHart fun hart => ?_
  refine Takes.bind (takes_modifyHart fun _ => rfl) fun _ => ?_
  exact Takes.ite (takes_modifyHart fun _ => rfl) (Takes.ite (takes_modifyHart fun _ => rfl)
    (Takes.ite (takes_modifyHart fun _ => rfl) (Takes.throw _)))

theorem takes_stepAndInterrupt (counted : counts) (reserving : reserves) :
    Moves counts reserves (stepAndInterrupt input) := by
  refine Takes.bind (takes_execStep input counted reserving) fun _ => Takes.bind Takes.get fun state => ?_
  refine Takes.ite ?_ (Takes.pure _)
  refine Takes.bind (takes_prepareInterrupt _) fun _ => ?_
  refine Takes.bind (Takes.emit fun state => .interrupt state _) fun _ => ?_
  exact Takes.bind (takes_switchToTrapHandler counted _) fun _ => Takes.pure _

theorem takes_handleFault (counted : counts) (fault : Fault) :
    Moves counts reserves (handleFault fault : IssM P Taken) := by
  unfold handleFault
  split
  · refine Takes.bind (takes_prepareTrap _) fun mode => ?_
    exact Takes.bind (takes_switchToTrapHandler counted _) fun _ => Takes.pure _
  · exact Takes.throw _

theorem takes_performanceAndSyncUpdate (counted : counts) (executedOp : Opcode.Mapping) :
    Moves counts reserves (performanceAndSyncUpdate executedOp : IssM P Unit) := by
  have countsDown : Moves counts reserves (do
      modifyHart fun hart => { hart with lrScCounter := hart.lrScCounter - 1 }
      let counted ← getHart
      Exec.require (0 ≤ counted.lrScCounter) (.assertion "lr_sc_counter >= 0")
      Exec.when (counted.lrScCounter = 0) releaseLrScReservation : IssM P Unit) := by
    refine Takes.bind (takes_count counted) fun _ => Takes.bind takes_getHart fun hart => ?_
    exact Takes.bind (Takes.require _ _) fun _ =>
      Takes.when (takes_releaseLrScReservation counted)
  have retired : Moves counts reserves (modifyCsrs fun csrs =>
      if CounterBits.IR.get csrs.mcountinhibit = 0 then { csrs with instret := csrs.instret + 1 }
      else csrs : IssM P Unit) := takes_modifyCsrs fun csrs => by split <;> rfl
  refine Takes.bind retired fun _ => Takes.bind takes_getHart fun hart => ?_
  refine Takes.bind (Takes.when countsDown) fun _ => Takes.bind (takes_stepHart fun hart => ?_)
    fun _ => ?_
  · split
    · exact .cycles hart executedOp
    · exact .aside rfl
  refine Takes.bind takes_getHart fun hart => takes_memory fun _ => ?_
  refine Takes.bind (Board.takes_inc _) fun _ => Takes.bind Takes.get fun board => ?_
  exact Takes.when Board.takes_synchronise

theorem takes_finishStep (counted : counts) :
    Moves counts reserves (finishStep : IssM P Unit) := by
  refine Takes.bind (takes_write (fun _ => 0) _) fun _ => Takes.bind Takes.get fun state => ?_
  refine Takes.bind (Takes.when (takes_modifyHart fun _ => rfl)) fun _ => ?_
  exact Takes.bind takes_getHart fun hart => takes_performanceAndSyncUpdate counted _

theorem moves_runStep (counted : counts) (reserving : reserves) :
    Moves counts reserves (runStep input) := by
  refine Takes.bind takes_getHart fun hart => Takes.bind (Takes.require _ _) fun _ => ?_
  refine Takes.ite (Takes.bind (takes_modifyHart fun _ => rfl) fun _ => Takes.pure _) ?_
  refine Takes.bind (takes_modifyHart fun _ => rfl) fun _ => ?_
  refine Takes.bind (Takes.tryCatch (takes_stepAndInterrupt input counted reserving)
    (takes_handleFault counted)) fun _ => ?_
  exact Takes.bind (takes_finishStep counted) fun _ => Takes.pure _

/-- A step of the simulator is a chain of single steps. -/
theorem takes_runStep : StateTakes (runStep input) := (moves_runStep input trivial trivial).state

/-! ## The owner of the bus lock -/

/-- The bus lock is free, or the hart holds it. -/
def Owned (state : State P) : Prop :=
  state.board.lock = none ∨ state.board.lock = some state.hart.csrs.mhartid

theorem owned_of_stateStep {before after : State P} {log : List (Event P.clover.terms)}
    (step : StateStep before log after) (owned : Owned before) : Owned after := by
  cases step with
  | board step =>
      cases step with
      | lock lock owner => exact owner
      | _ => exact owned
  | hart hart same =>
      rw [Owned, same]
      exact owned
  | _ => exact owned

theorem StateTakes.owned {α : Type} {body : IssM P α} (takes : StateTakes body) {state : State P}
    (owned : Owned state) : Owned (body.run state).state :=
  takes.keeps Owned owned_of_stateStep owned

/-- No reachable state has a bus lock that another hart holds. -/
theorem owned_of_reachable {state : State P} (reachable : Reachable input state) :
    Owned state := by
  obtain ⟨start, reset, reached⟩ := reachable
  refine Reaches.invariant ?_ (fun before _ holds _ => (takes_runStep input).owned holds) reached
  cases reset
  exact .inl rfl

end SymexVP.Iss
