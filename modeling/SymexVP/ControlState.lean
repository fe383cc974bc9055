import SymexVP.CsrAccess
import SymexVP.Dispatch

/-!
# What a step does to the control state

The control state of a hart is its privilege level and its control and status
registers. Most instructions leave it alone; a CSR instruction ends in one write to
a register the current level may access, and `MRET` restores what a trap has saved.
This is said once here, for every opcode and for the execution of a fetched word.

The counters advance on their own and are left out.
-/

namespace SymexVP

/-- The table without the counters. -/
def CsrTable.settled (csrs : CsrTable) : CsrTable :=
  { csrs with cycle := 0, time := 0, instret := 0 }

/-- The control state of a hart. -/
structure Control where
  prv : PrivilegeLevel
  csrs : CsrTable

namespace Iss

open Exec Opcode

variable {P : Platform} (input : P.clover.terms.Assignment)

def control (state : State P) : Control := ⟨state.hart.prv, state.hart.csrs.settled⟩

/-- The computation leaves the control state alone. -/
abbrev Quiet {α : Type} (body : IssM P α) : Prop := Steps (Unchanged control) body

/-! ## Building blocks -/

theorem quiet_getHart : Quiet (getHart : IssM P (Hart P.clover.terms)) :=
  Steps.bind Steps.get fun _ => Steps.pure _

theorem quiet_memory {α : Type} (body : Core → MemM P α) : Quiet (memory body) :=
  steps_memory (fun _ _ => rfl) body

theorem quiet_raiseTrap {α : Type} (reason : ExceptionCode) (mtval : Nat) :
    Quiet (raiseTrap reason mtval : IssM P α) := Steps.throw _

theorem quiet_raiseIllegalInstruction {α : Type} : Quiet (raiseIllegalInstruction : IssM P α) :=
  Steps.bind quiet_getHart fun _ => quiet_raiseTrap _ _

theorem quiet_requireIsa (extension : BitVec 32) : Quiet (requireIsa extension : IssM P Unit) :=
  Steps.bind quiet_getHart fun _ => Steps.when fun _ => quiet_raiseIllegalInstruction

theorem quiet_getValue {width : Nat} (use : Use) (value : ConcolicValue P.clover.terms width) :
    Quiet (getValue use value) := Steps.bind (Steps.emit _) fun _ => Steps.pure _

/-- A change of the hart that leaves its privilege level and its table alone. -/
theorem quiet_modifyHart {change : Hart P.clover.terms → Hart P.clover.terms}
    (prv : ∀ hart, (change hart).prv = hart.prv) (csrs : ∀ hart, (change hart).csrs = hart.csrs) :
    Quiet (modifyHart change : IssM P Unit) := by
  refine Steps.modify fun state => ?_
  show Control.mk _ _ = Control.mk _ _
  rw [prv, csrs]

theorem write_prv (hart : Hart P.clover.terms) (index : BitVec 5)
    (data : Concolic P.clover.terms) : (hart.write index data).prv = hart.prv := by
  unfold Hart.write
  split
  · rfl
  · split <;> rfl

theorem write_csrs (hart : Hart P.clover.terms) (index : BitVec 5)
    (data : Concolic P.clover.terms) : (hart.write index data).csrs = hart.csrs := by
  unfold Hart.write
  split
  · rfl
  · split <;> rfl

theorem quiet_write (index : Hart P.clover.terms → BitVec 5)
    (data : Hart P.clover.terms → Concolic P.clover.terms) :
    Quiet (modifyHart fun hart => hart.write (index hart) (data hart) : IssM P Unit) :=
  quiet_modifyHart (fun hart => write_prv hart _ _) fun hart => write_csrs hart _ _

theorem quiet_jumpTo (target : BitVec 32) : Quiet (jumpTo target : IssM P Unit) := by
  refine Steps.bind (quiet_modifyHart (fun _ => rfl) fun _ => rfl) fun _ => ?_
  refine Steps.bind quiet_getHart fun hart => Steps.bind (Steps.require _ _) fun _ => ?_
  exact Steps.when fun _ => quiet_raiseTrap _ _

theorem quiet_trackAndTraceBranch (cond : Bool) (expr : ConcolicValue P.clover.terms 1) :
    Quiet (trackAndTraceBranch cond expr) := by
  refine Steps.bind quiet_getHart fun hart => ?_
  split
  · exact Steps.emit _
  · exact Steps.pure _

theorem quiet_trapCheckAddrAlignment (alignment : Nat) (isLoad : Bool)
    (addr : ConcolicValue P.clover.terms 32) :
    Quiet (trapCheckAddrAlignment alignment isLoad addr) :=
  Steps.bind (quiet_getValue _ _) fun _ => Steps.when fun _ => quiet_raiseTrap _ _

theorem quiet_releaseLrScReservation : Quiet (releaseLrScReservation : IssM P Unit) :=
  Steps.bind (quiet_modifyHart (fun _ => rfl) fun _ => rfl) fun _ => quiet_memory _

/-! ## Instructions that leave the control state alone -/

theorem quiet_compute (value : Hart P.clover.terms → Concolic P.clover.terms) :
    Quiet (compute value : IssM P Unit) := quiet_write _ _

theorem quiet_arithmetic (operation : BinaryOp)
    (operand : Hart P.clover.terms → ConcolicValue P.clover.terms 32) :
    Quiet (arithmetic operation operand : IssM P Unit) := quiet_compute _

theorem quiet_comparison (operation : CompareOp)
    (operand : Hart P.clover.terms → ConcolicValue P.clover.terms 32) :
    Quiet (comparison operation operand : IssM P Unit) := quiet_compute _

theorem quiet_jal : Quiet (jal : IssM P Unit) :=
  Steps.bind quiet_getHart fun _ => Steps.bind (quiet_jumpTo _) fun _ => quiet_write _ _

theorem quiet_jalr : Quiet (jalr : IssM P Unit) := by
  refine Steps.bind quiet_getHart fun hart => Steps.bind (quiet_getValue _ _) fun rs1 => ?_
  exact Steps.bind (quiet_jumpTo _) fun _ => quiet_write _ _

theorem quiet_branch (operation : CompareOp) : Quiet (branch operation : IssM P Unit) := by
  refine Steps.bind quiet_getHart fun hart => ?_
  exact Steps.bind (Steps.when fun _ => quiet_jumpTo _) fun _ => quiet_trackAndTraceBranch _ _

section Accesses

variable {check : ConcolicValue P.clover.terms 32 → IssM P Unit}
  (checked : ∀ addr, Quiet (check addr)) (numBytes : Nat)

include checked

theorem quiet_store : Quiet (store input check numBytes) :=
  Steps.bind quiet_getHart fun _ => Steps.bind (checked _) fun _ => quiet_memory _

theorem quiet_load : Quiet (load input check numBytes) := by
  refine Steps.bind quiet_getHart fun hart => Steps.bind (checked _) fun _ => ?_
  exact Steps.bind (quiet_memory _) fun _ => quiet_write _ _

theorem quiet_loadUnsigned : Quiet (loadUnsigned input check numBytes) := by
  refine Steps.bind quiet_getHart fun hart => Steps.bind (checked _) fun _ => ?_
  exact Steps.bind (quiet_memory _) fun _ => quiet_write _ _

end Accesses

theorem quiet_ecall : Quiet (ecall : IssM P Unit) := by
  refine Steps.bind quiet_getHart fun hart => Steps.ite (quiet_raiseTrap _ _) ?_
  exact Steps.ite (quiet_raiseTrap _ _) (Steps.ite (quiet_raiseTrap _ _) (Steps.throw _))

theorem quiet_wfi : Quiet (wfi : IssM P Unit) := by
  refine Steps.bind quiet_releaseLrScReservation fun _ => Steps.bind Steps.get fun state => ?_
  refine Steps.ite quiet_raiseIllegalInstruction (Steps.ite quiet_raiseIllegalInstruction ?_)
  exact Steps.ite (quiet_memory _) (Steps.pure _)

theorem quiet_multiply
    (extend₁ extend₂ : ConcolicValue P.clover.terms 32 → ConcolicValue P.clover.terms 64)
    (offset : Nat) : Quiet (multiply extend₁ extend₂ offset : IssM P Unit) :=
  Steps.bind (quiet_requireIsa _) fun _ => quiet_write _ _

theorem quiet_divide {onZero : Hart P.clover.terms → Hart P.clover.terms}
    (quiet : Quiet (modifyHart onZero : IssM P Unit))
    (result : Hart P.clover.terms → ConcolicValue P.clover.terms 32) :
    Quiet (divide onZero result) := by
  refine Steps.bind (quiet_requireIsa _) fun _ => Steps.bind quiet_getHart fun hart => ?_
  exact Steps.bind (Steps.ite quiet (quiet_write _ _)) fun _ => quiet_trackAndTraceBranch _ _

theorem quiet_allOnes : Quiet (modifyHart allOnes : IssM P Unit) := quiet_write _ _

theorem quiet_copyRs1 : Quiet (modifyHart copyRs1 : IssM P Unit) :=
  quiet_modifyHart (fun _ => rfl) fun _ => rfl

theorem quiet_lrW : Quiet (lrW input) := by
  refine Steps.bind (quiet_requireIsa _) fun _ => Steps.bind quiet_getHart fun hart => ?_
  refine Steps.bind (quiet_trapCheckAddrAlignment _ _ _) fun _ => ?_
  refine Steps.bind (quiet_memory _) fun value => Steps.bind (quiet_write _ _) fun _ => ?_
  exact quiet_modifyHart (fun _ => rfl) fun _ => rfl

theorem quiet_scW : Quiet (scW input) := by
  refine Steps.bind (quiet_requireIsa _) fun _ => Steps.bind quiet_getHart fun hart => ?_
  refine Steps.bind (quiet_trapCheckAddrAlignment _ _ _) fun _ => ?_
  refine Steps.bind (quiet_write _ _) fun _ => Steps.bind (quiet_memory _) fun stored => ?_
  exact Steps.bind (quiet_write _ _) fun _ => quiet_modifyHart (fun _ => rfl) fun _ => rfl

theorem quiet_executeAmo (operation : ConcolicValue P.clover.terms 32 →
    ConcolicValue P.clover.terms 32 → ConcolicValue P.clover.terms 32) :
    Quiet (executeAmo input operation) := by
  refine Steps.bind (quiet_requireIsa _) fun _ => Steps.bind quiet_getHart fun hart => ?_
  refine Steps.bind (quiet_trapCheckAddrAlignment _ _ _) fun _ => ?_
  refine Steps.bind (Steps.tryCatch (quiet_memory _) fun fault => ?_) fun data => ?_
  · split
    · exact quiet_raiseTrap _ _
    · exact Steps.throw _
  · exact Steps.bind (quiet_memory _) fun _ => quiet_write _ _

/-- The instructions that write control and status registers. -/
def isCsrInstr : Mapping → Bool
  | .csrrw | .csrrs | .csrrc | .csrrwi | .csrrsi | .csrrci => true
  | _ => false

theorem quiet_execute {op : Mapping} (plain : isCsrInstr op = false) (other : op ≠ .mret) :
    Quiet (execute input op) := by
  have unchecked : ∀ addr, Quiet (Iss.unchecked addr : IssM P Unit) := fun _ => Steps.pure _
  cases op with
  | undefined => exact quiet_raiseIllegalInstruction
  | jal => exact quiet_jal
  | jalr => exact quiet_jalr
  | beq | bne | blt | bge | bltu | bgeu => exact quiet_branch _
  | sb => exact quiet_store input unchecked 1
  | sh | sw => exact quiet_store input (quiet_trapCheckAddrAlignment _ _) _
  | lb => exact quiet_load input unchecked 1
  | lh | lw => exact quiet_load input (quiet_trapCheckAddrAlignment _ _) _
  | lbu => exact quiet_loadUnsigned input unchecked 1
  | lhu => exact quiet_loadUnsigned input (quiet_trapCheckAddrAlignment _ _) _
  | fence | fenceI => exact Steps.pure _
  | ecall => exact quiet_ecall
  | ebreak => exact quiet_modifyHart (fun _ => rfl) fun _ => rfl
  | csrrw | csrrs | csrrc | csrrwi | csrrsi | csrrci => exact absurd plain Bool.noConfusion
  | mret => exact absurd rfl other
  | mul | mulh | mulhu | mulhsu => exact quiet_multiply _ _ _
  | div | divu => exact quiet_divide quiet_allOnes _
  | rem | remu => exact quiet_divide quiet_copyRs1 _
  | lrW => exact quiet_lrW input
  | scW => exact quiet_scW input
  | amoswapW => exact quiet_executeAmo input fun _ b => b
  | amoaddW | amoxorW | amoandW | amoorW | amominW | amominuW | amomaxW | amomaxuW =>
      exact quiet_executeAmo input _
  | wfi => exact quiet_wfi
  | lui | auipc => exact quiet_compute _
  | slti | sltiu | slt | sltu => exact quiet_comparison _ _
  | addi | xori | ori | andi | add | sub | sll | srl | sra | xor | or | and | slli | srli | srai =>
      exact quiet_arithmetic _ _
  | _ => exact Steps.throw _

/-! ## CSR instructions -/

theorem quiet_updateTime : Quiet (updateTime : IssM P (BitVec 64)) := by
  refine Steps.bind (quiet_memory _) fun mtime => ?_
  exact Steps.bind (Steps.modify fun _ => rfl) fun _ => Steps.pure _

theorem quiet_updateCycle : Quiet (updateCycle : IssM P (BitVec 64)) := by
  have current : Quiet (computeAndGetCurrentCycles : IssM P (BitVec 64)) :=
    Steps.bind quiet_getHart fun _ => Steps.bind (Steps.require _ _) fun _ => Steps.pure _
  refine Steps.bind current fun cycles => ?_
  exact Steps.bind (Steps.modify fun _ => rfl) fun _ => Steps.pure _

theorem quiet_readCsr (name : CsrName) : Quiet (readCsr name : IssM P (BitVec 32)) := by
  refine Steps.bind Steps.get fun state => ?_
  cases name with
  | time | mtime | timeh | mtimeh => exact Steps.bind quiet_updateTime fun _ => Steps.pure _
  | mcycle | mcycleh => exact Steps.bind quiet_updateCycle fun _ => Steps.pure _
  | satp => exact Steps.ite quiet_raiseIllegalInstruction (Steps.pure _)
  | _ => exact Steps.pure _

theorem quiet_getCsrValue (address : BitVec 32) :
    Quiet (getCsrValue address : IssM P (BitVec 32)) := by
  have validated : Quiet (validateCsrCounterReadAccessRights address : IssM P Unit) := by
    refine Steps.bind quiet_getHart fun hart => Steps.ite ?_ (Steps.pure _)
    refine Steps.ite quiet_raiseIllegalInstruction ?_
    exact Steps.ite quiet_raiseIllegalInstruction (Steps.pure _)
  refine Steps.bind validated fun _ => Steps.ite (Steps.pure _) ?_
  split
  · exact quiet_readCsr _
  · exact quiet_raiseIllegalInstruction

/-- What a computation that keeps the control state returns. -/
abbrev Keeps (fixed : Control) {α : Type} (returns : α → Prop) (body : IssM P α) : Prop :=
  Meets (fun state => control state = fixed) returns (fun _ => True) body

theorem Quiet.keeps {α : Type} {body : IssM P α} (quiet : Quiet body) (fixed : Control) :
    Keeps fixed (fun _ => True) body := Steps.meets quiet fixed

theorem keeps_getHart (fixed : Control) :
    Keeps fixed (fun hart => hart.prv = fixed.prv ∧ hart.csrs.settled = fixed.csrs)
      (getHart : IssM P (Hart P.clover.terms)) := by
  refine Meets.bind Meets.get fun state same => Meets.pure ?_
  subst same
  exact ⟨rfl, rfl⟩

/-- What `is_invalid_csr_access` lets pass is a register of the current level or a lower one. -/
theorem keeps_isInvalidCsrAccess (fixed : Control) (address : BitVec 32) (isWrite : Bool) :
    Keeps fixed (fun invalid => invalid = false → csrPrv address ≤ fixed.prv)
      (isInvalidCsrAccess address isWrite : IssM P Bool) := by
  have checked : Quiet (Exec.when (address = CsrName.fflags.addr ∨ address = CsrName.frm.addr ∨
      address = CsrName.fcsr.addr) (requireIsa Misa.F) : IssM P Unit) :=
    Steps.when fun _ => quiet_requireIsa _
  refine Meets.bind (checked.keeps fixed) fun _ _ => ?_
  refine Meets.bind (keeps_getHart fixed) fun hart ⟨level, _⟩ => Meets.pure fun valid => ?_
  simp only [Bool.or_eq_false_iff, decide_eq_false_iff_not, BitVec.not_lt, level] at valid
  exact valid.1.1.2

theorem getCsrValue_mstatus (state : State P) :
    (getCsrValue CsrName.mstatus.addr).run state =
      ⟨.ok (state.hart.csrs.mstatus &&& CsrMask.MSTATUS), state, []⟩ := rfl

/-- Reading `mstatus` gives its visible bits. -/
theorem keeps_getCsrValue (fixed : Control) (address : BitVec 32) :
    Keeps fixed (fun value => address = CsrName.mstatus.addr →
        value = fixed.csrs.mstatus &&& CsrMask.MSTATUS)
      (getCsrValue address : IssM P (BitVec 32)) := by
  by_cases status : address = CsrName.mstatus.addr
  · subst status
    intro state same
    rw [getCsrValue_mstatus]
    refine ⟨same, ?_, fun _ _ => trivial⟩
    rintro value ⟨⟩ -
    subst same
    rfl
  · exact Meets.mono (fun _ _ same => absurd same status) (fun _ _ => trivial)
      ((quiet_getCsrValue address).keeps fixed)

/-- The value a CSR instruction writes, given the old value of the register; `none` if it only
reads. -/
def csrOperand {terms : Terms} (op : Mapping) (hart : Hart terms) (csrVal : BitVec 32) :
    Option (BitVec 32) :=
  match op with
  | .csrrw => some hart.rs1Value.concrete
  | .csrrs => if hart.rs1 ≠ 0 then some (csrVal ||| hart.rs1Value.concrete) else none
  | .csrrc => if hart.rs1 ≠ 0 then some (csrVal &&& ~~~hart.rs1Value.concrete) else none
  | .csrrwi => some hart.instr.zimm
  | .csrrsi => if hart.instr.zimm ≠ 0 then some (csrVal ||| hart.instr.zimm) else none
  | .csrrci => if hart.instr.zimm ≠ 0 then some (csrVal &&& ~~~hart.instr.zimm) else none
  | _ => none

/-- What executing an opcode does to the control state: nothing, a write to a register the
current level may access, or a return from a machine-mode handler. -/
inductive Changes (op : Mapping) (before : State P) : State P → Prop
  | quiet {after : State P} (same : control after = control before) : Changes op before after
  | write (middle : State P) (name : CsrName) (csrVal value : BitVec 32)
      (same : control middle = control before)
      (addressed : name.addr = before.hart.instr.csr)
      (allowed : csrPrv name.addr ≤ before.hart.prv)
      (operand : csrOperand op before.hart csrVal = some value)
      (old : name.addr = CsrName.mstatus.addr →
        csrVal = before.hart.csrs.mstatus &&& CsrMask.MSTATUS) :
      Changes op before ((writeCsr name value).run middle).state
  | mret (returns : op = .mret) :
      Changes op before ((returnFromTrapHandler machineMode).run before).state

section CsrInstructions

variable {op : Mapping} {before : State P}

/-- A write ends in one of the two ways a CSR instruction can end. -/
theorem ends_setCsrValue {csrVal value : BitVec 32}
    (allowed : csrPrv before.hart.instr.csr ≤ before.hart.prv)
    (operand : csrOperand op before.hart csrVal = some value)
    (old : before.hart.instr.csr = CsrName.mstatus.addr →
      csrVal = before.hart.csrs.mstatus &&& CsrMask.MSTATUS) :
    Ends (fun state => control state = control before) (Changes op before)
      (setCsrValue before.hart.instr.csr value : IssM P Unit) := by
  refine Ends.ite (fun _ state same => .quiet same) fun _ => ?_
  cases found : CsrName.find before.hart.instr.csr with
  | none => exact fun state same => .quiet ((quiet_raiseIllegalInstruction state).trans same)
  | some name =>
      have addressed := CsrName.addr_of_find found
      intro middle same
      refine .write middle name csrVal value same addressed ?_ operand ?_
      · rw [addressed]
        exact allowed
      · rw [addressed]
        exact old

theorem changes_csrWrite {source : Hart P.clover.terms → IssM P (BitVec 32)}
    (operand : ∀ csrVal, Keeps (control before)
      (fun value => csrOperand op before.hart csrVal = some value) (source before.hart)) :
    Changes op before ((csrWrite source).run before).state := by
  have early : ∀ state : State P, control state = control before → Changes op before state :=
    fun _ same => .quiet same
  -- the instruction is read off the state before, everything else keeps its control state
  refine Ends.bind early (keeps_isInvalidCsrAccess (control before) _ _) (fun invalid valid => ?_)
    before rfl
  refine Ends.ite (fun _ state same => ?_) fun passed => ?_
  · exact .quiet ((quiet_raiseIllegalInstruction state).trans same)
  have shown : Quiet (Exec.when (before.hart.rd ≠ 0) do
      let value ← getCsrValue before.hart.instr.csr
      modifyHart fun after => after.write before.hart.rd ⟨32, .BVC value⟩ : IssM P Unit) :=
    Steps.when fun _ => Steps.bind (quiet_getCsrValue _) fun _ => quiet_write _ _
  refine Ends.bind early (shown.keeps _) fun _ _ => ?_
  refine Ends.bind early (operand (before.hart.csrs.mstatus &&& CsrMask.MSTATUS))
    fun value source => ?_
  exact ends_setCsrValue (valid (Bool.eq_false_of_not_eq_true passed)) source fun _ => rfl

theorem changes_csrModify {α : Type} {writes : Hart P.clover.terms → Bool}
    {prepare : Hart P.clover.terms → IssM P α} {update : α → BitVec 32 → IssM P (BitVec 32)}
    {prepared : α → Prop} (first : Keeps (control before) prepared (prepare before.hart))
    (operand : ∀ value csrVal, prepared value → writes before.hart = true →
      Keeps (control before) (fun written => csrOperand op before.hart csrVal = some written)
        (update value csrVal)) :
    Changes op before ((csrModify writes prepare update).run before).state := by
  have early : ∀ state : State P, control state = control before → Changes op before state :=
    fun _ same => .quiet same
  refine Ends.bind early (keeps_isInvalidCsrAccess (control before) _ _) (fun invalid valid => ?_)
    before rfl
  refine Ends.ite (fun _ state same => ?_) fun passed => ?_
  · exact .quiet ((quiet_raiseIllegalInstruction state).trans same)
  refine Ends.bind early first fun value ready => ?_
  refine Ends.bind early (keeps_getCsrValue (control before) _) fun csrVal old => ?_
  have shown : Quiet (Exec.when (before.hart.rd ≠ 0)
      (modifyHart fun after => after.write before.hart.rd ⟨32, .BVC csrVal⟩) : IssM P Unit) :=
    Steps.when fun _ => quiet_write _ _
  refine Ends.bind early (shown.keeps _) fun _ _ => Ends.ite (fun chosen => ?_) fun _ => ?_
  · refine Ends.bind early (operand value csrVal ready chosen) fun written source => ?_
    exact ends_setCsrValue (valid (Bool.eq_false_of_not_eq_true passed)) source old
  · exact fun state same => .quiet same

end CsrInstructions

/-- Taking the concrete part of a value gives that part. -/
theorem keeps_getValue (fixed : Control) {width : Nat} (use : Use)
    (value : ConcolicValue P.clover.terms width) :
    Keeps fixed (fun bits => bits = value.concrete) (getValue use value) :=
  Meets.bind (Meets.emit _) fun _ _ => Meets.pure rfl

/-- Executing an opcode changes the control state in one of three ways. -/
theorem changes_execute (op : Mapping) (before : State P) :
    Changes op before ((execute input op).run before).state := by
  by_cases returns : op = .mret
  · subst returns
    exact .mret rfl
  by_cases plain : isCsrInstr op = false
  · exact .quiet (quiet_execute input plain returns before)
  cases op with
  | csrrw =>
      refine changes_csrWrite fun csrVal => ?_
      exact Meets.mono (fun value same => by rw [same]; rfl) (fun _ _ => trivial)
        (keeps_getValue _ _ _)
  | csrrwi => exact changes_csrWrite fun csrVal => Meets.pure rfl
  | csrrs =>
      refine changes_csrModify (Meets.pure rfl) fun value csrVal same chosen => ?_
      subst same
      refine Meets.bind (keeps_getValue _ _ _) fun bits same => Meets.pure ?_
      simp_all [csrOperand]
  | csrrc =>
      refine changes_csrModify (keeps_getValue _ _ _) fun value csrVal same chosen => ?_
      subst same
      refine Meets.pure ?_
      simp_all [csrOperand]
  | csrrsi | csrrci =>
      refine changes_csrModify (Meets.pure rfl) fun value csrVal same chosen => ?_
      subst same
      refine Meets.pure ?_
      simp_all [csrOperand]
  | _ => exact absurd rfl plain

/-! ## Executing one instruction -/

theorem quiet_fetch : Quiet (fetch input) := by
  intro state
  have visible : ∀ state : State P,
      control state = ⟨(undecoded state 0).prv, (undecoded state 0).csrs.settled⟩ := fun _ => rfl
  rw [Unchanged, visible, visible, congrFun (steps_fetch input state) 0]

/-- What `exec_step` does to the control state. -/
inductive ExecChanges (before : State P) : State P → Prop
  | quiet {after : State P} (same : control after = control before) : ExecChanges before after
  | dispatched {after : State P} (word : Instruction) (fetched : FetchReturns input before word)
      (changes : Changes (decodedOpcode word) (decodedState input before word) after) :
      ExecChanges before after

theorem execChanges_execStep (before : State P) :
    ExecChanges input before ((execStep input).run before).state := by
  cases returned : ((fetch input).run before).result with
  | ok value =>
      have fetched : FetchReturns input before ((fetch input).run before).state.hart.instr :=
        ⟨returned, rfl⟩
      refine .dispatched _ fetched ?_
      rw [execStep_run input fetched]
      exact changes_execute input _ _
  | error fault =>
      refine .quiet ?_
      have same := quiet_fetch input before
      simp only [execStep, bind_run]
      generalize (fetch input).run before = outcome at returned same ⊢
      obtain ⟨result, after, log⟩ := outcome
      subst returned
      exact same

end Iss

end SymexVP
