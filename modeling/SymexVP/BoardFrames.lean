import SymexVP.LoadPermissions

/-!
# What instructions leave alone on the board

Only an instruction that accesses memory reaches the memory, the bus lock, the reserved
address or the translation cache, apart from `WFI`, which gives the lock up. The others
compute on the hart, or move the clock and the pending interrupts.
-/

namespace SymexVP.Iss

open Exec

variable {P : Platform} (input : P.clover.terms.Assignment)

/-- Memory, lock, reserved address and translation cache stay as they are. -/
abbrev Settled {α : Type} (body : IssM P α) : Prop :=
  Steps (Unchanged fun state => state.board.settled) body

/-! ## Building blocks -/

theorem settled_getHart : Settled (getHart : IssM P (Hart P.clover.terms)) :=
  Steps.bind Steps.get fun _ => Steps.pure _

theorem settled_modifyHart (change : Hart P.clover.terms → Hart P.clover.terms) :
    Settled (modifyHart change : IssM P Unit) := Steps.modify fun _ => rfl

theorem settled_memory {α : Type} {body : Core → MemM P α}
    (kept : ∀ core, Steps (Unchanged Board.settled) (body core)) : Settled (memory body) := by
  refine Steps.bind settled_getHart fun hart state => ?_
  exact kept hart.core state.board

theorem settled_getValue {width : Nat} (use : Use) (value : ConcolicValue P.clover.terms width) :
    Settled (getValue use value : IssM P (BitVec width)) :=
  Steps.bind (Steps.emit _) fun _ => Steps.pure _

theorem settled_raiseIllegalInstruction {α : Type} :
    Settled (raiseIllegalInstruction : IssM P α) :=
  Steps.bind settled_getHart fun _ => Steps.throw _

theorem settled_requireIsa (extension : BitVec 32) :
    Settled (requireIsa extension : IssM P Unit) :=
  Steps.bind settled_getHart fun _ => Steps.when fun _ => settled_raiseIllegalInstruction

theorem settled_jumpTo (target : BitVec 32) : Settled (jumpTo target : IssM P Unit) := by
  refine Steps.bind (settled_modifyHart _) fun _ => Steps.bind settled_getHart fun hart => ?_
  exact Steps.bind (Steps.require _ _) fun _ => Steps.when fun _ => Steps.throw _

theorem settled_trackAndTraceBranch (cond : Bool) (expr : ConcolicValue P.clover.terms 1) :
    Settled (trackAndTraceBranch cond expr : IssM P Unit) := by
  refine Steps.bind settled_getHart fun hart => ?_
  split
  · exact Steps.emit _
  · exact Steps.pure _

/-! ## Instructions -/

theorem settled_compute (value : Hart P.clover.terms → Concolic P.clover.terms) :
    Settled (compute value : IssM P Unit) := settled_modifyHart _

theorem settled_arithmetic (operation : BinaryOp)
    (operand : Hart P.clover.terms → ConcolicValue P.clover.terms 32) :
    Settled (arithmetic operation operand : IssM P Unit) := settled_compute _

theorem settled_comparison (operation : CompareOp)
    (operand : Hart P.clover.terms → ConcolicValue P.clover.terms 32) :
    Settled (comparison operation operand : IssM P Unit) := settled_compute _

theorem settled_jal : Settled (jal : IssM P Unit) :=
  Steps.bind settled_getHart fun _ => Steps.bind (settled_jumpTo _) fun _ => settled_modifyHart _

theorem settled_jalr : Settled (jalr : IssM P Unit) := by
  refine Steps.bind settled_getHart fun _ => Steps.bind (settled_getValue _ _) fun _ => ?_
  exact Steps.bind (settled_jumpTo _) fun _ => settled_modifyHart _

theorem settled_branch (operation : CompareOp) : Settled (branch operation : IssM P Unit) :=
  Steps.bind settled_getHart fun _ => Steps.bind (Steps.when fun _ => settled_jumpTo _) fun _ =>
    settled_trackAndTraceBranch _ _

theorem settled_ecall : Settled (ecall : IssM P Unit) :=
  Steps.bind settled_getHart fun _ =>
    Steps.ite (Steps.throw _) (Steps.ite (Steps.throw _) (Steps.ite (Steps.throw _) (Steps.throw _)))

theorem settled_multiply
    (extend₁ extend₂ : ConcolicValue P.clover.terms 32 → ConcolicValue P.clover.terms 64)
    (offset : Nat) : Settled (multiply extend₁ extend₂ offset : IssM P Unit) :=
  Steps.bind (settled_requireIsa _) fun _ => settled_modifyHart _

theorem settled_divide (onZero : Hart P.clover.terms → Hart P.clover.terms)
    (result : Hart P.clover.terms → ConcolicValue P.clover.terms 32) :
    Settled (divide onZero result : IssM P Unit) := by
  refine Steps.bind (settled_requireIsa _) fun _ => Steps.bind settled_getHart fun hart => ?_
  refine Steps.bind (Steps.ite (settled_modifyHart _) (settled_modifyHart _)) fun _ => ?_
  exact settled_trackAndTraceBranch _ _

theorem settled_returnFromTrapHandler (mode : PrivilegeLevel) :
    Settled (returnFromTrapHandler mode : IssM P Unit) :=
  Steps.ite (settled_modifyHart _) (Steps.ite (settled_modifyHart _)
    (Steps.ite (settled_modifyHart _) (Steps.throw _)))

/-! ## Control and status registers -/

theorem settled_isInvalidCsrAccess (address : BitVec 32) (isWrite : Bool) :
    Settled (isInvalidCsrAccess address isWrite : IssM P Bool) :=
  Steps.bind (Steps.when fun _ => settled_requireIsa _) fun _ => Steps.bind settled_getHart fun _ =>
    Steps.pure _

theorem settled_updateTime : Settled (updateTime : IssM P (BitVec 64)) := by
  refine Steps.bind (settled_memory fun _ => ?_) fun _ => ?_
  · exact Steps.bind Steps.get fun board => Steps.bind (Steps.modify fun _ => rfl) fun _ =>
      Steps.pure _
  · exact Steps.bind (settled_modifyHart _) fun _ => Steps.pure _

theorem settled_updateCycle : Settled (updateCycle : IssM P (BitVec 64)) := by
  refine Steps.bind (Steps.bind settled_getHart fun _ => ?_) fun _ => ?_
  · exact Steps.bind (Steps.require _ _) fun _ => Steps.pure _
  · exact Steps.bind (settled_modifyHart _) fun _ => Steps.pure _

theorem settled_readCsr (name : CsrName) : Settled (readCsr name : IssM P (BitVec 32)) := by
  refine Steps.bind Steps.get fun state => ?_
  cases name
  case time | timeh | mtime | mtimeh => exact Steps.bind settled_updateTime fun _ => Steps.pure _
  case mcycle | mcycleh => exact Steps.bind settled_updateCycle fun _ => Steps.pure _
  case satp => exact Steps.ite settled_raiseIllegalInstruction (Steps.pure _)
  all_goals exact Steps.pure _

theorem settled_getCsrValue (address : BitVec 32) :
    Settled (getCsrValue address : IssM P (BitVec 32)) := by
  refine Steps.bind (Steps.bind settled_getHart fun hart => ?_) fun _ => ?_
  · refine Steps.ite (Steps.ite settled_raiseIllegalInstruction ?_) (Steps.pure _)
    exact Steps.ite settled_raiseIllegalInstruction (Steps.pure _)
  · refine Steps.ite (Steps.pure _) ?_
    split
    · exact settled_readCsr _
    · exact settled_raiseIllegalInstruction

theorem settled_writeCsr (name : CsrName) (value : BitVec 32) :
    Settled (writeCsr name value : IssM P Unit) := by
  cases name
  case satp =>
      exact Steps.bind settled_getHart fun _ =>
        Steps.ite settled_raiseIllegalInstruction (settled_modifyHart _)
  all_goals
    intro state
    rfl

theorem settled_setCsrValue (address value : BitVec 32) :
    Settled (setCsrValue address value : IssM P Unit) := by
  refine Steps.ite (Steps.pure _) ?_
  split
  · exact settled_writeCsr _ _
  · exact settled_raiseIllegalInstruction

theorem settled_csrWrite {source : Hart P.clover.terms → IssM P (BitVec 32)}
    (reads : ∀ hart, Settled (source hart)) : Settled (csrWrite source) := by
  refine Steps.bind settled_getHart fun hart => Steps.bind (settled_isInvalidCsrAccess _ _) fun _ => ?_
  refine Steps.ite settled_raiseIllegalInstruction ?_
  refine Steps.bind (Steps.when fun _ => Steps.bind (settled_getCsrValue _) fun _ =>
    settled_modifyHart _) fun _ => ?_
  exact Steps.bind (reads _) fun _ => settled_setCsrValue _ _

theorem settled_csrModify {α : Type} {writes : Hart P.clover.terms → Bool}
    {prepare : Hart P.clover.terms → IssM P α} {update : α → BitVec 32 → IssM P (BitVec 32)}
    (prepares : ∀ hart, Settled (prepare hart))
    (updates : ∀ operand value, Settled (update operand value)) :
    Settled (csrModify writes prepare update) := by
  refine Steps.bind settled_getHart fun hart => Steps.bind (settled_isInvalidCsrAccess _ _) fun _ => ?_
  refine Steps.ite settled_raiseIllegalInstruction ?_
  refine Steps.bind (prepares _) fun operand => Steps.bind (settled_getCsrValue _) fun value => ?_
  refine Steps.bind (Steps.when fun _ => settled_modifyHart _) fun _ => ?_
  exact Steps.when fun _ => Steps.bind (updates _ _) fun _ => settled_setCsrValue _ _

/-! ## All of them -/

/-- An instruction that accesses no memory and does not wait leaves them alone. -/
theorem settled_execute {op : Opcode.Mapping}
    (other : access op = (none : Option (Access P.clover.terms))) (awake : op ≠ .wfi) :
    Settled (execute input op) := by
  cases op with
  | sb | sh | sw | lb | lh | lw | lbu | lhu | lrW | scW => cases other
  | amoswapW | amoaddW | amoxorW | amoandW | amoorW | amominW | amominuW | amomaxW | amomaxuW =>
      cases other
  | wfi => exact absurd rfl awake
  | undefined => exact settled_raiseIllegalInstruction
  | jal => exact settled_jal
  | jalr => exact settled_jalr
  | beq | bne | blt | bge | bltu | bgeu => exact settled_branch _
  | fence | fenceI => exact Steps.pure _
  | ecall => exact settled_ecall
  | csrrw => exact settled_csrWrite fun _ => settled_getValue _ _
  | csrrwi => exact settled_csrWrite fun _ => Steps.pure _
  | csrrs =>
      exact settled_csrModify (fun _ => Steps.pure _) fun _ _ =>
        Steps.bind (settled_getValue _ _) fun _ => Steps.pure _
  | csrrc => exact settled_csrModify (fun _ => settled_getValue _ _) fun _ _ => Steps.pure _
  | csrrsi | csrrci => exact settled_csrModify (fun _ => Steps.pure _) fun _ _ => Steps.pure _
  | mul | mulh | mulhu | mulhsu => exact settled_multiply _ _ _
  | div | divu | rem | remu => exact settled_divide _ _
  | mret => exact settled_returnFromTrapHandler _
  | ebreak => exact settled_modifyHart fun hart => { hart with status := .hitBreakpoint }
  | lui | auipc => exact settled_compute _
  | slti | sltiu | slt | sltu => exact settled_comparison _ _
  | addi | xori | ori | andi | add | sub | sll | srl | sra | xor | or | and | slli | srli | srai =>
      exact settled_arithmetic _ _
  | _ => exact Steps.throw _

end SymexVP.Iss
