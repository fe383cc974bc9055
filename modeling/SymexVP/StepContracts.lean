import SymexVP.FaultOrigins
import SymexVP.Dispatch

/-!
# What a step throws

One contract for every function of the hart: the translation cache stays as empty as
it was, no function throws what the default case of the switch throws, and every trap
carries a value that fits its register. The switch is the one exception; which opcodes
reach its default case is a separate list. What is thrown behind the memory interface
only comes from the instructions that access memory, and from the fetch.
-/

namespace SymexVP.Iss

open Exec Opcode

variable {P : Platform} (input : P.clover.terms.Assignment)

/-- The opcodes without a case in the switch: the 64-bit instructions, the floating-point
instructions, the returns from supervisor and user handlers, and the fence for
translations. -/
def unimplemented : Mapping → Bool
  | .lwu | .ld | .sd | .addiw | .slliw | .srliw | .sraiw | .addw | .subw | .sllw | .srlw | .sraw
  | .mulw | .divw | .divuw | .remw | .remuw
  | .lrD | .scD | .amoswapD | .amoaddD | .amoxorD | .amoandD | .amoorD | .amominD | .amomaxD
  | .amominuD | .amomaxuD
  | .flw | .fsw | .fmaddS | .fmsubS | .fnmaddS | .fnmsubS | .faddS | .fsubS | .fmulS | .fdivS
  | .fsqrtS | .fsgnjS | .fsgnjnS | .fsgnjxS | .fminS | .fmaxS | .fcvtWS | .fcvtWuS | .fmvXW
  | .feqS | .fltS | .fleS | .fclassS | .fcvtSW | .fcvtSWu | .fmvWX
  | .fcvtLS | .fcvtLuS | .fcvtSL | .fcvtSLu
  | .fld | .fsd | .fmaddD | .fmsubD | .fnmsubD | .fnmaddD | .faddD | .fsubD | .fmulD | .fdivD
  | .fsqrtD | .fsgnjD | .fsgnjnD | .fsgnjxD | .fminD | .fmaxD | .fcvtSD | .fcvtDS | .feqD
  | .fltD | .fleD | .fclassD | .fcvtWD | .fcvtWuD | .fcvtDW | .fcvtDWu
  | .fcvtLD | .fcvtLuD | .fmvXD | .fcvtDL | .fcvtDLu | .fmvDX
  | .uret | .sret | .sfenceVma => true
  | _ => false

/-- The default case of the switch. -/
def unknownOpcode : Fault := .runtimeError "unknown opcode"

/-- The assertions on the way of an access to the memory: in `walk`, in
`translate_virtual_to_physical_addr` and in `atomic_store_word`. -/
def memoryAssertions : List String :=
  ["mem", "mode == 0 || mode == 1", "bus_lock->is_locked(iss.get_hart_id())"]

/-- What the hart itself throws. -/
def Fault.FromHart : Fault → Prop
  | .trap raised => raised.mtval < 2 ^ 32
  | .runtimeError message => message ≠ "unknown opcode"
  | .assertion text => text ∉ memoryAssertions
  | .badLexicalCast | .blocked => True
  | .stackOverflow | .deviceError => False

/-- What the cases of the switch throw: anything but what the default case throws, and traps
whose value fits its register. -/
def FromCase (P : Platform) : Fault → Prop
  | .trap raised => Fits P raised.mtval
  | other => other ≠ unknownOpcode

theorem fromCase_fromBoard {fault : Fault} (known : fault.FromBoard P) : FromCase P fault := by
  have other : fault ≠ unknownOpcode := known.ne_runtimeError (by decide) (by decide) (by decide)
  cases fault with
  | trap raised => exact known
  | _ => exact other

theorem fromCase_fromHart {fault : Fault} (known : Fault.FromHart fault) : FromCase P fault := by
  cases fault with
  | trap raised => exact Fits.of_lt known
  | runtimeError message => exact fun same => known (Fault.runtimeError.inj same)
  | _ => exact nofun

theorem fromHart_unknownPrivilegeLevel (level : PrivilegeLevel) :
    Fault.FromHart (unknownPrivilegeLevel level) := by
  intro same
  have letters := congrArg (·.toList[8]?) same
  simp at letters

theorem FromCase.ne_unknownOpcode {fault : Fault} (known : FromCase P fault) :
    fault ≠ unknownOpcode := by
  rintro rfl
  exact known rfl

/-- The translation cache of a state. -/
def NoTranslation (state : State P) : Prop := Untranslated state.board

/-- The contract of a function that may access memory. -/
abbrev IssMeets {α : Type} (returns : α → Prop) (body : IssM P α) : Prop :=
  Meets NoTranslation returns (FromCase P) body

/-- The contract of a function of the hart. -/
abbrev HartMeets {α : Type} (returns : α → Prop) (body : IssM P α) : Prop :=
  Meets NoTranslation returns Fault.FromHart body

theorem HartMeets.fromCase {α : Type} {returns : α → Prop} {body : IssM P α}
    (meets : HartMeets returns body) : IssMeets returns body :=
  Meets.mono (fun _ described => described) (fun _ => fromCase_fromHart) meets

/-! ## Building blocks -/

section AnyFaults

variable {faults : Fault → Prop}

theorem meets_getHart :
    Meets NoTranslation (fun _ => True) faults (getHart : IssM P (Hart P.clover.terms)) :=
  Meets.bind Meets.get fun _ _ => Meets.pure trivial

theorem meets_modifyHart (change : Hart P.clover.terms → Hart P.clover.terms) :
    Meets NoTranslation (fun _ => True) faults (modifyHart change : IssM P Unit) :=
  Meets.modify fun _ holds => holds

theorem meets_memory {α : Type} {body : Core → MemM P α}
    (meets : ∀ core, Meets Untranslated (fun _ => True) faults (body core)) :
    Meets NoTranslation (fun _ => True) faults (memory body) := by
  refine Meets.bind meets_getHart fun hart _ => ?_
  exact Meets.focus (meets hart.core) (fun _ => Iff.rfl) fun _ _ => rfl

end AnyFaults

/-- What is thrown behind the memory interface is not what the default case throws. -/
theorem meets_access {α : Type} {body : Core → MemM P α}
    (meets : ∀ core, BoardMeets (fun _ => True) (body core)) :
    IssMeets (fun _ => True) (memory body) :=
  meets_memory fun core =>
    Meets.mono (fun _ described => described) (fun _ => fromCase_fromBoard) (meets core)

theorem meets_raiseTrap {α : Type} {returns : α → Prop} (reason : ExceptionCode)
    (word : BitVec 32) : HartMeets returns (raiseTrap reason word.toNat : IssM P α) :=
  Meets.throw word.isLt

theorem meets_raiseIllegalInstruction {α : Type} {returns : α → Prop} :
    HartMeets returns (raiseIllegalInstruction : IssM P α) :=
  Meets.bind meets_getHart fun _ _ => meets_raiseTrap _ _

theorem meets_requireIsa (extension : BitVec 32) :
    HartMeets (fun _ => True) (requireIsa extension : IssM P Unit) :=
  Meets.bind meets_getHart fun _ _ => Meets.when fun _ => meets_raiseIllegalInstruction

theorem meets_getValue {width : Nat} (use : Use) (value : ConcolicValue P.clover.terms width) :
    HartMeets (fun _ => True) (getValue use value) :=
  Meets.bind (Meets.emit _) fun _ _ => Meets.pure trivial

theorem meets_jumpTo (target : BitVec 32) :
    HartMeets (fun _ => True) (jumpTo target : IssM P Unit) := by
  refine Meets.bind (meets_modifyHart _) fun _ _ => Meets.bind meets_getHart fun hart _ => ?_
  refine Meets.bind (Meets.require (by simp [Fault.FromHart, memoryAssertions])) fun _ _ => ?_
  exact Meets.when fun _ => meets_raiseTrap _ _

theorem meets_trackAndTraceBranch (cond : Bool) (expr : ConcolicValue P.clover.terms 1) :
    HartMeets (fun _ => True) (trackAndTraceBranch cond expr) := by
  refine Meets.bind meets_getHart fun hart _ => ?_
  split
  · exact Meets.emit _
  · exact Meets.pure trivial

theorem meets_trapCheckAddrAlignment (alignment : Nat) (isLoad : Bool)
    (addr : ConcolicValue P.clover.terms 32) :
    HartMeets (fun _ => True) (trapCheckAddrAlignment alignment isLoad addr) :=
  Meets.bind (meets_getValue _ _) fun _ _ => Meets.when fun _ => meets_raiseTrap _ _

theorem meets_releaseLrScReservation :
    HartMeets (fun _ => True) (releaseLrScReservation : IssM P Unit) :=
  Meets.bind (meets_modifyHart _) fun _ _ => meets_memory fun _ => Board.meets_unlock _

/-! ## Instructions -/

theorem meets_compute (value : Hart P.clover.terms → Concolic P.clover.terms) :
    HartMeets (fun _ => True) (compute value : IssM P Unit) := meets_modifyHart _

theorem meets_arithmetic (operation : BinaryOp)
    (operand : Hart P.clover.terms → ConcolicValue P.clover.terms 32) :
    HartMeets (fun _ => True) (arithmetic operation operand : IssM P Unit) := meets_compute _

theorem meets_comparison (operation : CompareOp)
    (operand : Hart P.clover.terms → ConcolicValue P.clover.terms 32) :
    HartMeets (fun _ => True) (comparison operation operand : IssM P Unit) := meets_compute _

theorem meets_jal : HartMeets (fun _ => True) (jal : IssM P Unit) :=
  Meets.bind meets_getHart fun _ _ => Meets.bind (meets_jumpTo _) fun _ _ => meets_modifyHart _

theorem meets_jalr : HartMeets (fun _ => True) (jalr : IssM P Unit) := by
  refine Meets.bind meets_getHart fun hart _ => Meets.bind (meets_getValue _ _) fun rs1 _ => ?_
  exact Meets.bind (meets_jumpTo _) fun _ _ => meets_modifyHart _

theorem meets_branch (operation : CompareOp) :
    HartMeets (fun _ => True) (branch operation : IssM P Unit) := by
  refine Meets.bind meets_getHart fun hart _ => ?_
  refine Meets.bind (Meets.when fun _ => meets_jumpTo _) fun _ _ => ?_
  exact meets_trackAndTraceBranch _ _

section Accesses

variable {check : ConcolicValue P.clover.terms 32 → IssM P Unit}
  (checked : ∀ addr, IssMeets (fun _ => True) (check addr)) (numBytes : Nat)

include checked

theorem meets_store : IssMeets (fun _ => True) (store input check numBytes) := by
  refine Meets.bind meets_getHart fun hart _ => Meets.bind (checked _) fun _ _ => ?_
  exact meets_access fun core => meets_storeBytes (known_bus core input) core _ _ _

theorem meets_load : IssMeets (fun _ => True) (load input check numBytes) := by
  refine Meets.bind meets_getHart fun hart _ => Meets.bind (checked _) fun _ _ => ?_
  refine Meets.bind (meets_access fun core => ?_) fun _ _ => meets_modifyHart _
  exact meets_loadSigned (known_bus core input) core _ _

theorem meets_loadUnsigned' : IssMeets (fun _ => True) (loadUnsigned input check numBytes) := by
  refine Meets.bind meets_getHart fun hart _ => Meets.bind (checked _) fun _ _ => ?_
  refine Meets.bind (meets_access fun core => ?_) fun _ _ => meets_modifyHart _
  exact meets_loadUnsigned (known_bus core input) core _ _

end Accesses

theorem meets_ecall : HartMeets (fun _ => True) (ecall : IssM P Unit) := by
  refine Meets.bind meets_getHart fun hart _ => ?_
  refine Meets.ite (fun _ => meets_raiseTrap _ _) fun _ => ?_
  refine Meets.ite (fun _ => meets_raiseTrap _ _) fun _ => ?_
  refine Meets.ite (fun _ => meets_raiseTrap _ _) fun _ => ?_
  exact Meets.throw (fromHart_unknownPrivilegeLevel _)

theorem meets_ebreak : HartMeets (fun _ => True) (ebreak : IssM P Unit) := meets_modifyHart _

theorem meets_isInvalidCsrAccess (address : BitVec 32) (isWrite : Bool) :
    HartMeets (fun _ => True) (isInvalidCsrAccess address isWrite : IssM P Bool) := by
  refine Meets.bind (Meets.when fun _ => meets_requireIsa _) fun _ _ => ?_
  exact Meets.bind meets_getHart fun _ _ => Meets.pure trivial

theorem meets_updateTime : HartMeets (fun _ => True) (updateTime : IssM P (BitVec 64)) := by
  refine Meets.bind (meets_memory fun _ => ?_) fun _ _ => ?_
  · refine Meets.bind Meets.get fun _ _ => ?_
    exact Meets.bind (Meets.modify fun _ holds => holds) fun _ _ => Meets.pure trivial
  · exact Meets.bind (meets_modifyHart _) fun _ _ => Meets.pure trivial

theorem meets_computeAndGetCurrentCycles :
    HartMeets (fun _ => True) (computeAndGetCurrentCycles : IssM P (BitVec 64)) := by
  refine Meets.bind meets_getHart fun hart _ => ?_
  refine Meets.bind (Meets.require (by simp [Fault.FromHart, memoryAssertions])) fun _ _ => ?_
  exact Meets.pure trivial

theorem meets_updateCycle : HartMeets (fun _ => True) (updateCycle : IssM P (BitVec 64)) := by
  refine Meets.bind meets_computeAndGetCurrentCycles fun _ _ => ?_
  exact Meets.bind (meets_modifyHart _) fun _ _ => Meets.pure trivial

theorem meets_readCsr (name : CsrName) :
    HartMeets (fun _ => True) (readCsr name : IssM P (BitVec 32)) := by
  refine Meets.bind Meets.get fun state _ => ?_
  cases name with
  | time | mtime | timeh | mtimeh =>
      exact Meets.bind meets_updateTime fun _ _ => Meets.pure trivial
  | mcycle | mcycleh => exact Meets.bind meets_updateCycle fun _ _ => Meets.pure trivial
  | satp => exact Meets.ite (fun _ => meets_raiseIllegalInstruction) fun _ => Meets.pure trivial
  | _ => exact Meets.pure trivial

theorem meets_validateCsrCounterReadAccessRights (address : BitVec 32) :
    HartMeets (fun _ => True) (validateCsrCounterReadAccessRights address : IssM P Unit) := by
  refine Meets.bind meets_getHart fun hart _ => ?_
  refine Meets.ite (fun _ => ?_) fun _ => Meets.pure trivial
  refine Meets.ite (fun _ => meets_raiseIllegalInstruction) fun _ => ?_
  exact Meets.ite (fun _ => meets_raiseIllegalInstruction) fun _ => Meets.pure trivial

theorem meets_getCsrValue (address : BitVec 32) :
    HartMeets (fun _ => True) (getCsrValue address : IssM P (BitVec 32)) := by
  refine Meets.bind (meets_validateCsrCounterReadAccessRights _) fun _ _ => ?_
  refine Meets.ite (fun _ => Meets.pure trivial) fun _ => ?_
  split
  · exact meets_readCsr _
  · exact meets_raiseIllegalInstruction

theorem meets_writeCsr (name : CsrName) (value : BitVec 32) :
    HartMeets (fun _ => True) (writeCsr name value : IssM P Unit) := by
  refine Meets.bind meets_getHart fun hart _ => ?_
  cases name with
  | satp => exact Meets.ite (fun _ => meets_raiseIllegalInstruction) fun _ => meets_modifyHart _
  | mip | sip | uip => exact meets_memory fun _ => Meets.modify fun _ holds => holds
  | _ => first | exact Meets.pure trivial | exact meets_modifyHart _

theorem meets_setCsrValue (address value : BitVec 32) :
    HartMeets (fun _ => True) (setCsrValue address value : IssM P Unit) := by
  refine Meets.ite (fun _ => Meets.pure trivial) fun _ => ?_
  split
  · exact meets_writeCsr _ _
  · exact meets_raiseIllegalInstruction

theorem meets_csrWrite {source : Hart P.clover.terms → IssM P (BitVec 32)}
    (known : ∀ hart, HartMeets (fun _ => True) (source hart)) :
    HartMeets (fun _ => True) (csrWrite source) := by
  refine Meets.bind meets_getHart fun hart _ => ?_
  refine Meets.bind (meets_isInvalidCsrAccess _ _) fun invalid _ => ?_
  refine Meets.ite (fun _ => meets_raiseIllegalInstruction) fun _ => ?_
  refine Meets.bind (Meets.when fun _ => ?_) fun _ _ => ?_
  · exact Meets.bind (meets_getCsrValue _) fun _ _ => meets_modifyHart _
  · exact Meets.bind (known hart) fun _ _ => meets_setCsrValue _ _

theorem meets_csrModify {α : Type} {writes : Hart P.clover.terms → Bool}
    {prepare : Hart P.clover.terms → IssM P α} {update : α → BitVec 32 → IssM P (BitVec 32)}
    (before : ∀ hart, HartMeets (fun _ => True) (prepare hart))
    (after : ∀ operand csrVal, HartMeets (fun _ => True) (update operand csrVal)) :
    HartMeets (fun _ => True) (csrModify writes prepare update) := by
  refine Meets.bind meets_getHart fun hart _ => ?_
  refine Meets.bind (meets_isInvalidCsrAccess _ _) fun invalid _ => ?_
  refine Meets.ite (fun _ => meets_raiseIllegalInstruction) fun _ => ?_
  refine Meets.bind (before hart) fun operand _ => Meets.bind (meets_getCsrValue _) fun csrVal _ => ?_
  refine Meets.bind (Meets.when fun _ => meets_modifyHart _) fun _ _ => Meets.when fun _ => ?_
  exact Meets.bind (after operand csrVal) fun _ _ => meets_setCsrValue _ _

theorem meets_csrrs : HartMeets (fun _ => True) (csrrs : IssM P Unit) :=
  meets_csrModify (fun _ => Meets.pure trivial) fun _ _ =>
    Meets.bind (meets_getValue _ _) fun _ _ => Meets.pure trivial

theorem meets_wfi : HartMeets (fun _ => True) (wfi : IssM P Unit) := by
  refine Meets.bind meets_releaseLrScReservation fun _ _ => Meets.bind Meets.get fun state _ => ?_
  refine Meets.ite (fun _ => meets_raiseIllegalInstruction) fun _ => ?_
  refine Meets.ite (fun _ => meets_raiseIllegalInstruction) fun _ => ?_
  refine Meets.ite (fun _ => meets_memory fun _ => Board.meets_waitFor trivial _) fun _ => ?_
  exact Meets.pure trivial

theorem meets_returnFromTrapHandler (returnMode : PrivilegeLevel) :
    HartMeets (fun _ => True) (returnFromTrapHandler returnMode : IssM P Unit) := by
  refine Meets.ite (fun _ => meets_modifyHart _) fun _ => ?_
  refine Meets.ite (fun _ => meets_modifyHart _) fun _ => ?_
  refine Meets.ite (fun _ => meets_modifyHart _) fun _ => ?_
  exact Meets.throw (fromHart_unknownPrivilegeLevel _)

theorem meets_multiply
    (extend₁ extend₂ : ConcolicValue P.clover.terms 32 → ConcolicValue P.clover.terms 64)
    (offset : Nat) : HartMeets (fun _ => True) (multiply extend₁ extend₂ offset : IssM P Unit) :=
  Meets.bind (meets_requireIsa _) fun _ _ => meets_modifyHart _

theorem meets_divide (onZero : Hart P.clover.terms → Hart P.clover.terms)
    (result : Hart P.clover.terms → ConcolicValue P.clover.terms 32) :
    HartMeets (fun _ => True) (divide onZero result) := by
  refine Meets.bind (meets_requireIsa _) fun _ _ => Meets.bind meets_getHart fun hart _ => ?_
  refine Meets.bind (Meets.ite (fun _ => meets_modifyHart _) fun _ => meets_modifyHart _)
    fun _ _ => ?_
  exact meets_trackAndTraceBranch _ _

theorem meets_lrW : IssMeets (fun _ => True) (lrW input) := by
  refine Meets.bind (meets_requireIsa _).fromCase fun _ _ => Meets.bind meets_getHart fun hart _ => ?_
  refine Meets.bind (meets_trapCheckAddrAlignment _ _ _).fromCase fun _ _ => ?_
  refine Meets.bind (meets_access fun core => ?_) fun value _ => ?_
  · exact meets_atomicLoadReservedWord (known_bus core input) core _ _
  · exact Meets.bind (meets_modifyHart _) fun _ _ => meets_modifyHart _

theorem meets_scW : IssMeets (fun _ => True) (scW input) := by
  refine Meets.bind (meets_requireIsa _).fromCase fun _ _ => Meets.bind meets_getHart fun hart _ => ?_
  refine Meets.bind (meets_trapCheckAddrAlignment _ _ _).fromCase fun _ _ => ?_
  refine Meets.bind (meets_modifyHart _) fun _ _ => ?_
  refine Meets.bind (meets_access fun core => ?_) fun stored _ => ?_
  · exact meets_atomicStoreConditionalWord (known_bus core input) core _ _ _
  · exact Meets.bind (meets_modifyHart _) fun _ _ => meets_modifyHart _

theorem meets_executeAmo (operation : ConcolicValue P.clover.terms 32 →
    ConcolicValue P.clover.terms 32 → ConcolicValue P.clover.terms 32) :
    IssMeets (fun _ => True) (executeAmo input operation) := by
  refine Meets.bind (meets_requireIsa _).fromCase fun _ _ => Meets.bind meets_getHart fun hart _ => ?_
  refine Meets.bind (meets_trapCheckAddrAlignment _ _ _).fromCase fun _ _ => ?_
  refine Meets.bind (Meets.tryCatch (meets_access fun core => ?_) fun fault known => ?_)
    fun data _ => ?_
  · exact meets_atomicLoadWord (known_bus core input) core _
  · split
    · exact Meets.throw known
    · exact Meets.throw known
  · refine Meets.bind (meets_access fun core => ?_) fun _ _ => meets_modifyHart _
    exact meets_atomicStoreWord (known_bus core input) core _ _

/-- An instruction that does not access memory only throws what the hart throws. -/
theorem meets_execute_plain {op : Mapping} (implemented : unimplemented op = false)
    (plain : (access op : Option (Access P.clover.terms)) = none) :
    HartMeets (fun _ => True) (execute input op) := by
  cases op with
  | undefined => exact meets_raiseIllegalInstruction
  | jal => exact meets_jal
  | jalr => exact meets_jalr
  | beq | bne | blt | bge | bltu | bgeu => exact meets_branch _
  | fence | fenceI => exact Meets.pure trivial
  | ecall => exact meets_ecall
  | csrrw => exact meets_csrWrite fun _ => meets_getValue _ _
  | csrrwi => exact meets_csrWrite fun _ => Meets.pure trivial
  | csrrs => exact meets_csrrs
  | csrrc =>
      exact meets_csrModify (fun _ => meets_getValue _ _) fun _ _ => Meets.pure trivial
  | csrrsi | csrrci =>
      exact meets_csrModify (fun _ => Meets.pure trivial) fun _ _ => Meets.pure trivial
  | mul | mulh | mulhu | mulhsu => exact meets_multiply _ _ _
  | div | divu | rem | remu => exact meets_divide _ _
  | wfi => exact meets_wfi
  | mret => exact meets_returnFromTrapHandler _
  | ebreak => exact meets_ebreak
  | lui | auipc => exact meets_compute _
  | slti | sltiu | slt | sltu => exact meets_comparison _ _
  | addi | xori | ori | andi | add | sub | sll | srl | sra | xor | or | and | slli | srli | srai =>
      exact meets_arithmetic _ _
  | _ => first | exact absurd implemented Bool.noConfusion | cases plain

/-- An opcode with a case never reaches the default one. -/
theorem meets_execute {op : Mapping} (implemented : unimplemented op = false) :
    IssMeets (fun _ => True) (execute input op) := by
  have unchecked : ∀ addr, IssMeets (fun _ => True) (Iss.unchecked addr : IssM P Unit) :=
    fun _ => Meets.pure trivial
  have checked : ∀ alignment isLoad addr,
      IssMeets (fun _ => True) (trapCheckAddrAlignment alignment isLoad addr : IssM P Unit) :=
    fun _ _ _ => (meets_trapCheckAddrAlignment _ _ _).fromCase
  cases op with
  | sb => exact meets_store input unchecked 1
  | sh | sw => exact meets_store input (checked _ _) _
  | lb => exact meets_load input unchecked 1
  | lh | lw => exact meets_load input (checked _ _) _
  | lbu => exact meets_loadUnsigned' input unchecked 1
  | lhu => exact meets_loadUnsigned' input (checked _ _) _
  | lrW => exact meets_lrW input
  | scW => exact meets_scW input
  | amoswapW => exact meets_executeAmo input fun _ b => b
  | amoaddW | amoxorW | amoandW | amoorW | amominW | amominuW | amomaxW | amomaxuW =>
      exact meets_executeAmo input _
  | _ => exact (meets_execute_plain input implemented rfl).fromCase

/-- An opcode without a case reaches the default one. -/
theorem execute_of_unimplemented {op : Mapping} (missing : unimplemented op = true) :
    execute input op = (Exec.throw unknownOpcode : IssM P Unit) := by
  cases op <;> first | rfl | cases missing

/-! ## Steps -/

/-- What a whole step throws: the fault of a case, or that of the default case. -/
def FromSwitch (P : Platform) (fault : Fault) : Prop := FromCase P fault ∨ fault = unknownOpcode

theorem meets_execute_of_any (op : Mapping) :
    Meets NoTranslation (fun _ => True) (FromSwitch P) (execute input op) := by
  by_cases missing : unimplemented op = true
  · rw [execute_of_unimplemented input missing]
    exact Meets.throw (.inr rfl)
  · refine Meets.mono (fun _ described => described) (fun _ => Or.inl) ?_
    exact meets_execute input (Bool.eq_false_of_not_eq_true missing)

theorem meets_fetch : IssMeets (fun _ => True) (fetch input) := by
  have loaded : IssMeets (fun _ => True) (do
      let hart ← getHart
      let memWord ← memory fun core => MemoryInterface.loadInstr (bus core input) core hart.pc
      modifyHart fun hart => { hart with instr := memWord } : IssM P Unit) := by
    refine Meets.bind meets_getHart fun hart _ => ?_
    refine Meets.bind (meets_access fun core => ?_) fun _ _ => meets_modifyHart _
    exact meets_loadInstr (known_bus core input) core _
  refine Meets.bind meets_getHart fun hart _ => ?_
  refine Meets.bind (Meets.require (by simp [FromCase, unknownOpcode])) fun _ _ => ?_
  refine Meets.tryCatch loaded fun fault known => ?_
  split
  · exact Meets.bind (meets_modifyHart _) fun _ _ => Meets.throw known
  · exact Meets.throw known

theorem meets_decode : HartMeets (fun _ => True) (decode : IssM P Unit) := by
  intro state holds
  rw [decode_run]
  refine ⟨holds, fun _ _ => trivial, ?_⟩
  rintro fault ⟨⟩

theorem meets_execStep :
    Meets NoTranslation (fun _ => True) (FromSwitch P) (execStep input) := by
  have weaken : ∀ {α : Type} {body : IssM P α}, IssMeets (fun _ => True) body →
      Meets NoTranslation (fun _ => True) (FromSwitch P) body :=
    Meets.mono (fun _ described => described) fun _ => Or.inl
  refine Meets.bind (weaken (meets_fetch input)) fun _ _ => ?_
  refine Meets.bind (weaken meets_decode.fromCase) fun _ _ => ?_
  refine Meets.bind meets_getHart fun decoded _ => ?_
  exact meets_execute_of_any input decoded.op

/-- With an opcode that has a case, no step reaches the default one. -/
theorem fromCase_of_execStep {state : State P} (empty : NoTranslation state)
    {word : Instruction} (fetched : FetchReturns input state word)
    (implemented : unimplemented (decodedOpcode word) = false) {fault : Fault}
    (thrown : ((execStep input).run state).result = .error fault) : FromCase P fault := by
  have still : NoTranslation (decodedState input state word) := (meets_fetch input state empty).1
  rw [execStep_run input fetched] at thrown
  exact (meets_execute input implemented _ still).2.2 fault thrown

/-- The value of a raised trap fits its register. -/
theorem fits_of_raised {state : State P} (empty : NoTranslation state) {raised : SimulationTrap}
    (trapped : ((execStep input).run state).result = .error (.trap raised)) :
    Fits P raised.mtval := by
  obtain ⟨-, -, thrown⟩ := meets_execStep input state empty
  obtain known | same := thrown _ trapped
  · exact known
  · cases same

/-! ## Traps and interrupts -/

theorem meets_lexicalCast (number : Nat) :
    HartMeets (fun _ => True) (lexicalCast number : IssM P (BitVec 32)) :=
  Meets.bind (Meets.require trivial) fun _ _ => Meets.pure trivial

theorem meets_prepareTrap (trap : SimulationTrap) :
    HartMeets (fun _ => True) (prepareTrap trap : IssM P PrivilegeLevel) := by
  refine Meets.bind (meets_modifyHart _) fun _ _ => Meets.bind meets_getHart fun hart _ => ?_
  refine Meets.ite (fun _ => ?_) fun _ => Meets.ite (fun _ => ?_) fun _ =>
    Meets.bind (Meets.require (by simp [Fault.FromHart, memoryAssertions])) fun _ _ => ?_
  all_goals
    refine Meets.bind (meets_modifyHart _) fun _ _ => ?_
    refine Meets.bind (meets_lexicalCast _) fun _ _ => ?_
    exact Meets.bind (meets_modifyHart _) fun _ _ => Meets.pure trivial

theorem meets_prepareInterrupt (interrupts : PendingInterrupts) :
    HartMeets (fun _ => True) (prepareInterrupt interrupts : IssM P Unit) := by
  unfold prepareInterrupt
  split
  · exact Meets.throw (by simp [Fault.FromHart])
  · refine Meets.ite (fun _ => meets_modifyHart _) fun _ => ?_
    refine Meets.ite (fun _ => meets_modifyHart _) fun _ => ?_
    exact Meets.ite (fun _ => meets_modifyHart _) fun _ =>
      Meets.throw (fromHart_unknownPrivilegeLevel _)

theorem meets_switchToTrapHandler (targetMode : PrivilegeLevel) :
    HartMeets (fun _ => True) (switchToTrapHandler targetMode : IssM P Unit) := by
  refine Meets.bind meets_releaseLrScReservation fun _ _ => ?_
  refine Meets.bind meets_getHart fun before _ => Meets.bind (meets_modifyHart _) fun _ _ => ?_
  refine Meets.ite (fun _ => meets_modifyHart _) fun _ => ?_
  refine Meets.ite (fun _ => meets_modifyHart _) fun _ => ?_
  exact Meets.ite (fun _ => meets_modifyHart _) fun _ =>
    Meets.throw (fromHart_unknownPrivilegeLevel _)

/-- What follows the execution of an instruction in `run_step`. -/
theorem meets_interrupt : HartMeets (fun _ => True) (do
    let state ← Exec.get
    let pending := computePendingInterrupts state
    if pending.targetMode ≠ noneMode then do
      prepareInterrupt pending
      Exec.emit (.interrupt pending.targetMode)
      switchToTrapHandler pending.targetMode
      pure (.interrupt pending.targetMode)
    else pure .nothing : IssM P Taken) := by
  refine Meets.bind Meets.get fun state _ => Meets.ite (fun _ => ?_) fun _ => Meets.pure trivial
  refine Meets.bind (meets_prepareInterrupt _) fun _ _ => Meets.bind (Meets.emit _) fun _ _ => ?_
  exact Meets.bind (meets_switchToTrapHandler _) fun _ _ => Meets.pure trivial

theorem meets_handleTrap (trap : SimulationTrap) :
    HartMeets (fun _ => True) (handleFault (.trap trap) : IssM P Taken) := by
  refine Meets.bind (meets_prepareTrap _) fun targetMode _ => ?_
  exact Meets.bind (meets_switchToTrapHandler _) fun _ _ => Meets.pure trivial

theorem meets_finishStep : HartMeets (fun _ => True) (finishStep : IssM P Unit) := by
  have timed : ∀ time : Nat, ∀ synced : Hart P.clover.terms, HartMeets (fun _ => True)
      (memory fun _ => do
        Board.inc time
        let board ← Exec.get
        Exec.when (P.world.needSync board.world board.localTime ∧ synced.lrScCounter = 0)
          Board.synchronise : IssM P Unit) := by
    refine fun time synced => meets_memory fun _ => ?_
    refine Meets.bind (Meets.modify fun _ holds => holds) fun _ _ => ?_
    refine Meets.bind Meets.get fun board _ => Meets.when fun _ => ?_
    exact Meets.modify fun _ holds => holds
  refine Meets.bind (meets_modifyHart _) fun _ _ => Meets.bind Meets.get fun state _ => ?_
  refine Meets.bind (Meets.when fun _ => meets_modifyHart _) fun _ _ => ?_
  refine Meets.bind meets_getHart fun hart _ => Meets.bind (meets_modifyHart _) fun _ _ => ?_
  refine Meets.bind meets_getHart fun counting _ => Meets.bind (Meets.when fun _ => ?_) fun _ _ => ?_
  · refine Meets.bind (meets_modifyHart _) fun _ _ => Meets.bind meets_getHart fun counted _ => ?_
    refine Meets.bind (Meets.require (by simp [Fault.FromHart, memoryAssertions])) fun _ _ => ?_
    exact Meets.when fun _ => meets_releaseLrScReservation
  · refine Meets.bind (meets_modifyHart _) fun _ _ => Meets.bind meets_getHart fun synced _ => ?_
    exact timed _ synced

/-! ## Whole runs

Between two steps the translation cache is empty. What a step throws apart from a trap ends
the run, so that nothing is said about it here. -/

/-- The computation keeps the translation cache empty. -/
abbrev KeepsEmpty {α : Type} (body : IssM P α) : Prop :=
  Meets NoTranslation (fun _ => True) (fun _ => True) body

theorem HartMeets.keepsEmpty {α : Type} {body : IssM P α} (meets : HartMeets (fun _ => True) body) :
    KeepsEmpty body := Meets.mono (fun _ _ => trivial) (fun _ _ => trivial) meets

theorem keepsEmpty_stepAndInterrupt : KeepsEmpty (stepAndInterrupt input) := by
  have executed : KeepsEmpty (execStep input) :=
    Meets.mono (fun _ _ => trivial) (fun _ _ => trivial) (meets_execStep input)
  exact Meets.bind executed fun _ _ => meets_interrupt.keepsEmpty

theorem keepsEmpty_handleFault (fault : Fault) : KeepsEmpty (handleFault fault : IssM P Taken) := by
  cases fault with
  | trap trap => exact (meets_handleTrap trap).keepsEmpty
  | _ => exact Meets.throw trivial

theorem keepsEmpty_runStep : KeepsEmpty (runStep input) := by
  have guarded : KeepsEmpty (Exec.tryCatch (stepAndInterrupt input) handleFault) :=
    Meets.tryCatch (keepsEmpty_stepAndInterrupt input) fun fault _ => keepsEmpty_handleFault fault
  refine Meets.bind meets_getHart fun hart _ => ?_
  refine Meets.bind (Meets.require trivial) fun _ _ => Meets.ite (fun _ => ?_) fun _ => ?_
  · exact Meets.bind (meets_modifyHart _) fun _ _ => Meets.pure trivial
  · refine Meets.bind (meets_modifyHart _) fun _ _ => Meets.bind guarded fun taken _ => ?_
    exact Meets.bind meets_finishStep.keepsEmpty fun _ _ => Meets.pure trivial

/-- No reachable state has a translation in its cache. -/
theorem noTranslation_of_reachable {state : State P} (reachable : Reachable input state) :
    NoTranslation state := by
  obtain ⟨start, reset, reached⟩ := reachable
  refine Reaches.invariant ?_ (fun before _ holds _ => (keepsEmpty_runStep input before holds).1)
    reached
  cases reset
  exact fun _ _ _ _ => rfl

end SymexVP.Iss
