import SymexVP.ReplayedMemory
import SymexVP.StepAssertions

/-!
# The hart in two runs

The second run follows the first one: its hart is that of the first run, with the registers
evaluated under the second assignment. What the hart does besides computing with registers
sees the same values in both runs, since a value with a symbolic part is never used there.
What it computes is the value of the first run evaluated. The one place where the two runs
could part is a test of a value with a symbolic part, and there the test is recorded.
-/

namespace SymexVP

variable {terms : Terms}

/-- The second pointer leads to the object of the first one, with its value evaluated. -/
structure RegValue.Replays (other : terms.Assignment) (reg reg' : RegValue terms) : Prop where
  object : reg'.object = reg.object
  value : ConcolicValue.Replays other reg.value reg'.value

/-- The second hart is the first one, with its registers evaluated. -/
inductive Hart.Replays (other : terms.Assignment) : Hart terms → Hart terms → Prop
  | intro {hart : Hart terms} {regs : BitVec 5 → RegValue terms}
      (registers : ∀ index, RegValue.Replays other (hart.regs index) (regs index)) :
      Hart.Replays other hart { hart with regs := regs }

variable {P : Platform} {other : P.clover.terms.Assignment}

/-- The second state is the first one evaluated, and `kept` holds of the program counter of the
instruction that is executed. -/
inductive State.Replays (other : P.clover.terms.Assignment) (kept : BitVec 32 → Prop) :
    State P → State P → Prop
  | intro {hart hart' : Hart P.clover.terms} {board board' : Board P}
      (harts : Hart.Replays other hart hart') (boards : Board.Replays other board board')
      (last : kept hart.lastPc) : State.Replays other kept ⟨hart, board⟩ ⟨hart', board'⟩

namespace Hart.Replays

variable {hart hart' : Hart P.clover.terms} {index : BitVec 5}

theorem update {regs regs' : BitVec 5 → RegValue P.clover.terms}
    (registers : ∀ index, RegValue.Replays other (regs index) (regs' index))
    {value value' : RegValue P.clover.terms} (assigned : RegValue.Replays other value value')
    (register : BitVec 5) :
    RegValue.Replays other (Function.update regs index value register)
      (Function.update regs' index value' register) := by
  by_cases same : register = index
  · subst same
    rwa [Function.update_self, Function.update_self]
  · rw [Function.update_of_ne same, Function.update_of_ne same]
    exact registers register

theorem assign (replays : Hart.Replays other hart hart')
    {value value' : RegValue P.clover.terms} (assigned : RegValue.Replays other value value') :
    Hart.Replays other (hart.assign index value) (hart'.assign index value') := by
  obtain ⟨registers⟩ := replays
  exact .intro (update registers assigned)

theorem assignNew (replays : Hart.Replays other hart hart')
    {value value' : ConcolicValue P.clover.terms 32}
    (assigned : ConcolicValue.Replays other value value') :
    Hart.Replays other (hart.assignNew index value) (hart'.assignNew index value') := by
  obtain ⟨registers⟩ := replays
  have pointed : RegValue.Replays other ⟨hart.nextObject, value⟩ ⟨hart.nextObject, value'⟩ :=
    ⟨rfl, assigned⟩
  exact .intro (update registers pointed)

theorem write (lawful : P.clover.Lawful) (replays : Hart.Replays other hart hart')
    {data data' : Concolic P.clover.terms} (written : Concolic.Replays other data data') :
    Hart.Replays other (hart.write index data) (hart'.write index data') := by
  obtain ⟨same⟩ := written
  rename_i width value value'
  unfold Hart.write
  by_cases narrow : width < 32
  · rw [if_pos narrow, if_pos narrow]
    exact replays.assignNew ((lawful.zext _ 32).replays same)
  rw [if_neg narrow, if_neg narrow]
  by_cases wide : width = 32
  · subst wide
    exact replays.assignNew same
  · rw [dif_neg wide, dif_neg wide]
    exact replays

theorem rs1Value (replays : Hart.Replays other hart hart') :
    ConcolicValue.Replays other hart.rs1Value hart'.rs1Value := by
  obtain ⟨registers⟩ := replays
  exact (registers _).value

theorem rs2Value (replays : Hart.Replays other hart hart') :
    ConcolicValue.Replays other hart.rs2Value hart'.rs2Value := by
  obtain ⟨registers⟩ := replays
  exact (registers _).value

theorem rs2Shamt (lawful : P.clover.Lawful) (replays : Hart.Replays other hart hart') :
    ConcolicValue.Replays other hart.rs2Shamt hart'.rs2Shamt :=
  (lawful.zext 5 32).replays ((lawful.extract 32 0 5).replays replays.rs2Value)

theorem iImm (lawful : P.clover.Lawful) (replays : Hart.Replays other hart hart') :
    ConcolicValue.Replays other hart.iImm hart'.iImm := by
  obtain ⟨registers⟩ := replays
  exact (lawful.sext 32 32).replays (.BVC _)

theorem sImm (lawful : P.clover.Lawful) (replays : Hart.Replays other hart hart') :
    ConcolicValue.Replays other hart.sImm hart'.sImm := by
  obtain ⟨registers⟩ := replays
  exact (lawful.sext 32 32).replays (.BVC _)

theorem uImm (replays : Hart.Replays other hart hart') :
    ConcolicValue.Replays other hart.uImm hart'.uImm := by
  obtain ⟨registers⟩ := replays
  exact .BVC _

theorem shamt (replays : Hart.Replays other hart hart') :
    ConcolicValue.Replays other hart.shamt hart'.shamt := by
  obtain ⟨registers⟩ := replays
  exact .BVC _

end Hart.Replays

namespace Iss

open Exec Opcode MemoryInterface

/-- The second computation of the hart follows the first one. -/
abbrev Follows (other : P.clover.terms.Assignment) (kept : BitVec 32 → Prop) {α β : Type}
    (values : α → β → Prop) (first : IssM P α) (second : IssM P β) : Prop :=
  Sim (State.Replays other kept) (Event.Replayable other) values first second

variable {kept : BitVec 32 → Prop} {α β : Type} {values : α → β → Prop}

/-! ## Rules -/

theorem follows_getHart {next : Hart P.clover.terms → IssM P α}
    {next' : Hart P.clover.terms → IssM P β}
    (rest : ∀ hart hart', Hart.Replays other hart hart' →
      Follows other kept values (next hart) (next' hart')) :
    Follows other kept values (getHart >>= next) (getHart >>= next') := by
  rintro _ _ ⟨harts, boards, last⟩ accepted
  exact rest _ _ harts _ _ ⟨harts, boards, last⟩ accepted

theorem follows_getState {next : State P → IssM P α} {next' : State P → IssM P β}
    (rest : ∀ hart hart' board board', Hart.Replays other hart hart' →
      Board.Replays other board board' →
      Follows other kept values (next ⟨hart, board⟩) (next' ⟨hart', board'⟩)) :
    Follows other kept values (Exec.get >>= next) (Exec.get >>= next') :=
  Sim.get_bind fun _ _ ⟨harts, boards, _⟩ => rest _ _ _ _ harts boards

theorem follows_modifyHart {change change' : Hart P.clover.terms → Hart P.clover.terms}
    (changes : ∀ hart hart', Hart.Replays other hart hart' →
      Hart.Replays other (change hart) (change' hart'))
    (last : ∀ hart, (change hart).lastPc = hart.lastPc) :
    Follows other kept (fun _ _ => True) (modifyHart change) (modifyHart change') := by
  refine Sim.modify ?_
  rintro _ _ ⟨harts, boards, holds⟩
  exact ⟨changes _ _ harts, boards, by rwa [last]⟩

/-- The registers are no control and status registers. -/
theorem follows_modifyCsrs (change : CsrTable → CsrTable) :
    Follows other kept (fun _ _ => True) (modifyCsrs change) (modifyCsrs change) :=
  follows_modifyHart (fun _ _ ⟨registers⟩ => .intro registers) fun _ => rfl

/-- The memory interface sees nothing of the hart that differs between the runs. -/
theorem follows_memory {body : Core → MemM P α} {body' : Core → MemM P β}
    (follows : ∀ core, Board.Follows other values (body core) (body' core)) :
    Follows other kept values (memory body) (memory body') := by
  refine follows_getHart fun hart _ ⟨registers⟩ => ?_
  rintro _ _ ⟨harts, boards, last⟩ accepted
  obtain ⟨logs, after, results⟩ := follows hart.core _ _ boards accepted
  exact ⟨logs, ⟨harts, after, last⟩, results⟩

/-- A value that is used for its concrete part has no other. -/
theorem follows_getValue {width : Nat} {use : Use} (dropped : use ≠ .pageTable)
    {value value' : ConcolicValue P.clover.terms width}
    (replays : ConcolicValue.Replays other value value') :
    Follows other kept Eq (getValue use value) (getValue use value') := by
  unfold getValue
  rw [replays.isSymbolic]
  refine Sim.bind (Sim.emit _) fun _ _ accepted => Sim.pure ?_
  exact (replays.concrete_eq (Event.not_symbolic accepted.plain dropped)).symm

theorem lastPc_write (hart : Hart P.clover.terms) (index : BitVec 5)
    (data : Concolic P.clover.terms) : (hart.write index data).lastPc = hart.lastPc :=
  congrArg Checked.lastPc (checked_write hart index data)

theorem follows_write (lawful : P.clover.Lawful) {index : BitVec 5}
    {data data' : Concolic P.clover.terms} (written : Concolic.Replays other data data') :
    Follows other kept Board.Done (modifyHart fun hart => hart.write index data)
      (modifyHart fun hart => hart.write index data') :=
  follows_modifyHart (fun _ _ replays => replays.write lawful written) fun hart =>
    lastPc_write hart _ _

/-! ## What does not depend on the registers -/

theorem follows_raiseIllegalInstruction :
    Follows other kept values raiseIllegalInstruction raiseIllegalInstruction :=
  follows_getHart fun _ _ ⟨_⟩ => Sim.throw _

theorem follows_requireIsa (extension : BitVec 32) :
    Follows other kept Board.Done (requireIsa extension) (requireIsa extension) :=
  follows_getHart fun _ _ ⟨_⟩ => Sim.when Iff.rfl fun _ => follows_raiseIllegalInstruction

theorem follows_trapCheckPcAlignment :
    Follows other kept Board.Done trapCheckPcAlignment trapCheckPcAlignment := by
  refine follows_getHart fun hart _ ⟨_⟩ => Sim.bind (Sim.require Iff.rfl _) fun _ _ _ => ?_
  exact Sim.when Iff.rfl fun _ => Sim.throw _

theorem follows_jumpTo (target : BitVec 32) :
    Follows other kept Board.Done (jumpTo target) (jumpTo target) :=
  Sim.bind (follows_modifyHart (fun _ _ ⟨registers⟩ => .intro registers) fun _ => rfl)
    fun _ _ _ => follows_trapCheckPcAlignment

theorem follows_releaseLrScReservation :
    Follows other kept Board.Done releaseLrScReservation releaseLrScReservation :=
  Sim.bind (follows_modifyHart (fun _ _ ⟨registers⟩ => .intro registers) fun _ => rfl)
    fun _ _ _ => follows_memory fun _ => Board.follows_unlock _

theorem follows_isInvalidCsrAccess (address : BitVec 32) (isWrite : Bool) :
    Follows other kept Eq (isInvalidCsrAccess address isWrite)
      (isInvalidCsrAccess address isWrite) := by
  refine Sim.bind (Sim.when Iff.rfl fun _ => follows_requireIsa _) fun _ _ _ => ?_
  exact follows_getHart fun _ _ ⟨_⟩ => Sim.pure rfl

theorem follows_validateCsrCounterReadAccessRights (address : BitVec 32) :
    Follows other kept Board.Done (validateCsrCounterReadAccessRights address)
      (validateCsrCounterReadAccessRights address) := by
  refine follows_getHart fun hart _ ⟨_⟩ => ?_
  refine Sim.ite Iff.rfl (fun _ => ?_) fun _ => Sim.pure trivial
  refine Sim.ite Iff.rfl (fun _ => follows_raiseIllegalInstruction) fun _ => ?_
  exact Sim.ite Iff.rfl (fun _ => follows_raiseIllegalInstruction) fun _ => Sim.pure trivial

theorem follows_updateTime : Follows other kept Eq updateTime updateTime := by
  refine Sim.bind (@follows_memory P other kept _ _ Eq _ _ fun _ => ?_) ?_
  · refine Board.follows_get fun board memory bytes => ?_
    exact Sim.bind (Board.follows_modify fun _ _ bytes => .intro bytes) fun _ _ _ => Sim.pure rfl
  rintro mtime _ rfl
  exact Sim.bind (follows_modifyCsrs _) fun _ _ _ => Sim.pure rfl

theorem follows_updateCycle : Follows other kept Eq updateCycle updateCycle := by
  have counted : Follows other kept Eq computeAndGetCurrentCycles computeAndGetCurrentCycles :=
    follows_getHart fun _ _ ⟨_⟩ => Sim.bind (Sim.require Iff.rfl _) fun _ _ _ => Sim.pure rfl
  refine Sim.bind counted ?_
  rintro cycles _ rfl
  exact Sim.bind (follows_modifyCsrs _) fun _ _ _ => Sim.pure rfl

theorem follows_readCsr (name : CsrName) :
    Follows other kept Eq (readCsr name) (readCsr name) := by
  refine follows_getState fun hart _ board _ ⟨_⟩ ⟨_⟩ => ?_
  cases name
  case time | timeh | mtime | mtimeh =>
      refine Sim.bind follows_updateTime ?_
      rintro mtime _ rfl
      exact Sim.pure rfl
  case mcycle | mcycleh =>
      refine Sim.bind follows_updateCycle ?_
      rintro cycles _ rfl
      exact Sim.pure rfl
  case satp =>
      exact Sim.ite Iff.rfl (fun _ => follows_raiseIllegalInstruction) fun _ => Sim.pure rfl
  all_goals exact Sim.pure rfl

theorem follows_getCsrValue (address : BitVec 32) :
    Follows other kept Eq (getCsrValue address) (getCsrValue address) := by
  refine Sim.bind (follows_validateCsrCounterReadAccessRights _) fun _ _ _ => ?_
  refine Sim.ite Iff.rfl (fun _ => Sim.pure rfl) fun _ => ?_
  split
  · exact follows_readCsr _
  · exact follows_raiseIllegalInstruction

theorem follows_writeCsr (name : CsrName) (value : BitVec 32) :
    Follows other kept Board.Done (writeCsr name value) (writeCsr name value) := by
  refine follows_getHart fun hart _ ⟨_⟩ => ?_
  have pending : ∀ mask, Follows other kept Board.Done (writeCsr.setMip value mask : IssM P Unit)
      (writeCsr.setMip value mask) := fun mask =>
    follows_memory fun _ => Board.follows_modify fun _ _ bytes => .intro bytes
  cases name
  case satp =>
      exact Sim.ite Iff.rfl (fun _ => follows_raiseIllegalInstruction) fun _ => follows_modifyCsrs _
  case mip | sip | uip => exact pending _
  case misa | tselect | tdata1 | tdata2 | tdata3 | dcsr | dpc | dscratch0 | dscratch1 =>
      exact Sim.pure trivial
  all_goals exact follows_modifyCsrs _

theorem follows_setCsrValue (address value : BitVec 32) :
    Follows other kept Board.Done (setCsrValue address value) (setCsrValue address value) := by
  refine Sim.ite Iff.rfl (fun _ => Sim.pure trivial) fun _ => ?_
  split
  · exact follows_writeCsr _ _
  · exact follows_raiseIllegalInstruction

/-! ## Traps and interrupts -/

theorem follows_lexicalCast (number : Nat) :
    Follows other kept Eq (lexicalCast number) (lexicalCast number) :=
  Sim.bind (Sim.require Iff.rfl _) fun _ _ _ => Sim.pure rfl

theorem follows_prepareTrap (trap : SimulationTrap) :
    Follows other kept Eq (prepareTrap trap) (prepareTrap trap) := by
  have recorded : ∀ (first : CsrTable → CsrTable) (second : BitVec 32 → CsrTable → CsrTable)
      (mode : PrivilegeLevel), Follows other kept Eq (do
        modifyCsrs first
        let value ← lexicalCast trap.mtval
        modifyCsrs (second value)
        pure mode : IssM P PrivilegeLevel) (do
        modifyCsrs first
        let value ← lexicalCast trap.mtval
        modifyCsrs (second value)
        pure mode) := by
    intro first second mode
    refine Sim.bind (follows_modifyCsrs _) fun _ _ _ => Sim.bind (follows_lexicalCast _) ?_
    rintro value _ rfl
    exact Sim.bind (follows_modifyCsrs _) fun _ _ _ => Sim.pure rfl
  refine Sim.bind (follows_modifyHart (fun _ _ ⟨registers⟩ => .intro registers) fun _ => rfl)
    fun _ _ _ => follows_getHart fun hart _ ⟨_⟩ => ?_
  refine Sim.ite Iff.rfl (fun _ => recorded _ _ _) fun _ => ?_
  refine Sim.ite Iff.rfl (fun _ => recorded _ _ _) fun _ => ?_
  exact Sim.bind (Sim.require Iff.rfl _) fun _ _ _ => recorded _ _ _

theorem follows_prepareInterrupt (interrupts : PendingInterrupts) :
    Follows other kept Board.Done (prepareInterrupt interrupts) (prepareInterrupt interrupts) := by
  unfold prepareInterrupt
  split
  · exact Sim.throw _
  refine Sim.ite Iff.rfl (fun _ => follows_modifyCsrs _) fun _ => ?_
  refine Sim.ite Iff.rfl (fun _ => follows_modifyCsrs _) fun _ => ?_
  exact Sim.ite Iff.rfl (fun _ => follows_modifyCsrs _) fun _ => Sim.throw _

theorem follows_switchToTrapHandler (targetMode : PrivilegeLevel) :
    Follows other kept Board.Done (switchToTrapHandler targetMode)
      (switchToTrapHandler targetMode) := by
  refine Sim.bind follows_releaseLrScReservation fun _ _ _ => follows_getHart fun hart _ ⟨_⟩ => ?_
  refine Sim.bind (follows_modifyHart (fun _ _ ⟨registers⟩ => .intro registers) fun _ => rfl)
    fun _ _ _ => ?_
  refine Sim.ite Iff.rfl (fun _ => ?_) fun _ => ?_
  · exact follows_modifyHart (fun _ _ ⟨registers⟩ => .intro registers) fun _ => rfl
  refine Sim.ite Iff.rfl (fun _ => ?_) fun _ => ?_
  · exact follows_modifyHart (fun _ _ ⟨registers⟩ => .intro registers) fun _ => rfl
  refine Sim.ite Iff.rfl (fun _ => ?_) fun _ => Sim.throw _
  exact follows_modifyHart (fun _ _ ⟨registers⟩ => .intro registers) fun _ => rfl

theorem follows_returnFromTrapHandler (returnMode : PrivilegeLevel) :
    Follows other kept Board.Done (returnFromTrapHandler returnMode)
      (returnFromTrapHandler returnMode) := by
  refine Sim.ite Iff.rfl (fun _ => ?_) fun _ => ?_
  · exact follows_modifyHart (fun _ _ ⟨registers⟩ => .intro registers) fun _ => rfl
  refine Sim.ite Iff.rfl (fun _ => ?_) fun _ => ?_
  · exact follows_modifyHart (fun _ _ ⟨registers⟩ => .intro registers) fun _ => rfl
  refine Sim.ite Iff.rfl (fun _ => ?_) fun _ => Sim.throw _
  exact follows_modifyHart (fun _ _ ⟨registers⟩ => .intro registers) fun _ => rfl

theorem follows_handleFault (fault : Fault) :
    Follows other kept Eq (handleFault fault) (handleFault fault) := by
  unfold handleFault
  split
  · refine Sim.bind (follows_prepareTrap _) ?_
    rintro mode _ rfl
    exact Sim.bind (follows_switchToTrapHandler _) fun _ _ _ => Sim.pure rfl
  · exact Sim.throw _

theorem follows_performanceAndSyncUpdate (executedOp : Mapping) :
    Follows other kept Board.Done (performanceAndSyncUpdate executedOp)
      (performanceAndSyncUpdate executedOp) := by
  refine Sim.bind (follows_modifyCsrs _) fun _ _ _ => follows_getHart fun hart _ ⟨_⟩ => ?_
  refine Sim.bind (Sim.when Iff.rfl fun _ => ?_) fun _ _ _ => ?_
  · refine Sim.bind (follows_modifyHart (fun _ _ ⟨registers⟩ => .intro registers) fun _ => rfl)
      fun _ _ _ => follows_getHart fun counted _ ⟨_⟩ => ?_
    refine Sim.bind (Sim.require Iff.rfl _) fun _ _ _ => ?_
    exact Sim.when Iff.rfl fun _ => follows_releaseLrScReservation
  refine Sim.bind (follows_modifyHart ?_ fun hart => ?_) fun _ _ _ => ?_
  · rintro hart _ ⟨registers⟩
    dsimp only
    split
    · exact .intro registers
    · exact .intro registers
  · split <;> rfl
  refine follows_getHart fun synced _ ⟨_⟩ => follows_memory fun _ => ?_
  refine Sim.bind (Board.follows_inc _) fun _ _ _ => Board.follows_get fun board memory bytes => ?_
  exact Sim.when Iff.rfl fun _ => Board.follows_synchronise

theorem follows_finishStep (lawful : P.clover.Lawful) :
    Follows other kept Board.Done finishStep finishStep := by
  refine Sim.bind (follows_write lawful ⟨.BVC _⟩) fun _ _ _ => ?_
  refine follows_getState fun hart _ board _ ⟨_⟩ ⟨_⟩ => ?_
  refine Sim.bind (Sim.when Iff.rfl fun _ => ?_) fun _ _ _ => ?_
  · exact follows_modifyHart (fun _ _ ⟨registers⟩ => .intro registers) fun _ => rfl
  · exact follows_getHart fun finished _ ⟨_⟩ => follows_performanceAndSyncUpdate _

end Iss

end SymexVP
