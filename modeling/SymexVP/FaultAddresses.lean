import SymexVP.MemoryTraps
import SymexVP.PreciseTraps

/-!
# Fault addresses

A handler learns from `xtval` which address a faulting access had. The simulator takes
it from the transaction that was refused, after the translation unit has replaced the
virtual address by a physical one and the bus has subtracted the start of the port. It
is the right one exactly if these two left it alone. A physical address may have more
than 32 bits, and then the register cannot even hold it.
-/

namespace SymexVP.Iss

open Exec Opcode Board

variable {P : Platform} (input : P.clover.terms.Assignment)

/-- The virtual address of an access: the sum of a register and an immediate, or a register. -/
def Access.vaddr {terms : Terms} (access : Access terms) (hart : Hart terms) : BitVec 32 :=
  match access with
  | .load _ => hart.rs1Value.concrete + hart.instr.iImm
  | .store _ => hart.rs1Value.concrete + hart.instr.sImm
  | .loadReserved | .storeConditional | .amo _ => hart.rs1Value.concrete

theorem Access.addr_concrete (lawful : P.clover.Lawful) (access : Access P.clover.terms)
    (hart : Hart P.clover.terms) : (access.addr hart).concrete = access.vaddr hart := by
  have sum : ∀ a b : ConcolicValue P.clover.terms 32,
      (P.clover.binary .add a b).concrete = a.concrete + b.concrete :=
    fun a b => (lawful.binary .add 32).concrete a b trivial
  have immediate : ∀ value : BitVec 32,
      (P.clover.sext 32 (.BVC value : ConcolicValue P.clover.terms 32)).concrete = value := by
    intro value
    rw [(lawful.sext 32 32).concrete]
    exact BitVec.signExtend_eq value
  cases access with
  | load numBytes =>
      rw [Access.addr, sum, Hart.iImm, immediate]
      rfl
  | store numBytes =>
      rw [Access.addr, sum, Hart.sImm, immediate]
      rfl
  | _ => rfl

/-- A step raises a trap for an access to a virtual address: the program counter for the fetch of
the instruction, the address in the instruction otherwise. -/
inductive FaultsAt (state : State P) : BitVec 32 → Prop
  | fetch {raised : SimulationTrap} (runs : Runs state)
      (thrown : ((fetch input).run (begun state)).result = .error (.trap raised)) :
      FaultsAt state state.hart.pc
  | data {raised : SimulationTrap} {made : Access P.clover.terms} {middle : State P}
      (runs : Runs state) (accesses : Accesses input state made middle)
      (thrown : (executed input state).result = .error (.trap raised)) :
      FaultsAt state (made.vaddr middle.hart)

/-- The step takes a trap and leaves the given address in `xtval`. -/
def Reports (state : State P) (vaddr : BitVec 32) : Prop :=
  ∃ mode, ((runStep input).run state).result = .ok (.trap mode) ∧
    xtval mode ((runStep input).run state).state.hart.csrs = vaddr

/-- The address a failure is reported with. -/
def faultAddress (P : Platform) : AccessFault → BitVec 64
  | .misaligned _ addr => addr.setWidth 64
  | .unmapped _ vaddr => vaddr
  | .refused _ paddr => SimpleBus.localAddress P paddr

theorem mtval_trap (fault : AccessFault) : (fault.trap P).mtval = (faultAddress P fault).toNat := by
  have wide : ∀ addr : BitVec 32, addr.toNat = (addr.setWidth 64).toNat := by
    intro addr
    rw [BitVec.toNat_setWidth_of_le (by decide)]
  cases fault with
  | misaligned isLoad addr => cases isLoad <;> exact wide addr
  | unmapped type vaddr => cases type <;> rfl
  | refused command paddr => cases command <;> rfl

/-! ## What the step reports -/

/-- Without a reservation to count down, the end of a step has nothing to fail at. -/
abbrev Safe {α : Type} (returns : α → Prop) (body : IssM P α) : Prop :=
  Meets (fun state => state.hart.lrScCounter = 0) returns (fun _ => False) body

theorem safe_getHart :
    Safe (fun hart => hart.lrScCounter = 0) (getHart : IssM P (Hart P.clover.terms)) :=
  Meets.bind Meets.get fun _ released => Meets.pure released

theorem safe_modifyHart {change : Hart P.clover.terms → Hart P.clover.terms}
    (same : ∀ hart, (change hart).lrScCounter = hart.lrScCounter) :
    Safe (fun _ => True) (modifyHart change : IssM P Unit) :=
  Meets.modify fun state released => (same state.hart).trans released

theorem safe_finishStep : Safe (fun _ => True) (finishStep : IssM P Unit) := by
  refine Meets.bind (safe_modifyHart fun _ => rfl) fun _ _ => Meets.bind Meets.get fun state _ => ?_
  refine Meets.bind (Meets.when fun _ => safe_modifyHart fun _ => rfl) fun _ _ => ?_
  refine Meets.bind safe_getHart fun ended _ => ?_
  refine Meets.bind (safe_modifyHart fun _ => rfl) fun _ _ => ?_
  refine Meets.bind safe_getHart fun hart released => ?_
  refine Meets.bind (Meets.when fun counting => absurd released counting) fun _ _ => ?_
  refine Meets.bind (safe_modifyHart fun hart => ?_) fun _ _ => ?_
  · split <;> rfl
  refine Meets.bind safe_getHart fun synced _ state released => ?_
  refine ⟨released, fun _ _ => trivial, fun fault thrown => ?_⟩
  have calm : Meets (fun _ => True) (fun _ => True) (fun _ => False) (do
      inc (instrCycles ended.op)
      let board ← Exec.get
      Exec.when (P.world.needSync board.world board.localTime ∧ synced.lrScCounter = 0)
        synchronise : MemM P Unit) := by
    refine Meets.bind (Meets.modify fun _ _ => trivial) fun _ _ => Meets.bind Meets.get fun _ _ => ?_
    exact Meets.when fun _ => Meets.modify fun _ _ => trivial
  exact (calm state.board trivial).2.2 fault thrown

theorem finishStep_ok {state : State P} (released : state.hart.lrScCounter = 0) :
    ((finishStep : IssM P Unit).run state).result = .ok () := by
  have safe := (safe_finishStep state released).2.2
  cases result : ((finishStep : IssM P Unit).run state).result with
  | ok value => rfl
  | error fault => exact (safe fault result).elim

theorem stepAndInterrupt_of_trap {state : State P} {raised : SimulationTrap}
    (thrown : (executed input state).result = .error (.trap raised)) :
    ((stepAndInterrupt input).run (begun state)).result = .error (.trap raised) ∧
      ((stepAndInterrupt input).run (begun state)).state = (executed input state).state := by
  rw [executed] at thrown ⊢
  rw [stepAndInterrupt, bind_run]
  generalize (execStep input).run (begun state) = outcome at thrown ⊢
  obtain ⟨result, after, log⟩ := outcome
  cases thrown
  exact ⟨rfl, rfl⟩

/-- A trap that can be recorded is taken. -/
theorem runStep_of_recordable {state : State P} {raised : SimulationTrap} (runs : Runs state)
    (thrown : (executed input state).result = .error (.trap raised))
    (recordable : Recordable (executed input state).state.hart raised) :
    ∃ mode, ((runStep input).run state).result = .ok (.trap mode) := by
  obtain ⟨failed, same⟩ := stepAndInterrupt_of_trap input thrown
  have caught := tryCatch_of_error failed handleFault
  rw [same, handleFault_run recordable] at caught
  have finished := bind_of_ok caught.1 fun taken => finishStep >>= fun _ => pure taken
  have ended := bind_of_ok (finishStep_ok (congrArg (·.hart.lrScCounter) caught.2))
    fun _ => pure (Taken.trap (trapMode (executed input state).state.hart raised.reason))
  refine ⟨trapMode (executed input state).state.hart raised.reason, ?_⟩
  rw [runStep_of_runs input runs]
  exact finished.1.trans ended.1

theorem xtval_entered {hart : Hart P.clover.terms} {raised : SimulationTrap}
    {mode : PrivilegeLevel} (routed : trapMode hart raised.reason = mode) :
    xtval mode (entered mode (trapped hart raised)).csrs = BitVec.ofNat 32 raised.mtval := by
  have valid : isValidPrivilegeLevel mode := by
    rw [← routed]
    exact isValid_trapMode hart raised.reason
  rw [trapped, routed]
  obtain rfl | rfl | rfl := mode_cases valid <;> rfl

theorem xtval_finished {mode : PrivilegeLevel} (valid : isValidPrivilegeLevel mode)
    {before after : State P} (finished : Finished before after) :
    xtval mode after.hart.csrs = xtval mode before.hart.csrs := by
  have uncounted : ∀ csrs : CsrTable, xtval mode csrs = xtval mode { csrs with instret := 0 } := by
    intro csrs
    obtain rfl | rfl | rfl := mode_cases valid <;> rfl
  rw [uncounted, finished.csrs, ← uncounted]

/-- Where a trap is routed to is decided before the instruction is executed. -/
theorem recordable_executed {state : State P} {raised : SimulationTrap}
    (thrown : (executed input state).result = .error (.trap raised)) :
    Recordable (executed input state).state.hart raised ↔ Recordable state.hart raised := by
  have kept : (executed input state).state.hart.prv = state.hart.prv ∧
      (executed input state).state.hart.csrs = state.hart.csrs := by
    obtain ⟨same, -⟩ | ⟨hart, ⟨word, -, -, rfl, -⟩, same, -⟩ := executed_of_trap input thrown
    · exact ⟨congrArg Frame.prv same, congrArg Frame.csrs same⟩
    · exact ⟨congrArg Frame.prv same, congrArg Frame.csrs same⟩
  simp only [Recordable, trapMode, kept.1, kept.2]

/-- A trap is reported with the right address exactly if that is the value it was raised with,
and it can be recorded. -/
theorem reports_iff {state : State P} {raised : SimulationTrap} (runs : Runs state)
    (thrown : (executed input state).result = .error (.trap raised)) (vaddr : BitVec 32) :
    Reports input state vaddr ↔ raised.mtval = vaddr.toNat ∧ Recordable state.hart raised := by
  have value : ∀ mode, ((runStep input).run state).result = .ok (.trap mode) →
      Recordable state.hart raised ∧
        xtval mode ((runStep input).run state).state.hart.csrs = BitVec.ofNat 32 raised.mtval := by
    intro mode taken
    obtain ⟨other, thrown', recordable, routed, finished⟩ := runStep_of_trap input taken
    rw [thrown] at thrown'
    cases thrown'
    have valid : isValidPrivilegeLevel mode := by
      rw [← routed]
      exact isValid_trapMode _ _
    refine ⟨(recordable_executed input thrown).mp recordable, ?_⟩
    rw [xtval_finished valid finished, xtval_entered routed]
  constructor
  · rintro ⟨mode, taken, same⟩
    obtain ⟨recordable, written⟩ := value mode taken
    refine ⟨?_, recordable⟩
    rw [← same, written, BitVec.toNat_ofNat, Nat.mod_eq_of_lt recordable.1]
  · rintro ⟨same, recordable⟩
    obtain ⟨mode, taken⟩ := runStep_of_recordable input runs thrown
      ((recordable_executed input thrown).mpr recordable)
    refine ⟨mode, taken, ?_⟩
    rw [(value mode taken).2, same, BitVec.ofNat_toNat, BitVec.setWidth_eq]

theorem executed_of_fetch {state : State P} {fault : Fault}
    (thrown : ((fetch input).run (begun state)).result = .error fault) :
    (executed input state).result = .error fault :=
  bind_eq_error.mpr (.inl thrown)

theorem executed_of_memoryTrap {state : State P} {kind : AccessKind} {vaddr : BitVec 32}
    {raised : SimulationTrap} (trapped : MemoryTrap input state kind vaddr raised) :
    Runs state ∧ (executed input state).result = .error (.trap raised) := by
  cases trapped with
  | fetch runs thrown => exact ⟨runs, executed_of_fetch input thrown⟩
  | data runs accesses thrown => exact ⟨runs, thrown⟩

theorem faultsAt_iff (lawful : P.clover.Lawful) {state : State P} {vaddr : BitVec 32} :
    FaultsAt input state vaddr ↔ ∃ kind raised, MemoryTrap input state kind vaddr raised := by
  constructor
  · rintro (⟨runs, thrown⟩ | ⟨runs, accesses, thrown⟩)
    · exact ⟨_, _, .fetch runs thrown⟩
    · rw [← Access.addr_concrete lawful]
      exact ⟨_, _, .data runs accesses thrown⟩
  · rintro ⟨kind, raised, ⟨runs, thrown⟩ | ⟨runs, accesses, thrown⟩⟩
    · exact .fetch runs thrown
    · rw [Access.addr_concrete lawful]
      exact .data runs accesses thrown

/-! ## When the address is right -/

/-- Every faulting access of the step is reported with its address. -/
def ReportsAddress (state : State P) : Prop :=
  ∀ vaddr, FaultsAt input state vaddr → Reports input state vaddr

/-- The failure is reported with the address of the access. A transaction that is refused has to
have kept it: its physical address, less the start of the port that takes it, is the virtual
one. And a trap delegated to user mode has to come from there. -/
def KeepsAddress (state : State P) (vaddr : BitVec 32) (fault : AccessFault) : Prop :=
  faultAddress P fault = vaddr.setWidth 64 ∧
    (trapMode state.hart (fault.trap P).reason = userMode → state.hart.prv = userMode)

theorem keepsAddress_iff (state : State P) (vaddr : BitVec 32) (fault : AccessFault) :
    KeepsAddress state vaddr fault ↔
      (fault.trap P).mtval = vaddr.toNat ∧ Recordable state.hart (fault.trap P) := by
  have wide : (vaddr.setWidth 64).toNat = vaddr.toNat := BitVec.toNat_setWidth_of_le (by decide)
  rw [KeepsAddress, Recordable, mtval_trap, BitVec.toNat_eq, wide]
  constructor
  · rintro ⟨same, handled⟩
    refine ⟨same, ?_, handled⟩
    rw [same]
    exact vaddr.isLt
  · rintro ⟨same, -, handled⟩
    exact ⟨same, handled⟩

theorem reportsAddress_iff (lawful : P.clover.Lawful) (state : State P) :
    ReportsAddress input state ↔
      ∀ kind vaddr fault, StepFails input state kind vaddr fault → KeepsAddress state vaddr fault := by
  constructor
  · intro reports kind vaddr fault failed
    have trapped := (memoryTrap_iff input).mpr ⟨fault, failed, rfl⟩
    obtain ⟨runs, thrown⟩ := executed_of_memoryTrap input trapped
    rw [keepsAddress_iff, ← reports_iff input runs thrown]
    exact reports vaddr ((faultsAt_iff input lawful).mpr ⟨_, _, trapped⟩)
  · intro keeps vaddr faults
    obtain ⟨kind, raised, trapped⟩ := (faultsAt_iff input lawful).mp faults
    obtain ⟨runs, thrown⟩ := executed_of_memoryTrap input trapped
    obtain ⟨fault, failed, rfl⟩ := (memoryTrap_iff input).mp trapped
    rw [reports_iff input runs thrown, ← keepsAddress_iff]
    exact keeps kind vaddr fault failed

/-- Along a run, every faulting access is reported with its address if and only if every failure
keeps it. -/
theorem reportsAddress_along_run_iff (lawful : P.clover.Lawful) (start : State P) :
    (∀ state, Reaches (runStep input) start state → ReportsAddress input state) ↔
      ∀ state, Reaches (runStep input) start state → ∀ kind vaddr fault,
        StepFails input state kind vaddr fault → KeepsAddress state vaddr fault :=
  forall₂_congr fun state _ => reportsAddress_iff input lawful state

/-- The laws hold of the reference library, and so for every program on it. -/
theorem reportsAddress_along_run_iff_reference :
    Clover.reference.Lawful ∧
      ((∀ state, Reaches (runStep zeroInput) (programStart [0x1000a103]) state →
          ReportsAddress zeroInput state) ↔
        ∀ state, Reaches (runStep zeroInput) (programStart [0x1000a103]) state →
          ∀ kind vaddr fault, StepFails zeroInput state kind vaddr fault →
            KeepsAddress state vaddr fault) :=
  ⟨Clover.reference_lawful, reportsAddress_along_run_iff zeroInput Clover.reference_lawful _⟩

/-- A load from the sensor's lower bound, which cannot be read: `mtval` is the offset in the
sensor. -/
theorem not_reportsAddress_sensor : ∃ state : State tryoutPlatform,
    Reachable zeroInput state ∧ ¬ReportsAddress zeroInput state := by
  let start := programStart [0x020200b7, 0x1000a103]
  let state := stateAfter (runStep zeroInput) 1 start
  have reached : Reaches (runStep zeroInput) start state := reaches_stateAfter (by decide +kernel)
  refine ⟨state, ⟨start, reset_programStart _, reached⟩, fun reports => ?_⟩
  have thrown : (executed zeroInput state).result = .error (.trap ⟨.loadPageFault, 0⟩) := by
    decide +kernel
  have runs : Runs state := by
    unfold Runs AtBreakpoint
    decide +kernel
  have fetched : FetchReturns zeroInput (begun state) 0x1000a103 := by
    constructor <;> decide +kernel
  have faults := FaultsAt.data runs ⟨0x1000a103, fetched, rfl, rfl⟩ thrown
  have wrong := ((reports_iff zeroInput runs thrown _).mp (reports _ faults)).1
  revert wrong
  decide +kernel

end SymexVP.Iss
