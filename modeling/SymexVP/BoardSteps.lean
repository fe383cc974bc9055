import SymexVP.Iss

/-!
# The single steps a board takes

Whatever the hart does behind its memory interface is a chain of a few kinds of steps:
an observation, a write to one component, a call of a device into the hart. An access
may wait, translate its address, walk page tables, reach a device and be called back by
it, but what it does to the board is found among these steps. A statement about a
component or about the observations therefore only has to look at single steps.
-/

namespace SymexVP

open Exec Board MemoryInterface

variable {P : Platform}

/-- One step of a board on behalf of a hart, with what is observed at it. -/
inductive BoardStep (hart : BitVec 32) : Board P → List (Event P.clover.terms) → Board P → Prop
  | concretized (board : Board P) (use : Use) (symbolic : Bool) :
      BoardStep hart board [.concretized use symbolic] board
  | hostError (board : Board P) : BoardStep hart board [.hostError] board
  /-- A memory range is about to be marked symbolic. -/
  | marked (board : Board P) (addr : BitVec 32) :
      BoardStep hart board [.injected (.memory addr)] board
  /-- The sensor's value register is read. -/
  | sampled (board : Board P) :
      BoardStep hart board [.injected (.sensor board.sensor.nread)]
        { board with sensor := { board.sensor with nread := board.sensor.nread + 1 } }
  /-- The sensor's bounds are written. -/
  | bounded (board : Board P) (sensor : SensorRegisters)
      (counts : sensor.nread = board.sensor.nread) : BoardStep hart board [] { board with sensor := sensor }
  | memory (board : Board P) (memory : P.clover.Memory) :
      BoardStep hart board [] { board with memory := memory }
  | ctrl (board : Board P) (ctrl : CtrlRegisters) : BoardStep hart board [] { board with ctrl := ctrl }
  | uart (board : Board P) (uart : UartRegisters P.clover.terms) :
      BoardStep hart board [] { board with uart := uart }
  /-- The hart takes the bus lock, or it is given up. -/
  | lock (board : Board P) (lock : Option (BitVec 32)) (owner : lock = none ∨ lock = some hart) :
      BoardStep hart board [] { board with lock := lock }
  | lrAddr (board : Board P) (lrAddr : Option Nat) :
      BoardStep hart board [] { board with lrAddr := lrAddr }
  | tlb (board : Board P) (tlb : PrivilegeLevel → MemoryAccessType → Nat → TlbEntry) :
      BoardStep hart board [] { board with tlb := tlb }
  | signalled (board : Board P) (world : P.world.State) (signals : List Signal) :
      BoardStep hart board [] (board.signalled world signals)
  | shallExit (board : Board P) : BoardStep hart board [] { board with shallExit := true }
  | localTime (board : Board P) (time : Nat) :
      BoardStep hart board [] { board with localTime := time }

/-- What a function behind the memory interface does is a chain of board steps. -/
abbrev BoardTakes (hart : BitVec 32) {α : Type} (body : MemM P α) : Prop :=
  Takes (BoardStep hart) body

/-- A step that leaves the address of the last reservation alone, as all do but one. -/
def AccessStep (hart : BitVec 32) (before : Board P) (log : List (Event P.clover.terms))
    (after : Board P) : Prop :=
  BoardStep hart before log after ∧ after.lrAddr = before.lrAddr

abbrev AccessTakes (hart : BitVec 32) {α : Type} (body : MemM P α) : Prop :=
  Takes (AccessStep hart) body

variable {hart : BitVec 32}

theorem AccessTakes.board {α : Type} {body : MemM P α} (taken : AccessTakes hart body) :
    BoardTakes hart body := fun board => (taken board).mono And.left

/-- The world moves on without calling into the hart. -/
theorem BoardStep.world (board : Board P) (world : P.world.State) :
    BoardStep hart board [] { board with world := world } := .signalled board world []

namespace Board

theorem takes_waitFor (wait : P.world.State → Option (P.world.State × List Signal)) :
    AccessTakes hart (waitFor wait : MemM P Unit) := by
  refine Takes.bind Takes.get fun board => ?_
  split
  · exact Takes.modify fun board => ⟨.signalled board _ _, rfl⟩
  · exact Takes.throw _

theorem takes_synchronise : AccessTakes hart (synchronise : MemM P Unit) := by
  intro board
  have signals : AccessStep hart board [] (board.signalled
      (P.world.sync board.world board.localTime).1 (P.world.sync board.world board.localTime).2) :=
    ⟨.signalled board _ _, rfl⟩
  exact .append signals (.single ⟨.localTime _ 0, rfl⟩)

theorem takes_inc (time : Nat) : AccessTakes hart (inc time : MemM P Unit) :=
  Takes.modify fun board => ⟨.localTime board _, rfl⟩

theorem takes_waitForAccessRights (hart : BitVec 32) :
    AccessTakes hart (waitForAccessRights hart : MemM P Unit) := by
  refine Takes.bind Takes.get fun board => Takes.when ?_
  exact Takes.bind (takes_waitFor _) fun _ => Takes.modify fun board =>
    ⟨.lock board none (.inl rfl), rfl⟩

theorem takes_takeLock (hart : BitVec 32) : AccessTakes hart (takeLock hart : MemM P Unit) :=
  Takes.bind (takes_waitForAccessRights hart) fun _ => Takes.modify fun board =>
    ⟨.lock board _ (.inr rfl), rfl⟩

theorem takes_unlock (hart : BitVec 32) : AccessTakes hart (unlock hart : MemM P Unit) := by
  intro board
  rw [unlock, modify_run]
  dsimp only
  split
  · exact .single ⟨.lock board none (.inl rfl), rfl⟩
  · exact .nothing board

theorem takes_getValue {width : Nat} (use : Use) (value : ConcolicValue P.clover.terms width) :
    AccessTakes hart (getValue use value : MemM P (BitVec width)) :=
  Takes.bind (Takes.emit fun board => ⟨.concretized board _ _, rfl⟩) fun _ => Takes.pure _

end Board

/-! ## The memory interface -/

/-- A socket whose transactions are chains of board steps. -/
def Socket.Takes (isock : Socket P) (hart : BitVec 32) : Prop :=
  ∀ trans delay, AccessTakes hart (isock trans delay)

section Interface

variable {isock : Socket P} {core : Core} (behaves : isock.Takes core.hartId)

include behaves

theorem takes_doTransaction (trans : Payload P.clover.terms) :
    AccessTakes core.hartId (doTransaction isock trans) := by
  refine Takes.bind Takes.get fun before => Takes.bind (behaves trans _) fun ⟨answer, delay⟩ => ?_
  refine Takes.bind Takes.get fun after => Takes.bind (Takes.require _ _) fun _ => ?_
  refine Takes.bind (Takes.modify fun board => ⟨.localTime board delay, rfl⟩) fun _ => ?_
  split
  · exact Takes.pure _
  · exact Takes.throw _
  · exact Takes.throw _

theorem takes_writeTransaction (address : BitVec 64) (data : Concolic P.clover.terms)
    (numBytes : Nat) : AccessTakes core.hartId (writeTransaction isock address data numBytes) :=
  Takes.bind (takes_doTransaction behaves _) fun _ => Takes.pure _

theorem takes_readTransaction (address : BitVec 64) (numBytes : Nat) :
    AccessTakes core.hartId (readTransaction isock address numBytes) := by
  refine Takes.bind (takes_doTransaction behaves _) fun trans => ?_
  split <;> exact Takes.pure _

theorem takes_concreteLoadData (use : Use) (address : BitVec 64) (numBytes : Nat) :
    AccessTakes core.hartId (concreteLoadData isock core use address numBytes) := by
  refine Takes.bind (takes_waitForAccessRights _) fun _ => ?_
  refine Takes.bind (takes_doTransaction behaves _) fun trans => ?_
  exact Takes.bind (Takes.emit fun board => ⟨.concretized board _ _, rfl⟩) fun _ => Takes.pure _

theorem takes_mmuStorePte32 (address value : BitVec 64) :
    AccessTakes core.hartId (mmuStorePte32 isock core address value) := by
  refine Takes.bind (takes_waitForAccessRights _) fun _ => ?_
  exact Takes.bind (takes_doTransaction behaves _) fun _ => takes_unlock _

theorem takes_walkLevels (vm : Mmu.VmInfo) (vaddr : BitVec 64) (type : MemoryAccessType)
    (mode : PrivilegeLevel) (level : Nat) :
    ∀ base, AccessTakes core.hartId (Mmu.walkLevels isock core vm vaddr type mode level base) := by
  induction level with
  | zero => exact fun _ => Takes.pure _
  | succ level inductionHypothesis =>
      intro base
      refine Takes.bind (Takes.require _ _) fun _ => ?_
      refine Takes.bind (Takes.bind (takes_concreteLoadData behaves _ _ _) fun _ =>
        Takes.pure _) fun pte => ?_
      refine Takes.ite (Takes.pure _) (Takes.ite (inductionHypothesis _) ?_)
      refine Takes.ite (Takes.pure _) (Takes.ite (Takes.pure _) (Takes.ite (Takes.pure _) ?_))
      exact Takes.bind (Takes.when (takes_mmuStorePte32 behaves _ _)) fun _ => Takes.pure _

theorem takes_walk (vaddr : BitVec 64) (type : MemoryAccessType) (mode : PrivilegeLevel) :
    AccessTakes core.hartId (Mmu.walk isock core vaddr type mode) := by
  have decoded : AccessTakes core.hartId (Mmu.decodeVmInfo core mode : MemM P Mmu.VmInfo) :=
    Takes.bind (Takes.require _ _) fun _ => Takes.ite (Takes.pure _) (Takes.throw _)
  refine Takes.bind decoded fun vm => ?_
  refine Takes.bind (takes_walkLevels behaves _ _ _ _ _ _) fun found => ?_
  split
  · exact Takes.pure _
  · split <;> exact Takes.throw _

theorem takes_v2p (vaddr : BitVec 64) (type : MemoryAccessType) :
    AccessTakes core.hartId (v2p isock core vaddr type) := by
  refine Takes.ite (Takes.ite (Takes.pure _) ?_) (Takes.pure _)
  refine Takes.bind (takes_inc 30) fun _ => Takes.bind (Takes.require _ _) fun _ => ?_
  refine Takes.bind Takes.get fun board => Takes.ite (Takes.pure _) ?_
  refine Takes.bind (takes_walk behaves _ _ _) fun paddr => ?_
  exact Takes.bind (Takes.modify fun board => ⟨.tlb board _, rfl⟩) fun _ => Takes.pure _

theorem takes_loadInstr (pc : BitVec 32) : AccessTakes core.hartId (loadInstr isock core pc) := by
  refine Takes.bind (takes_v2p behaves _ _) fun paddr => ?_
  exact Takes.bind (takes_concreteLoadData behaves _ _ _) fun _ => Takes.pure _

theorem takes_symbolicStoreData (addr : ConcolicValue P.clover.terms 32)
    (data : Concolic P.clover.terms) (numBytes : Nat) :
    AccessTakes core.hartId (symbolicStoreData isock core addr data numBytes) := by
  refine Takes.bind (takes_waitForAccessRights _) fun _ => ?_
  refine Takes.bind (takes_getValue _ _) fun caddr => ?_
  refine Takes.bind (takes_v2p behaves _ _) fun paddr => ?_
  exact Takes.bind (takes_writeTransaction behaves _ _ _) fun _ => takes_unlock _

theorem takes_symbolicLoadData (addr : ConcolicValue P.clover.terms 32) (numBytes : Nat) :
    AccessTakes core.hartId (symbolicLoadData isock core addr numBytes) := by
  refine Takes.bind (takes_waitForAccessRights _) fun _ => ?_
  refine Takes.bind (takes_getValue _ _) fun caddr => ?_
  exact Takes.bind (takes_v2p behaves _ _) fun paddr => takes_readTransaction behaves _ _

theorem takes_loadSigned (addr : ConcolicValue P.clover.terms 32) (numBytes : Nat) :
    AccessTakes core.hartId (loadSigned isock core addr numBytes) :=
  Takes.bind (takes_symbolicLoadData behaves _ _) fun _ => Takes.pure _

theorem takes_loadUnsigned (addr : ConcolicValue P.clover.terms 32) (numBytes : Nat) :
    AccessTakes core.hartId (loadUnsigned isock core addr numBytes) :=
  Takes.bind (takes_symbolicLoadData behaves _ _) fun _ =>
    Takes.ite (Takes.pure _) (Takes.pure _)

theorem takes_storeBytes (addr value : ConcolicValue P.clover.terms 32) (numBytes : Nat) :
    AccessTakes core.hartId (storeBytes isock core addr value numBytes) :=
  takes_symbolicStoreData behaves _ _ _

theorem takes_atomicLoadWord (addr : ConcolicValue P.clover.terms 32) :
    AccessTakes core.hartId (atomicLoadWord isock core addr) :=
  Takes.bind (takes_takeLock _) fun _ => takes_loadSigned behaves _ _

theorem takes_atomicStoreWord (addr value : ConcolicValue P.clover.terms 32) :
    AccessTakes core.hartId (atomicStoreWord isock core addr value) := by
  refine Takes.bind Takes.get fun board => Takes.bind (Takes.require _ _) fun _ => ?_
  exact takes_storeBytes behaves _ _ _

theorem takes_atomicLoadReservedWord (object : Nat) (addr : ConcolicValue P.clover.terms 32) :
    BoardTakes core.hartId (atomicLoadReservedWord isock core object addr) := by
  refine Takes.bind (takes_takeLock _).board fun _ => ?_
  refine Takes.bind (Takes.modify fun board => .lrAddr board _) fun _ => ?_
  exact (takes_loadSigned behaves _ _).board

theorem takes_atomicStoreConditionalWord (object : Nat)
    (addr value : ConcolicValue P.clover.terms 32) :
    AccessTakes core.hartId (atomicStoreConditionalWord isock core object addr value) := by
  refine Takes.bind Takes.get fun board => Takes.ite (Takes.ite ?_ ?_) (Takes.pure _)
  · exact Takes.bind (takes_storeBytes behaves _ _ _) fun _ => Takes.pure _
  · exact Takes.bind (takes_unlock _) fun _ => Takes.pure _

theorem takes_makeSymbolic (input : P.clover.terms.Assignment) (addr size : BitVec 32) :
    AccessTakes core.hartId (makeSymbolic isock core input addr size) :=
  Takes.bind (Takes.emit fun board => ⟨.marked board addr, rfl⟩) fun _ =>
    takes_symbolicStoreData behaves _ _ _

end Interface

/-! ## Devices -/

theorem takes_symbolicMemory (trans : Payload P.clover.terms) (delay : Nat) :
    AccessTakes hart (SymbolicMemory.transport trans delay : MemM P _) := by
  refine Takes.bind Takes.get fun board => Takes.ite (Takes.pure _) ?_
  cases trans.command with
  | read => exact Takes.pure _
  | write =>
      exact Takes.bind (Takes.modify fun board => ⟨.memory board _, rfl⟩) fun _ => Takes.pure _

theorem takes_writeCtrl : AccessTakes hart (SymbolicCtrl.writeCtrl : MemM P Unit) := by
  have exits : AccessTakes hart (Exec.modify fun board => { board with shallExit := true } : MemM P Unit) :=
    Takes.modify fun board => ⟨.shallExit board, rfl⟩
  refine Takes.bind Takes.get fun board => ?_
  refine Takes.bind (Takes.when (Takes.bind (Takes.emit fun board => ⟨.hostError board, rfl⟩)
    fun _ => exits)) fun _ => ?_
  exact Takes.bind (Takes.when exits) fun _ => Takes.modify fun board => ⟨.ctrl board _, rfl⟩

theorem takes_symbolicCtrl {makeSymbolic : BitVec 32 → BitVec 32 → MemM P Unit}
    (callback : ∀ addr size, AccessTakes hart (makeSymbolic addr size))
    (trans : Payload P.clover.terms) (delay : Nat) :
    AccessTakes hart (SymbolicCtrl.transport makeSymbolic trans delay) := by
  unfold SymbolicCtrl.transport
  split
  · exact Takes.throw _
  · next register routed =>
      refine Takes.bind (Takes.require _ _) fun _ => ?_
      cases trans.command with
      | read => exact Takes.bind Takes.get fun _ => Takes.pure _
      | write =>
          have called : AccessTakes hart (SymbolicCtrl.postWrite makeSymbolic register) := by
            cases register with
            | addr => exact Takes.pure _
            | size => exact Takes.bind Takes.get fun board => callback _ _
            | ctrl => exact takes_writeCtrl
          refine Takes.bind (Takes.modify fun board => ⟨.ctrl board _, rfl⟩) fun _ => ?_
          exact Takes.bind called fun _ => Takes.pure _

theorem nread_assign {sensor after : SensorRegisters} {address : BitVec 64}
    {bytes : List (BitVec 8)} (assigned : SymbolicSensor.assign sensor address bytes = some after) :
    after.nread = sensor.nread := by
  unfold SymbolicSensor.assign at assigned
  dsimp only at assigned
  split at assigned
  · cases assigned
    rfl
  · split at assigned
    · cases assigned
      rfl
    · cases assigned

theorem takes_symbolicSensor (input : P.clover.terms.Assignment)
    (trans : Payload P.clover.terms) (delay : Nat) :
    AccessTakes hart (SymbolicSensor.transport input trans delay) := by
  intro board
  unfold SymbolicSensor.transport
  rw [bind_run, get_run, Outcome.andThen_ok, List.nil_append]
  dsimp only
  split
  · exact .nothing board
  · cases trans.command with
    | read =>
        dsimp only
        split
        · exact .nothing board
        · exact .single ⟨.sampled board, rfl⟩
    | write =>
        dsimp only
        split
        · exact .nothing board
        · next sensor assigned => exact .single ⟨.bounded board sensor (nread_assign assigned), rfl⟩

theorem takes_symbolicUart (trans : Payload P.clover.terms) (delay : Nat) :
    AccessTakes hart (SymbolicUart.transport trans delay : MemM P _) := by
  have notified : ∀ afterWrite register notify,
      AccessTakes hart (SymbolicUart.notify afterWrite register notify : MemM P Unit) :=
    fun _ _ _ => Takes.modify fun board => ⟨.world board _, rfl⟩
  unfold SymbolicUart.transport
  dsimp only
  split
  · exact Takes.throw _
  · refine Takes.bind (Takes.require _ _) fun _ => Takes.bind Takes.get fun board => ?_
    cases trans.command with
    | read =>
        refine Takes.bind (Takes.modify fun board => ⟨.uart board _, rfl⟩) fun _ => ?_
        exact Takes.bind (notified _ _ _) fun _ => Takes.pure _
    | write =>
        refine Takes.bind (Takes.modify fun board => ⟨.uart board _, rfl⟩) fun _ => ?_
        exact Takes.bind (notified _ _ _) fun _ => Takes.pure _

theorem takes_deliver {makeSymbolic : BitVec 32 → BitVec 32 → MemM P Unit}
    (callback : ∀ addr size, AccessTakes hart (makeSymbolic addr size))
    (input : P.clover.terms.Assignment) (target : Target) (trans : Payload P.clover.terms)
    (delay : Nat) : AccessTakes hart (SimpleBus.deliver makeSymbolic input target trans delay) := by
  have observed : ∀ symbolic, AccessTakes hart
      (Exec.emit (.concretized .peripheralData symbolic) : MemM P Unit) := fun _ =>
    Takes.emit fun board => ⟨.concretized board _ _, rfl⟩
  refine Takes.bind (Takes.when (observed _)) fun _ => ?_
  cases target with
  | memory => exact takes_symbolicMemory trans delay
  | ctrl => exact takes_symbolicCtrl callback trans delay
  | sensor => exact takes_symbolicSensor input trans delay
  | uart => exact takes_symbolicUart trans delay
  | external device =>
      refine Takes.bind Takes.get fun board => ?_
      split
      · exact Takes.throw _
      · refine Takes.bind (Takes.modify fun board => ⟨.signalled board _ _, rfl⟩) fun _ => ?_
        exact Takes.pure _

theorem takes_nested (core : Core) (input : P.clover.terms.Assignment) (depth : Nat) :
    Socket.Takes (SimpleBus.nested core input depth : Socket P) core.hartId := by
  induction depth with
  | zero => exact fun _ _ => Takes.throw _
  | succ depth inductionHypothesis =>
      intro trans delay
      show AccessTakes core.hartId (SimpleBus.transport _ input trans delay)
      unfold SimpleBus.transport
      split
      · exact Takes.pure _
      · exact takes_deliver (fun _ _ => takes_makeSymbolic inductionHypothesis input _ _) _ _ _ _

theorem takes_bus (core : Core) (input : P.clover.terms.Assignment) :
    Socket.Takes (bus core input : Socket P) core.hartId := takes_nested core input P.depth

end SymexVP
