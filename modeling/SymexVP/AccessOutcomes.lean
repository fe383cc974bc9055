import SymexVP.Outcomes
import SymexVP.FaultOrigins

/-!
# How memory accesses end

An access of a hart returns, or raises a trap, or leaves the simulator with another
exception. Exceptions have two origins only. A device refuses the transaction it is
sent, which is known from the board and the payload; a write to the size register of
the control device makes that device write in turn, so that the question repeats for
what it writes. Or a translation asks for page tables, which on a platform without page
walks fails in one of two assertions.

The bus lock is the hart's own or free throughout: an access never waits, and a load
leaves the lock as it found it.
-/

namespace SymexVP

open Exec Board MemoryInterface

variable {P : Platform}

/-- An access of this type takes its address as it is. -/
def Mmu.Bare (core : Core) (type : MemoryAccessType) : Prop :=
  Satp.mode.get core.satp = 0 ∨ effectiveMode core type = machineMode

instance (core : Core) (type : MemoryAccessType) : Decidable (Mmu.Bare core type) :=
  inferInstanceAs (Decidable (_ ∨ _))

/-! ## What may be thrown -/

/-- How a translation fails on a platform without page walks. -/
def Fault.FromTranslation (fault : Fault) : Prop :=
  fault = .assertion "mem" ∨ fault = .assertion "mode == 0 || mode == 1"

/-- The assertions in the devices, and the one on the time a device reports. -/
def deviceAssertions : List String :=
  ["local_delay >= quantum_keeper.get_local_time()", "local_addr + len <= mem.size()",
    "len + (addr % 4) <= 4"]

/-- How a device fails, apart from the traps of what it writes itself. -/
def Fault.FromDevice : Fault → Prop
  | .runtimeError message => ∃ text : String,
      message = "SymbolicCTRL unable to route address " ++ text ∨
        message = "access of unmapped address (local TLM router): " ++
          "name=SymbolicUART, addr=0x" ++ text
  | .assertion text => text ∈ deviceAssertions
  | .stackOverflow | .deviceError => True
  | .trap _ | .badLexicalCast | .blocked => False

/-- What an access throws: a trap, the failure of a device that refuses it, or the failure of a
translation it needs. -/
def AccessThrows (refused translated : Prop) (fault : Fault) : Prop :=
  (∃ raised, fault = .trap raised) ∨ refused ∧ fault.FromDevice ∨
    translated ∧ fault.FromTranslation

namespace AccessThrows

variable {refused translated : Prop}

theorem trap (raised : SimulationTrap) : AccessThrows refused translated (.trap raised) :=
  .inl ⟨raised, rfl⟩

theorem device {fault : Fault} (refuses : refused) (known : fault.FromDevice) :
    AccessThrows refused translated fault := .inr (.inl ⟨refuses, known⟩)

theorem translation {fault : Fault} (needed : translated) (known : fault.FromTranslation) :
    AccessThrows refused translated fault := .inr (.inr ⟨needed, known⟩)

end AccessThrows

/-! ## What devices refuse -/

/-- The write with which the control device marks memory, from its registers. -/
def marking (input : P.clover.terms.Assignment) (ctrl : CtrlRegisters) :
    Payload P.clover.terms :=
  let size := ctrl.size.toNat
  let data : Concolic P.clover.terms :=
    ⟨8 * size, P.clover.getSymbolicBytes input (Injection.memory ctrl.addr).name size⟩
  ⟨.write, ctrl.addr.setWidth 64, data.toBytes size, .ok, some data⟩

/-- The board after a register of the control device was written. -/
def ctrlWritten (board : Board P) (register : SymbolicCtrl.Register) (offset : Nat)
    (bytes : List (BitVec 8)) : Board P :=
  { board with
    ctrl := SymbolicCtrl.set board.ctrl
      (writeBytes (SymbolicCtrl.get board.ctrl register) offset bytes) register }

/-- Whether a transaction leads to a device that fails on it. The control device only leaves
ten nanoseconds for what it writes itself, the `inner` transactions. -/
def refuses (input : P.clover.terms.Assignment) :
    (depth : Nat) → (inner : Bool) → Board P → Payload P.clover.terms → Bool
  | 0, _, _, _ => true
  | depth + 1, inner, board, sent =>
      match SimpleBus.decode P sent.address with
      | none => false
      | some port =>
          let address := sent.address - port.start
          match port.target with
          | .memory | .sensor => false
          | .uart =>
              (SymbolicUart.find address.toNat).isNone ||
                decide (4 < sent.data.length + address.toNat % 4)
          | .external device =>
              match P.world.transport device board.world sent.command address sent.data
                  board.localTime with
              | none => true
              | some ((_, _, later), _, _) =>
                  decide (later < board.localTime) ||
                    inner && decide (board.localTime + 10 < later)
          | .ctrl =>
              match SymbolicCtrl.route address.toNat with
              | none => true
              | some register =>
                  let offset := address.toNat - register.start
                  decide (4 < offset + sent.data.length) ||
                    sent.command == .write && register == .size &&
                      refuses input depth true (ctrlWritten board register offset sent.data)
                        (marking input (ctrlWritten board register offset sent.data).ctrl)

/-! ## The interface -/

/-- The board of a hart at work: the bus lock is free or its own, and the translation cache is
empty unless page tables are walked. -/
structure Board.Ready (core : Core) (board : Board P) : Prop where
  available : board.lock = none ∨ board.lock = some core.hartId
  untranslated : Untranslated board

/-- The board after a transaction. A read leaves the lock alone, and time has passed as the
answer says, unless a device has failed. -/
structure Answered (core : Core) (refused : Prop) (inner : Bool) (command : Command)
    (board : Board P) (delay : Nat) (after : Board P) : Prop where
  ready : after.Ready core
  held : command = .read → after.lock = board.lock
  timed : refused ∨ after.localTime ≤ delay ∧ (inner = true → delay ≤ board.localTime + 10)

/-- A socket that throws only what the device behind it does, or a write that a device makes in
turn. -/
def Socket.Responds (isock : Socket P) (core : Core)
    (refusesIt : Bool → Board P → Payload P.clover.terms → Bool) : Prop :=
  ∀ (refused translated : Prop) (inner : Bool) (trans : Payload P.clover.terms) (board : Board P),
    board.Ready core → (refusesIt inner board trans = true → refused) →
    (trans.command = .write → ¬Mmu.Bare core .store → translated) →
    Settles (AccessThrows refused translated)
      (fun answer after => Answered core refused inner trans.command board answer.2 after)
      (isock trans board.localTime) board

section Interface

variable {core : Core} {board : Board P} {refused translated : Prop}

theorem waitForAccessRights_settles {faults : Fault → Prop} (ready : board.Ready core) :
    Settles faults (fun _ after => after = board) (waitForAccessRights core.hartId) board := by
  refine Settles.bind (Settles.get (Settles.when (fun waits => ?_) fun _ => rfl))
  obtain ⟨owned, other⟩ := waits
  obtain free | own := ready.available
  · rw [free] at owned
    cases owned
  · exact absurd (by rw [isLockedBy, own, beq_self_eq_true]) other

theorem takeLock_settles {faults : Fault → Prop} (ready : board.Ready core) :
    Settles faults (fun _ after => after = { board with lock := some core.hartId })
      (takeLock core.hartId) board := by
  refine Settles.bind ((waitForAccessRights_settles ready).mono ?_ fun _ => id)
  rintro _ _ rfl
  exact Settles.modify rfl

theorem unlock_settles {faults : Fault → Prop} (ready : board.Ready core) :
    Settles faults (fun _ after => after.Ready core ∧ after.localTime = board.localTime)
      (unlock core.hartId) board := by
  refine Settles.modify ?_
  split
  · exact ⟨⟨.inl rfl, ready.untranslated⟩, rfl⟩
  · exact ⟨ready, rfl⟩

theorem getValue_settles {width : Nat} {faults : Fault → Prop} (use : Use)
    (value : ConcolicValue P.clover.terms width) :
    Settles faults (fun result after => result = value.concrete ∧ after = board)
      (getValue use value) board :=
  Settles.bind (Settles.emit (Settles.pure ⟨rfl, rfl⟩))

section Translation

/-- The mode field has a single bit. -/
theorem satp_mode_eq (satp : BitVec 32) : Satp.mode.get satp = 0 ∨ Satp.mode.get satp = 1 := by
  have slice : Satp.mode.get satp = (satp.extractLsb' 31 1).setWidth 32 :=
    BitFields.getField_eq_extract 31 1 satp (by decide)
  rw [slice]
  obtain zero | one := BitVec.eq_zero_or_eq_one (satp.extractLsb' 31 1)
  · exact .inl (by rw [zero]; rfl)
  · exact .inr (by rw [one]; rfl)

variable {isock : Socket P} (walkless : P.mmuMem = false) {type : MemoryAccessType}

include walkless

/-- A walk asks for the first page table or finds that there is none to ask for. -/
theorem walkLevels_settles (needed : translated) (vm : Mmu.VmInfo) (vaddr : BitVec 64)
    (mode : PrivilegeLevel) (levels : Nat) (base : BitVec 64) :
    Settles (AccessThrows refused translated) (fun found _ => found = none)
      (Mmu.walkLevels isock core vm vaddr type mode levels base) board := by
  cases levels with
  | zero => exact Settles.pure rfl
  | succ level =>
      refine Settles.bind (Settles.require (fun walks => ?_) fun _ => ?_)
      · rw [walkless] at walks
        cases walks
      · exact .translation needed (.inl rfl)

theorem walk_settles (needed : translated) (selected : Satp.mode.get core.satp ≠ 0)
    {mode : PrivilegeLevel} (level : mode = 0 ∨ mode = 1) (vaddr : BitVec 64) :
    Settles (AccessThrows refused translated) (fun _ _ => False)
      (Mmu.walk isock core vaddr type mode) board := by
  have lowest : mode ≤ supervisorMode := by
    obtain rfl | rfl := level <;> decide
  refine Settles.bind (Settles.bind (Settles.require (fun _ => ?_) fun above => ?_))
  · refine Settles.ite (fun _ => Settles.pure ?_) fun other => ?_
    · refine Settles.bind ((walkLevels_settles walkless needed _ _ _ _ _).mono ?_ fun _ => id)
      rintro _ after rfl
      cases type <;> exact Settles.throw (.trap _)
    · exact absurd ((satp_mode_eq core.satp).resolve_left selected) other
  · exact absurd lowest above

/-- A translation that is needed fails, since there is no access to page tables. -/
theorem v2p_settles (ready : board.Ready core) (translates : ¬Mmu.Bare core type → translated)
    (vaddr : BitVec 64) :
    Settles (AccessThrows refused translated) (fun paddr after => paddr = vaddr ∧ after = board)
      (v2p isock core vaddr type) board := by
  refine Settles.ite (fun _ => ?_) fun _ => Settles.pure ⟨rfl, rfl⟩
  refine Settles.ite (fun _ => Settles.pure ⟨rfl, rfl⟩) fun asked => ?_
  have needed : translated := translates asked
  refine Settles.bind (Settles.modify (Settles.bind (Settles.require (fun level => ?_) fun _ => ?_)))
  · refine Settles.bind (Settles.get (Settles.ite (fun hit => ?_) fun _ => Settles.bind ?_))
    · exact absurd (hit.symm.trans (ready.untranslated walkless _ _ _)) (pageNumber_ne vaddr)
    · exact (walk_settles walkless needed (fun same => asked (.inl same)) level vaddr).mono
        (fun _ _ => False.elim) fun _ => id
  · exact .translation needed (.inr rfl)

end Translation

section Transactions

variable {isock : Socket P} {refusesIt : Bool → Board P → Payload P.clover.terms → Bool}
  (responds : isock.Responds core refusesIt) {inner : Bool}

include responds

theorem doTransaction_settles {trans : Payload P.clover.terms} (ready : board.Ready core)
    (served : refusesIt inner board trans = true → refused)
    (translates : trans.command = .write → ¬Mmu.Bare core .store → translated) :
    Settles (AccessThrows refused translated)
      (fun _ after => after.Ready core ∧ (trans.command = .read → after.lock = board.lock) ∧
        (refused ∨ (inner = true → after.localTime ≤ board.localTime + 10)))
      (doTransaction isock trans) board := by
  have sent := responds refused translated inner trans board ready served translates
  refine Settles.bind (Settles.get (Settles.bind (sent.mono ?_ fun _ => id)))
  rintro ⟨answer, delay⟩ after ⟨ready', held, timed⟩
  refine Settles.bind (Settles.get (Settles.bind (Settles.require (fun _ => ?_) fun late => ?_)))
  · refine Settles.bind (Settles.modify ?_)
    have good : Ready core { after with localTime := delay } ∧
        (trans.command = .read → after.lock = board.lock) ∧
        (refused ∨ (inner = true → delay ≤ board.localTime + 10)) :=
      ⟨⟨ready'.available, ready'.untranslated⟩, held, timed.imp_right And.right⟩
    split
    · exact Settles.pure good
    · exact Settles.throw (.trap _)
    · exact Settles.throw (.trap _)
  · obtain failed | ⟨intime, -⟩ := timed
    · exact .device failed (List.mem_cons_self ..)
    · exact absurd intime late

/-- The payload of a load. -/
abbrev reading (address : BitVec 64) (numBytes : Nat) : Payload P.clover.terms :=
  ⟨.read, address, List.replicate numBytes 0, .ok, none⟩

/-- The payload of a store. -/
abbrev writing (address : BitVec 64) (data : Concolic P.clover.terms) (numBytes : Nat) :
    Payload P.clover.terms :=
  ⟨.write, address, data.toBytes numBytes, .ok, some data⟩

theorem symbolicStoreData_settles (walkless : P.mmuMem = false) (ready : board.Ready core)
    {addr : ConcolicValue P.clover.terms 32} {data : Concolic P.clover.terms} {numBytes : Nat}
    (served : refusesIt inner board (writing (addr.concrete.setWidth 64) data numBytes) = true →
      refused)
    (translates : ¬Mmu.Bare core .store → translated) :
    Settles (AccessThrows refused translated)
      (fun _ after => after.Ready core ∧
        (refused ∨ (inner = true → after.localTime ≤ board.localTime + 10)))
      (symbolicStoreData isock core addr data numBytes) board := by
  refine Settles.bind ((waitForAccessRights_settles ready).mono ?_ fun _ => id)
  rintro _ _ rfl
  refine Settles.bind ((getValue_settles _ addr).mono ?_ fun _ => id)
  rintro _ _ ⟨rfl, rfl⟩
  refine Settles.bind ((v2p_settles walkless ready translates _).mono ?_ fun _ => id)
  rintro _ _ ⟨rfl, rfl⟩
  refine Settles.bind (Settles.bind ?_)
  refine (doTransaction_settles responds ready served fun _ => translates).mono ?_ fun _ => id
  rintro _ reached ⟨ready', -, timed⟩
  refine Settles.pure ((unlock_settles ready').mono ?_ fun _ => id)
  rintro _ after ⟨ready'', same⟩
  exact ⟨ready'', same ▸ timed⟩

theorem symbolicLoadData_settles (walkless : P.mmuMem = false) (ready : board.Ready core)
    {addr : ConcolicValue P.clover.terms 32} {numBytes : Nat}
    (served : refusesIt inner board (reading (addr.concrete.setWidth 64) numBytes) = true → refused)
    (translates : ¬Mmu.Bare core .store → translated) :
    Settles (AccessThrows refused translated)
      (fun _ after => after.Ready core ∧ after.lock = board.lock)
      (symbolicLoadData isock core addr numBytes) board := by
  refine Settles.bind ((waitForAccessRights_settles ready).mono ?_ fun _ => id)
  rintro _ _ rfl
  refine Settles.bind ((getValue_settles _ addr).mono ?_ fun _ => id)
  rintro _ _ ⟨rfl, rfl⟩
  refine Settles.bind ((v2p_settles walkless ready translates _).mono ?_ fun _ => id)
  rintro _ _ ⟨rfl, rfl⟩
  refine Settles.bind ((doTransaction_settles responds ready served nofun).mono ?_ fun _ => id)
  rintro answer reached ⟨ready', held, -⟩
  split <;> exact Settles.pure ⟨ready', held rfl⟩

theorem loadInstr_settles (walkless : P.mmuMem = false) (ready : board.Ready core)
    (pc : BitVec 32) (served : ∀ inner trans, refusesIt inner board trans = true → refused)
    (translates : ¬Mmu.Bare core .fetch → translated) :
    Settles (AccessThrows refused translated) (fun _ after => after.Ready core)
      (loadInstr isock core pc) board := by
  refine Settles.bind ((v2p_settles walkless ready translates _).mono ?_ fun _ => id)
  rintro _ _ ⟨rfl, rfl⟩
  refine Settles.bind (Settles.bind ((waitForAccessRights_settles ready).mono ?_ fun _ => id))
  rintro _ _ rfl
  refine Settles.bind ((doTransaction_settles responds ready (served false _) nofun).mono ?_
    fun _ => id)
  rintro _ after ⟨ready', -, -⟩
  exact Settles.bind (Settles.emit (Settles.pure (Settles.pure ready')))

end Transactions

end Interface

/-! ## Devices -/

section Devices

variable {core : Core} {board : Board P} {refused translated : Prop} {inner : Bool}

/-- The answer of a device that neither touches the lock nor waits. -/
theorem Answered.of_same {command : Command} {delay : Nat} {after : Board P}
    (ready : board.Ready core) (lock : after.lock = board.lock) (tlb : after.tlb = board.tlb)
    (time : after.localTime = board.localTime) (least : board.localTime ≤ delay)
    (most : delay ≤ board.localTime + 10) :
    Answered core refused inner command board delay after := by
  refine ⟨⟨lock ▸ ready.available, ?_⟩, fun _ => lock, .inr ⟨time ▸ least, fun _ => most⟩⟩
  rw [Untranslated, tlb]
  exact ready.untranslated

theorem symbolicMemory_settles {faults : Fault → Prop} (trans : Payload P.clover.terms)
    (ready : board.Ready core) :
    Settles faults
      (fun answer after => Answered core refused inner trans.command board answer.2 after)
      (SymbolicMemory.transport trans board.localTime) board := by
  have answered : ∀ {command : Command} {after : Board P}, after.lock = board.lock →
      after.tlb = board.tlb → after.localTime = board.localTime →
      Answered core refused inner command board (board.localTime + 10) after :=
    fun lock tlb time =>
      .of_same ready lock tlb time (Nat.le_add_right _ _) (Nat.le_refl _)
  refine Settles.bind (Settles.get (Settles.ite (fun _ => ?_) fun _ => ?_))
  · exact Settles.pure (answered rfl rfl rfl)
  · cases trans.command with
    | read => exact Settles.pure (answered rfl rfl rfl)
    | write => exact Settles.bind (Settles.modify (Settles.pure (answered rfl rfl rfl)))

theorem symbolicSensor_settles {faults : Fault → Prop} (input : P.clover.terms.Assignment)
    (trans : Payload P.clover.terms) (ready : board.Ready core) :
    Settles faults (fun answer after => Answered core refused inner trans.command board answer.2 after)
      (SymbolicSensor.transport input trans board.localTime) board := by
  have answered : ∀ {command : Command} (sensor : SensorRegisters),
      Answered core refused inner command board board.localTime { board with sensor := sensor } :=
    fun _ => .of_same ready rfl rfl rfl (Nat.le_refl _) (Nat.le_add_right _ _)
  have failed : ∀ {command : Command},
      Answered core refused inner command board board.localTime board := answered board.sensor
  refine Settles.bind (Settles.get (Settles.ite (fun _ => Settles.pure failed) fun _ => ?_))
  cases trans.command with
  | read =>
      refine Settles.ite (fun _ => Settles.pure failed) fun _ => ?_
      refine Settles.bind (Settles.emit (Settles.bind (Settles.modify ?_)))
      exact Settles.pure (answered _)
  | write =>
      dsimp only
      split
      · exact Settles.pure failed
      · exact Settles.bind (Settles.modify (Settles.pure (answered _)))

theorem symbolicUart_settles (trans : Payload P.clover.terms) (ready : board.Ready core)
    (served : ((SymbolicUart.find trans.address.toNat).isNone ||
      decide (4 < trans.data.length + trans.address.toNat % 4)) = true → refused) :
    Settles (AccessThrows refused translated)
      (fun answer after => Answered core refused inner trans.command board answer.2 after)
      (SymbolicUart.transport trans board.localTime) board := by
  have answered : ∀ {command : Command} (uart : UartRegisters P.clover.terms)
      (world : P.world.State), Answered core refused inner command board board.localTime
        { board with uart := uart, world := world } :=
    fun _ _ => .of_same ready rfl rfl rfl (Nat.le_refl _) (Nat.le_add_right _ _)
  unfold SymbolicUart.transport
  dsimp only
  split
  · next missing =>
      have failed : refused := served (by rw [missing]; rfl)
      exact Settles.throw (.device failed ⟨_, .inr rfl⟩)
  · next register found =>
      refine Settles.bind (Settles.require (fun _ => ?_) fun long => ?_)
      · refine Settles.bind (Settles.get ?_)
        cases trans.command with
        | read =>
            refine Settles.bind (Settles.modify (Settles.bind (Settles.modify ?_)))
            exact Settles.pure (answered _ _)
        | write =>
            refine Settles.bind (Settles.modify (Settles.bind (Settles.modify ?_)))
            exact Settles.pure (answered _ _)
      · have failed : refused := served (by simp [Nat.lt_of_not_le long])
        exact .device failed (by simp [Fault.FromDevice, deviceAssertions])

theorem externalTransport_settles (device : Nat) (trans : Payload P.clover.terms)
    (ready : board.Ready core)
    (served : (match P.world.transport device board.world trans.command trans.address trans.data
          board.localTime with
        | none => true
        | some ((_, _, later), _, _) => decide (later < board.localTime) ||
            inner && decide (board.localTime + 10 < later)) = true → refused) :
    Settles (AccessThrows refused translated)
      (fun answer after => Answered core refused inner trans.command board answer.2 after)
      (externalTransport device trans board.localTime) board := by
  refine Settles.bind (Settles.get ?_)
  generalize P.world.transport device board.world trans.command trans.address trans.data
    board.localTime = answer at served ⊢
  match answer with
  | none => exact Settles.throw (.device (served rfl) trivial)
  | some ((response, data, later), world, signals) =>
      refine Settles.bind (Settles.modify (Settles.pure ?_))
      refine ⟨⟨ready.available, ready.untranslated⟩, fun _ => rfl, ?_⟩
      by_cases failed : refused
      · exact .inl failed
      · have intime := mt served failed
        simp only [Bool.or_eq_true, Bool.and_eq_true, decide_eq_true_eq, not_or, not_and,
          Nat.not_lt] at intime
        exact .inr intime

theorem writeCtrl_settles {faults : Fault → Prop} (ready : board.Ready core) :
    Settles faults (fun _ after => after.Ready core ∧ after.localTime = board.localTime)
      (SymbolicCtrl.writeCtrl : MemM P Unit) board := by
  have good : ∀ (shallExit : Bool) (ctrl : CtrlRegisters),
      Ready core { board with shallExit := shallExit, ctrl := ctrl } ∧
        board.localTime = board.localTime := fun _ _ =>
    ⟨⟨ready.available, ready.untranslated⟩, rfl⟩
  refine Settles.bind (Settles.get (Settles.bind (Settles.when (fun _ => ?_) fun _ => ?_)))
  · refine Settles.bind (Settles.emit (Settles.modify (Settles.bind ?_)))
    exact Settles.when (fun _ => Settles.modify (Settles.modify (good _ _)))
      fun _ => Settles.modify (good _ _)
  · refine Settles.bind (Settles.when (fun _ => ?_) fun _ => Settles.modify (good _ _))
    exact Settles.modify (Settles.modify (good _ _))

/-- The control device fails on its own account, or as the write it makes does. -/
theorem symbolicCtrl_settles {makeSymbolic : BitVec 32 → BitVec 32 → MemM P Unit}
    (marks : Board P → Bool) (trans : Payload P.clover.terms) (ready : board.Ready core)
    (callback : trans.command = .write →
      ∀ written : Board P, written.Ready core → (marks written = true → refused) →
        Settles (AccessThrows refused translated)
          (fun _ after =>
            after.Ready core ∧ (refused ∨ after.localTime ≤ written.localTime + 10))
          (makeSymbolic written.ctrl.addr written.ctrl.size) written)
    (served : (match SymbolicCtrl.route trans.address.toNat with
        | none => true
        | some register =>
            let offset := trans.address.toNat - register.start
            decide (4 < offset + trans.data.length) ||
              trans.command == .write && register == .size &&
                marks (ctrlWritten board register offset trans.data)) = true → refused) :
    Settles (AccessThrows refused translated)
      (fun answer after => Answered core refused inner trans.command board answer.2 after)
      (SymbolicCtrl.transport makeSymbolic trans board.localTime) board := by
  have written : ∀ {after : Board P}, after.Ready core →
      (refused ∨ after.localTime ≤ board.localTime + 10) →
      Answered core refused inner .write board (board.localTime + 10) after :=
    fun ready' timed =>
      ⟨ready', nofun, timed.imp_right fun intime => ⟨intime, fun _ => Nat.le_refl _⟩⟩
  unfold SymbolicCtrl.transport
  split
  · next missing =>
      have failed : refused := served (by rw [missing])
      exact Settles.throw (.device failed ⟨_, .inl rfl⟩)
  · next register found =>
      simp only [found] at served
      refine Settles.bind (Settles.require (fun short => ?_) fun long => ?_)
      · cases direction : trans.command with
        | read =>
            refine Settles.bind (Settles.get (Settles.pure ?_))
            exact .of_same ready rfl rfl rfl (Nat.le_add_right _ _) (Nat.le_refl _)
        | write =>
            refine Settles.bind (Settles.modify (Settles.bind ?_))
            let reached := ctrlWritten board register (trans.address.toNat - register.start)
              trans.data
            have ready' : reached.Ready core := ⟨ready.available, ready.untranslated⟩
            cases register with
            | addr =>
                refine Settles.pure (Settles.pure ?_)
                exact written ready' (.inr (Nat.le_add_right _ _))
            | size =>
                have marked : marks reached = true → refused := fun marks =>
                  served (by simp [direction, marks, reached])
                refine Settles.bind (Settles.get ?_)
                refine (callback direction reached ready' marked).mono ?_ fun _ => id
                rintro _ after ⟨ready'', timed⟩
                exact Settles.pure (written ready'' timed)
            | ctrl =>
                refine (writeCtrl_settles ready').mono ?_ fun _ => id
                rintro _ after ⟨ready'', same⟩
                refine Settles.pure (written ready'' (.inr ?_))
                rw [same]
                exact Nat.le_add_right _ _
      · have failed : refused := served (by simp [Nat.lt_of_not_le long])
        exact .device failed (by simp [Fault.FromDevice, deviceAssertions])

end Devices

/-- What a device refuses depends on the control registers, the time and the outside world. -/
theorem refuses_congr (input : P.clover.terms.Assignment) (depth : Nat) (inner : Bool)
    {before after : Board P} (ctrl : after.ctrl = before.ctrl) (world : after.world = before.world)
    (time : after.localTime = before.localTime) (trans : Payload P.clover.terms) :
    refuses input depth inner after trans = refuses input depth inner before trans := by
  induction depth generalizing inner before after trans with
  | zero => rfl
  | succ depth inductionHypothesis =>
      have written : ∀ register offset bytes,
          (ctrlWritten after register offset bytes).ctrl =
            (ctrlWritten before register offset bytes).ctrl := by
        intro register offset bytes
        simp only [ctrlWritten, ctrl]
      simp only [refuses, world, time, written]
      simp only [inductionHypothesis true (written _ _ _) world time]

/-! ## The bus -/

section Bus

variable (core : Core) (input : P.clover.terms.Assignment) (walkless : P.mmuMem = false)

include walkless

/-- The bus throws what the devices behind it throw, however deeply their writes nest. -/
theorem responds_nested (depth : Nat) :
    (SimpleBus.nested core input depth : Socket P).Responds core (refuses input depth) := by
  induction depth with
  | zero =>
      intro refused translated inner trans board ready served translates
      exact Settles.throw (.device (served rfl) trivial)
  | succ depth inductionHypothesis =>
      intro refused translated inner trans board ready served translates
      rw [refuses] at served
      unfold SimpleBus.nested SimpleBus.transport
      cases found : SimpleBus.decode P trans.address with
      | none =>
          refine Settles.pure ⟨ready, fun _ => rfl, .inr ⟨Nat.le_refl _, fun _ => ?_⟩⟩
          exact Nat.le_add_right _ _
      | some port =>
          simp only [found] at served
          obtain ⟨start, stop, target⟩ := port
          have told : ∀ {body : MemM P (Payload P.clover.terms × Nat)},
              Settles (AccessThrows refused translated)
                (fun answer after => Answered core refused inner trans.command board answer.2 after)
                body board →
              Settles (AccessThrows refused translated)
                (fun answer after => Answered core refused inner trans.command board answer.2 after) (do
                  Exec.when (target ≠ .memory ∧ trans.command = .write)
                    (Exec.emit (.concretized .peripheralData trans.isSymbolic))
                  body) board := fun settled =>
            Settles.bind (Settles.when (fun _ => Settles.emit settled) fun _ => settled)
          refine told ?_
          cases target with
          | memory => exact symbolicMemory_settles { trans with address := _ } ready
          | sensor => exact symbolicSensor_settles input { trans with address := _ } ready
          | uart => exact symbolicUart_settles { trans with address := _ } ready served
          | external device =>
              exact externalTransport_settles device { trans with address := _ } ready served
          | ctrl =>
              -- what the control device writes goes through the bus one level down
              let marks (written : Board P) : Bool :=
                refuses input depth true written (marking input written.ctrl)
              refine symbolicCtrl_settles marks { trans with address := _ } ready ?_ served
              intro direction written ready' marked
              refine Settles.bind (Settles.emit ?_)
              refine (symbolicStoreData_settles inductionHypothesis walkless ready' marked
                (translates direction)).mono ?_ fun _ => id
              exact fun _ after ⟨ready'', timed⟩ => ⟨ready'', timed.imp_right fun late => late rfl⟩

theorem responds_bus : (bus core input : Socket P).Responds core (refuses input P.depth) :=
  responds_nested core input walkless P.depth

/-! ## Atomic accesses -/

variable {board : Board P} {refused translated : Prop} {addr : ConcolicValue P.clover.terms 32}
  (ready : board.Ready core)

include ready

/-- Taking the lock changes nothing a device looks at. -/
theorem loadWord_settles (lock : Option (BitVec 32)) (lrAddr : Option Nat)
    (own : lock = some core.hartId)
    (served : refuses input P.depth false board (reading (addr.concrete.setWidth 64) 4) = true →
      refused)
    (translates : ¬Mmu.Bare core .store → translated) :
    Settles (AccessThrows refused translated)
      (fun _ after => after.Ready core ∧ after.lock = some core.hartId)
      (loadWord (bus core input) core addr) { board with lock := lock, lrAddr := lrAddr } := by
  let locked : Board P := { board with lock := lock, lrAddr := lrAddr }
  have ready' : locked.Ready core := ⟨.inr own, ready.untranslated⟩
  have same : ∀ sent, refuses input P.depth false locked sent =
      refuses input P.depth false board sent := refuses_congr input P.depth false rfl rfl rfl
  rw [← same] at served
  refine Settles.bind ((symbolicLoadData_settles (responds_bus core input walkless) walkless ready'
    served translates).mono ?_ fun _ => id)
  rintro _ after ⟨ready'', same⟩
  exact Settles.pure ⟨ready'', same.trans own⟩

theorem atomicLoadWord_settles
    (served : refuses input P.depth false board (reading (addr.concrete.setWidth 64) 4) = true →
      refused)
    (translates : ¬Mmu.Bare core .store → translated) :
    Settles (AccessThrows refused translated)
      (fun _ after => after.Ready core ∧ after.lock = some core.hartId)
      (atomicLoadWord (bus core input) core addr) board := by
  refine Settles.bind ((takeLock_settles ready).mono ?_ fun _ => id)
  rintro _ _ rfl
  exact loadWord_settles core input walkless ready _ _ rfl served translates

theorem atomicLoadReservedWord_settles (object : Nat)
    (served : refuses input P.depth false board (reading (addr.concrete.setWidth 64) 4) = true →
      refused)
    (translates : ¬Mmu.Bare core .store → translated) :
    Settles (AccessThrows refused translated) (fun _ after => after.Ready core)
      (atomicLoadReservedWord (bus core input) core object addr) board := by
  refine Settles.bind ((takeLock_settles ready).mono ?_ fun _ => id)
  rintro _ _ rfl
  refine Settles.bind (Settles.modify ?_)
  exact (loadWord_settles core input walkless ready _ _ rfl served translates).mono
    (fun _ _ good => good.1) fun _ => id

/-- A hart that holds the lock passes the assertion. -/
theorem atomicStoreWord_settles (own : board.lock = some core.hartId)
    {value : ConcolicValue P.clover.terms 32}
    (served : refuses input P.depth false board
      (writing (addr.concrete.setWidth 64) ⟨32, value⟩ 4) = true → refused)
    (translates : ¬Mmu.Bare core .store → translated) :
    Settles (AccessThrows refused translated) (fun _ after => after.Ready core)
      (atomicStoreWord (bus core input) core addr value) board := by
  refine Settles.bind (Settles.get (Settles.bind (Settles.require (fun _ => ?_) fun free => ?_)))
  · exact (symbolicStoreData_settles (responds_bus core input walkless) walkless ready served
      translates).mono (fun _ _ good => good.1) fun _ => id
  · exact absurd (by rw [isLockedBy, own, beq_self_eq_true]) free

theorem atomicStoreConditionalWord_settles (object : Nat)
    {value : ConcolicValue P.clover.terms 32}
    (served : board.isLockedBy core.hartId = true → board.lrAddr = some object →
      refuses input P.depth false board
        (writing (addr.concrete.setWidth 64) ⟨32, value⟩ 4) = true → refused)
    (translates : board.isLockedBy core.hartId = true → board.lrAddr = some object →
      ¬Mmu.Bare core .store → translated) :
    Settles (AccessThrows refused translated) (fun _ after => after.Ready core)
      (atomicStoreConditionalWord (bus core input) core object addr value) board := by
  refine Settles.bind (Settles.get (Settles.ite (fun own => ?_) fun _ => Settles.pure ready))
  refine Settles.ite (fun same => Settles.bind ?_) fun _ => Settles.bind ?_
  · refine (symbolicStoreData_settles (responds_bus core input walkless) walkless ready
      (served own same) (translates own same)).mono ?_ fun _ => id
    exact fun _ _ good => Settles.pure good.1
  · exact (unlock_settles ready).mono (fun _ _ good => Settles.pure good.1) fun _ => id

end Bus

end SymexVP
