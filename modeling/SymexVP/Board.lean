import SymexVP.Exec
import SymexVP.Clover
import SymexVP.Csr

/-!
# The board a hart is connected to

Everything a hart reaches over its memory interface, and everything that reaches
the hart: the concolic memory, the two symbolic devices, the bus lock, the
translation cache, the interrupt lines and simulated time. The simulation kernel
and the devices that only exchange concrete bytes are a parameter, `World`: they
run whenever the hart waits or synchronises, answer transactions, and change the
interrupt lines.

What the simulator observes is recorded: the branches it traces, and each point at
which it takes the concrete part of a value and drops the symbolic one.
-/

namespace SymexVP

/-- How a simulated step can end early. A trap is handled by the hart; everything else
leaves the simulator. -/
inductive Fault
  /-- A thrown `SimulationTrap`. -/
  | trap (trap : SimulationTrap)
  /-- A thrown `std::runtime_error`. -/
  | runtimeError (message : String)
  /-- A failed `assert`. -/
  | assertion (text : String)
  /-- A thrown `boost::bad_lexical_cast`. -/
  | badLexicalCast
  /-- A wait for an event that no process ever notifies. -/
  | blocked
  /-- Calls nested deeper than the host's stack allows. -/
  | stackOverflow
  /-- A `std::runtime_error` or a failed `assert` of a device of the outside world. -/
  | deviceError
  deriving DecidableEq, Repr

/-- What the concrete part of a value is taken for. -/
inductive Use
  | address
  | jumpBase
  | csrSource
  | fetch
  | peripheralData
  | pageTable
  deriving DecidableEq, Repr

/-- A request for symbolic data: `make_symbolic` of a memory range, a read of the sensor's
value register, or an unconstrained field of the input format. -/
inductive Injection
  | memory (addr : BitVec 32)
  | sensor (nread : BitVec 64)
  | field (name : String)
  deriving DecidableEq, Repr

/-- The name the execution context is asked for. -/
def Injection.name : Injection → String
  | .memory addr => "memory<" ++ toString addr.toNat ++ ">"
  | .sensor nread => "SymbolicSensorValue" ++ toString nread.toNat
  | .field name => name

/-- What a run records. -/
inductive Event (terms : Terms)
  /-- `tracer.add(cond, expr, pc)`. -/
  | branch (taken : Bool) (expression : terms.Expr 1) (pc : BitVec 32)
  /-- The concrete part of a value was used; `symbolic` if the value had a symbolic part. -/
  | concretized (use : Use) (symbolic : Bool)
  /-- An interrupt was taken into the given mode. -/
  | interrupt (mode : PrivilegeLevel)
  /-- The software reported an error through the control register. -/
  | hostError
  /-- The execution context was asked for a symbolic variable. -/
  | injected (injection : Injection)

/-- A concolic value of a width only known at run time, as `std::shared_ptr` hands it around. -/
structure Concolic (terms : Terms) where
  width : Nat
  value : ConcolicValue terms width

namespace Concolic

variable {terms : Terms}

def isSymbolic (data : Concolic terms) : Bool := data.value.isSymbolic

/-- `Solver::BVCToBytes`: the low bytes of the concrete part. -/
def toBytes (data : Concolic terms) (bytes : Nat) : List (BitVec 8) :=
  (List.range bytes).map fun index => Clover.byteOf index data.value.concrete

/-- `Solver::BVC` of a byte buffer. -/
def ofBytes (bytes : List (BitVec 8)) : Concolic terms :=
  ⟨8 * bytes.length, .BVC (BitVec.ofNat _ (Clover.littleEndian bytes))⟩

@[simp] theorem length_toBytes (data : Concolic terms) (bytes : Nat) :
    (data.toBytes bytes).length = bytes := by
  simp [toBytes]

/-- The second value is the first one evaluated under `assignment`. -/
inductive Replays (assignment : terms.Assignment) : Concolic terms → Concolic terms → Prop
  | intro {width : Nat} {first second : ConcolicValue terms width}
      (replays : ConcolicValue.Replays assignment first second) :
      Replays assignment ⟨width, first⟩ ⟨width, second⟩

namespace Replays

variable {assignment : terms.Assignment} {first second : Concolic terms}

theorem isSymbolic (replays : Replays assignment first second) :
    second.isSymbolic = first.isSymbolic := by
  obtain ⟨same⟩ := replays
  exact same.isSymbolic

theorem width (replays : Replays assignment first second) : second.width = first.width := by
  obtain ⟨same⟩ := replays
  rfl

theorem toBytes (replays : Replays assignment first second) (plain : first.isSymbolic = false)
    (bytes : Nat) : second.toBytes bytes = first.toBytes bytes := by
  obtain ⟨same⟩ := replays
  simp only [Concolic.toBytes, same.concrete_eq plain]

theorem ofBytes (bytes : List (BitVec 8)) :
    Replays assignment (Concolic.ofBytes bytes) (Concolic.ofBytes bytes) :=
  ⟨.BVC _⟩

end Replays

end Concolic

/-! ## Transactions -/

inductive Command
  | read
  | write
  deriving DecidableEq, Repr

inductive Response
  | ok
  | addressError
  deriving DecidableEq, Repr

/-- `tlm_generic_payload` with the symbolic extension. -/
structure Payload (terms : Terms) where
  command : Command
  address : BitVec 64
  data : List (BitVec 8)
  response : Response
  extension : Option (Concolic terms)

/-- Whether the payload carries a value with a symbolic part. -/
def Payload.isSymbolic {terms : Terms} (trans : Payload terms) : Bool :=
  trans.extension.any (·.isSymbolic)

/-! ## The outside world -/

/-- The calls devices make into the hart: `trigger_external_interrupt`,
`clear_external_interrupt`, `trigger_timer_interrupt` and `trigger_software_interrupt`. -/
inductive Signal
  | triggerExternal (level : PrivilegeLevel)
  | clearExternal (level : PrivilegeLevel)
  | timer (status : Bool)
  | software (status : Bool)
  deriving DecidableEq, Repr

namespace Signal

/-- The external-interrupt bit of a privilege level; other levels have none. -/
def externalBit (level : PrivilegeLevel) : Option (BitFields.BitField 32) :=
  if level = userMode then some Mip.ueip
  else if level = supervisorMode then some Mip.seip
  else if level = machineMode then some Mip.meip
  else none

/-- The effect of a call on `mip`. -/
def apply (mip : BitVec 32) : Signal → BitVec 32
  | .triggerExternal level =>
      match externalBit level with
      | some field => field.set mip 1
      | none => mip
  | .clearExternal level =>
      match externalBit level with
      | some field => field.set mip 0
      | none => mip
  | .timer status => Mip.mtip.set mip (if status then 1 else 0)
  | .software status => Mip.msip.set mip (if status then 1 else 0)

end Signal

/-- The simulation kernel and the devices that see concrete bytes only. -/
structure World where
  State : Type
  /-- `quantum_keeper.need_sync()` for a local time offset. -/
  needSync : State → Nat → Bool
  /-- `quantum_keeper.sync()`: the other processes run for the local time offset. -/
  sync : State → Nat → State × List Signal
  /-- `sc_core::wait(wfi_event)`, if some process notifies it. -/
  waitWfi : State → Option (State × List Signal)
  /-- Waiting for another owner of the bus lock to give it up, if it ever does. -/
  waitUnlocked : State → Option (State × List Signal)
  /-- `clint->update_and_get_mtime()`. -/
  updateAndGetMtime : State → BitVec 64 × State
  /-- The symbolic UART notifies its event, after some time or not at all, and this is whether
  its `interrupt` process would now trigger the gateway of the interrupt controller. -/
  notifyUart : State → Option Nat → Bool → State
  /-- A transaction with device number `device`: the response, the bytes read and the delay,
  unless the device throws. -/
  transport : (device : Nat) → State → Command → BitVec 64 → List (BitVec 8) → Nat →
    Option ((Response × List (BitVec 8) × Nat) × State × List Signal)

/-- What a bus port leads to. -/
inductive Target
  | memory
  | ctrl
  | sensor
  | uart
  | external (device : Nat)
  deriving DecidableEq, Repr

/-- `PortMapping` and the socket it is bound to. -/
structure Port where
  start : BitVec 64
  stop : BitVec 64
  target : Target

/-- How a platform is wired. -/
structure Platform where
  clover : Clover
  world : World
  ports : List Port
  /-- Size of the symbolic memory in bytes. -/
  memSize : BitVec 64
  /-- The memory interface has a translation unit. -/
  hasMmu : Bool
  /-- The translation unit was given a memory interface for its page walks. -/
  mmuMem : Bool
  pageFaultOnAD : Bool
  /-- How deeply device callbacks can nest before the host's stack is exhausted. -/
  depth : Nat

inductive MemoryAccessType
  | fetch
  | load
  | store
  deriving DecidableEq, Repr

structure TlbEntry where
  ppn : BitVec 64
  vpn : BitVec 64

/-- The registers of `SymbolicCTRL`. -/
structure CtrlRegisters where
  addr : BitVec 32
  size : BitVec 32
  ctrl : BitVec 32

/-- The registers of `SymbolicSensor`. -/
structure SensorRegisters where
  lowerBound : BitVec 32
  upperBound : BitVec 32
  nread : BitVec 64

/-- The registers of `SymbolicUART` and the bytes it has yet to deliver. -/
structure UartRegisters (terms : Terms) where
  txdata : BitVec 32
  rxdata : BitVec 32
  txctrl : BitVec 32
  rxctrl : BitVec 32
  ie : BitVec 32
  ip : BitVec 32
  div : BitVec 32
  rxFifo : List (ConcolicValue terms 8)

/-- The state behind a hart's memory interface, with the two fields of the hart that other
modules write: the pending interrupts and the exit request. -/
structure Board (P : Platform) where
  memory : P.clover.Memory
  ctrl : CtrlRegisters
  sensor : SensorRegisters
  uart : UartRegisters P.clover.terms
  /-- The hart that holds the bus lock. -/
  lock : Option (BitVec 32)
  /-- The object the last load-reserved took its address from. -/
  lrAddr : Option Nat
  tlb : PrivilegeLevel → MemoryAccessType → Nat → TlbEntry
  mip : BitVec 32
  shallExit : Bool
  /-- `quantum_keeper.get_local_time()` in nanoseconds. -/
  localTime : Nat
  world : P.world.State

/-- Computations behind the memory interface. -/
abbrev MemM (P : Platform) (α : Type) := Exec Fault (Board P) (Event P.clover.terms) α

/-- `raise_trap`. -/
def raiseTrap {σ ω α : Type} (reason : ExceptionCode) (mtval : Nat) : Exec Fault σ ω α :=
  .throw (.trap ⟨reason, mtval⟩)

namespace Board

variable {P : Platform}

/-- Devices call into the hart. -/
def signalled (board : Board P) (world : P.world.State) (signals : List Signal) : Board P :=
  { board with world := world, mip := signals.foldl Signal.apply board.mip }

/-- Wait for other processes, which may never let the hart continue. -/
def waitFor (wait : P.world.State → Option (P.world.State × List Signal)) : MemM P Unit := do
  let board ← Exec.get
  match wait board.world with
  | some (world, signals) => Exec.modify fun board => board.signalled world signals
  | none => Exec.throw .blocked

/-- `quantum_keeper.inc`. -/
def inc (time : Nat) : MemM P Unit :=
  Exec.modify fun board => { board with localTime := board.localTime + time }

/-- `quantum_keeper.sync`. -/
def synchronise : MemM P Unit :=
  Exec.modify fun board =>
    { board.signalled (P.world.sync board.world board.localTime).1
        (P.world.sync board.world board.localTime).2 with localTime := 0 }

/-- `solver.getValue` of the concrete part of a value. -/
def getValue {width : Nat} (use : Use) (value : ConcolicValue P.clover.terms width) :
    MemM P (BitVec width) := do
  Exec.emit (.concretized use value.isSymbolic)
  pure value.concrete

/-! ## The bus lock -/

/-- `BusLock::is_locked(hart)`. -/
def isLockedBy (board : Board P) (hart : BitVec 32) : Bool := board.lock == some hart

/-- `BusLock::wait_until_unlocked`: returns once the owner has given the lock up. -/
def waitUntilUnlocked : MemM P Unit := do
  waitFor P.world.waitUnlocked
  Exec.modify fun board => { board with lock := none }

/-- `wait_for_access_rights`: a lock held by another hart makes this one wait. -/
def waitForAccessRights (hart : BitVec 32) : MemM P Unit := do
  let board ← Exec.get
  Exec.when (board.lock.isSome ∧ ¬board.isLockedBy hart) waitUntilUnlocked

/-- `BusLock::lock`. -/
def takeLock (hart : BitVec 32) : MemM P Unit := do
  waitForAccessRights hart
  Exec.modify fun board => { board with lock := some hart }

/-- `BusLock::unlock`: only the owner's request has an effect. -/
def unlock (hart : BitVec 32) : MemM P Unit :=
  Exec.modify fun board =>
    if board.isLockedBy hart then { board with lock := none } else board

end Board

end SymexVP
