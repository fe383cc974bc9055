import SymexVP.ActionRuns
import SymexVP.RegisterRange

/-!
# The core local interrupt controller

`CLINT` keeps the time and a compare register for each hart. Its process `run` waits for
`irq_event`, brings `mtime` up to the simulation's time, sets the timer line of every
hart, and notifies itself for the compare values that lie ahead. Bus accesses come with a
local time of their initiator on top of the simulation's time. Times are in picoseconds.

An event keeps one pending notification: a new one replaces it if it is earlier. When
its time has come the process is woken, and it runs before time goes on; other processes
may run before it does.
-/

namespace SymexVP.Clint

/-- From picoseconds to microseconds. -/
def scaler : Nat := 1000000

/-- Two clock cycles, the time a bus access takes. -/
def accessTime : Nat := 20000

structure State where
  mtime : RegisterMemory
  mtimecmp : RegisterMemory
  msip : RegisterMemory
  /-- `sc_time_stamp()`. -/
  timeStamp : Nat
  /-- When the pending notification of `irq_event` is due. -/
  irqEvent : Option Nat
  /-- The event has been triggered and `run` has not run yet. -/
  woken : Bool
  /-- What the harts were told last by `trigger_timer_interrupt`. -/
  timerLine : Nat → Bool
  /-- The local time of the last write to a compare register. -/
  lastWrite : Nat

inductive Event
  /-- The value of `mtime` when it is read over the bus or returned to a hart. -/
  | observed (value : BitVec 64)
  | triggerTimerInterrupt (hart : Nat) (level : Bool)
  | triggerSoftwareInterrupt (hart : Nat) (level : Bool)
  /-- The loop in `run` has ended. -/
  | ran
  deriving DecidableEq

abbrev ClintM := Exec RegisterFault State Event

/-- The views of the registers. -/
def State.time (clint : State) : BitVec 64 := clint.mtime.get 8 0

def State.compare (clint : State) (hart : Nat) : BitVec 64 := clint.mtimecmp.get 8 hart

def setTime (value : BitVec 64) (clint : State) : State :=
  { clint with mtime := clint.mtime.set 8 0 value }

def initial : State where
  mtime _ := 0
  mtimecmp _ := 0
  msip _ := 0
  timeStamp := 0
  irqEvent := none
  woken := false
  timerLine _ := false
  lastWrite := 0

/-- `irq_event.notify(delay)`. -/
def notify (delay : Nat) (clint : State) : State :=
  let due := clint.timeStamp + delay
  { clint with
    irqEvent := some (match clint.irqEvent with
      | none => due
      | some earlier => min earlier due) }

/-! ## Time -/

/-- `value()` of a time, which has 64 bits, in the resolution of `mtime`. -/
def ticks (time : Nat) : BitVec 64 := BitVec.ofNat 64 (time % 2 ^ 64 / scaler)

def updateAndGetMtime : ClintM (BitVec 64) := do
  let clint ← Exec.get
  Exec.when (clint.time < ticks clint.timeStamp) (Exec.modify (setTime (ticks clint.timeStamp)))
  let clint ← Exec.get
  pure clint.time

/-! ## The process -/

def triggerTimerInterrupt (hart : Nat) (level : Bool) : ClintM Unit := do
  Exec.modify fun clint =>
    { clint with timerLine := fun other => if other = hart then level else clint.timerLine other }
  Exec.emit (.triggerTimerInterrupt hart level)

/-- `goal - time`. -/
def untilGoal (cmp mtime : BitVec 64) : Nat :=
  (cmp * BitVec.ofNat 64 scaler - mtime * BitVec.ofNat 64 scaler).toNat

/-- The loop of `run` on one hart. -/
def evaluate (hart : Nat) : ClintM Unit := do
  let clint ← Exec.get
  let cmp := clint.compare hart
  if 0 < cmp ∧ cmp ≤ clint.time then triggerTimerInterrupt hart true
  else do
    triggerTimerInterrupt hart false
    Exec.when (0 < cmp ∧ cmp < BitVec.allOnes 64) (Exec.modify (notify (untilGoal cmp clint.time)))

def evaluateAll : List Nat → ClintM Unit
  | [] => pure ()
  | hart :: rest => do
      evaluate hart
      evaluateAll rest

variable (numberOfCores : Nat)

/-- One round of `run`. -/
def run : ClintM Unit := do
  Exec.modify fun clint => { clint with woken := false }
  let _ ← updateAndGetMtime
  evaluateAll (List.range numberOfCores)
  Exec.emit .ran

/-! ## Callbacks and the bus -/

def preReadMtime (delay : Nat) (_address _size : Nat) : ClintM Unit := do
  let clint ← Exec.get
  let now := ticks (clint.timeStamp + delay)
  Exec.modify (setTime now)
  Exec.emit (.observed now)

def postWriteMtimecmp (delay : Nat) (_address _size : Nat) : ClintM Unit :=
  Exec.modify fun clint =>
    { notify delay clint with lastWrite := clint.timeStamp + delay }

def postWriteMsip (address _size : Nat) : ClintM Unit := do
  Exec.require (address % 4 = 0) (.assertion "t.addr % 4 == 0")
  let idx := address / 4
  Exec.require (idx < numberOfCores) .outOfRange
  Exec.modify fun clint => { clint with msip := clint.msip.set 4 idx (clint.msip.get 4 idx &&& 0x1) }
  let clint ← Exec.get
  Exec.emit (.triggerSoftwareInterrupt idx (clint.msip.get 4 idx != 0))

def regsMtime (delay : Nat) : RegisterRange State Event where
  start := 0xBFF8
  size := 8
  readonly := false
  alignment := 4
  mem := State.mtime
  put mem clint := { clint with mtime := mem }
  preRead := preReadMtime delay
  postWrite _ _ := pure ()

def regsMtimecmp (delay : Nat) : RegisterRange State Event where
  start := 0x4000
  size := 8 * numberOfCores
  readonly := false
  alignment := 4
  mem := State.mtimecmp
  put mem clint := { clint with mtimecmp := mem }
  preRead _ _ := pure ()
  postWrite := postWriteMtimecmp delay

def regsMsip : RegisterRange State Event where
  start := 0x0
  size := 4 * numberOfCores
  readonly := false
  alignment := 4
  mem := State.msip
  put mem clint := { clint with msip := mem }
  preRead _ _ := pure ()
  postWrite := postWriteMsip numberOfCores

def registerRanges (delay : Nat) : List (RegisterRange State Event) :=
  [regsMtime delay, regsMtimecmp numberOfCores delay, regsMsip numberOfCores]

/-- `transport`, for an initiator whose local time is `delay` ahead. -/
def transport (delay : Nat) (access : BusAccess) : ClintM (List (BitVec 8)) :=
  route "CLINT" (registerRanges numberOfCores (delay + accessTime)) access

/-! ## Steps -/

inductive Action
  /-- Time goes on, up to what SystemC can represent. -/
  | advance (duration : Nat)
  | access (delay : Nat) (access : BusAccess)
  /-- A hart reads its time register. -/
  | readTime
  /-- The pending notification is due. -/
  | wake
  | run

def act : Action → ClintM Unit
  | .advance duration => Exec.modify fun clint => { clint with timeStamp := clint.timeStamp + duration }
  | .access delay access => do
      let _ ← transport numberOfCores delay access
      pure ()
  | .readTime => do
      let value ← updateAndGetMtime
      Exec.emit (.observed value)
  | .wake => Exec.modify fun clint => { clint with irqEvent := none, woken := true }
  | .run => run numberOfCores

/-- Time goes on only while the process has nothing to do, and not past a notification. -/
def enabled (clint : State) : Action → Bool
  | .advance duration =>
      !clint.woken && decide (clint.timeStamp + duration < 2 ^ 64) &&
        clint.irqEvent.all (clint.timeStamp + duration ≤ ·)
  | .wake => !clint.woken && clint.irqEvent == some clint.timeStamp
  | .run => clint.woken
  | _ => true

def step (clint : State) (action : Action) : Option (State × List Event) :=
  if enabled clint action then
    match (act numberOfCores action).run clint with
    | ⟨.ok _, next, events⟩ => some (next, events)
    | ⟨.error _, _, _⟩ => none
  else none

end SymexVP.Clint
