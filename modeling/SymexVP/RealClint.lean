import SymexVP.RegisterRange

/-!
# The core local interrupt controller on real time

`RealCLINT` takes its time from the clock of the host. A write to a compare register starts
a `Timer` of the host for a value ahead, whose thread sleeps and then notifies the process
`interrupt`, which raises the lines of the harts whose compare values have been reached.
Nothing starts a timer again. Functions that look at the clock get the microseconds since
the controller was constructed.
-/

namespace SymexVP.RealClint

/-! ## The timer of the host -/

namespace Timer

/-- The largest `tv_nsec`. -/
def NS_MAX : BitVec 64 := 999999999

def US_MAX : BitVec 64 := NS_MAX / 1000

def LONG_MAX : BitVec 64 := 0x7fffffffffffffff

inductive Fault
  | assertion (text : String)
  deriving DecidableEq, Repr

inductive Event
  /-- `nanosleep` with no seconds and so many nanoseconds. -/
  | nanosleep (nsec : BitVec 64)
  /-- `ctx->fn(ctx->arg)`. -/
  | called
  deriving DecidableEq, Repr

abbrev TimerM := Exec Fault Unit Event

/-- `xnanosleep`: whether a signal has ended the sleep. -/
def xnanosleep (killed : Nat → Bool) (index : Nat) (nsec : BitVec 64) : TimerM Bool := do
  Exec.emit (.nanosleep nsec)
  pure (killed index)

/-- The loop of `callback`: what is left of the duration, and the number of sleeps, unless the
thread was told to stop. -/
def sleepLoop (killed : Nat → Bool) (index : Nat) (count : BitVec 64) :
    TimerM (Option (Nat × BitVec 64)) :=
  if US_MAX < count then do
    let stopped ← xnanosleep killed index NS_MAX
    if stopped then pure none else sleepLoop killed (index + 1) (count - US_MAX)
  else pure (some (index, count))
termination_by count.toNat
decreasing_by
  have positive : 0 < US_MAX.toNat := by decide
  have less := BitVec.lt_def.mp ‹US_MAX < count›
  rw [BitVec.toNat_sub_of_le (BitVec.le_def.mpr less.le)]
  omega

/-- `callback`. -/
def callback (killed : Nat → Bool) (duration : BitVec 64) : TimerM Unit := do
  match ← sleepLoop killed 0 duration with
  | none => pure ()
  | some (index, count) => do
      let ns := count * 1000
      Exec.require (count < ns) (.assertion "ns > count")
      Exec.require (ns ≤ LONG_MAX) (.assertion "ns <= LONG_MAX")
      let stopped ← xnanosleep killed index ns
      Exec.when (stopped = false) (Exec.emit .called)

end Timer

/-! ## The controller -/

structure State where
  msip : RegisterMemory
  mtimecmp : RegisterMemory
  mtime : RegisterMemory
  /-- The duration the timer of a hart was started with, unless it was paused since. -/
  timers : Nat → Option (BitVec 64)
  /-- What the harts were told last by `trigger_timer_interrupt`. -/
  timerLine : Nat → Bool

inductive Event
  | triggerTimerInterrupt (hart : Nat) (level : Bool)
  | triggerSoftwareInterrupt (hart : Nat) (level : Bool)
  deriving DecidableEq, Repr

abbrev RealClintM := Exec RegisterFault State Event

def State.time (clint : State) : BitVec 64 := clint.mtime.get 8 0

def State.compare (clint : State) (hart : Nat) : BitVec 64 := clint.mtimecmp.get 8 hart

/-- After the constructor. -/
def initial : State where
  msip _ := 0
  mtimecmp _ := 0
  mtime _ := 0
  timers _ := none
  timerLine _ := false

/-- From microseconds to ticks; the quotient is that of integers. -/
def DIVIDEND : BitVec 64 := 15625 / 512

def usecToTicks (usec : BitVec 64) : BitVec 64 := usec / DIVIDEND

def ticksToUsec (ticks : BitVec 64) : BitVec 64 := ticks * DIVIDEND

variable (numberOfCores : Nat) (now : BitVec 64)

def updateAndGetMtime : RealClintM (BitVec 64) := do
  Exec.modify fun clint => { clint with mtime := clint.mtime.set 8 0 (usecToTicks now) }
  let clint ← Exec.get
  pure clint.time

def triggerTimerInterrupt (hart : Nat) (level : Bool) : RealClintM Unit := do
  Exec.modify fun clint => { clint with timerLine := Function.update clint.timerLine hart level }
  Exec.emit (.triggerTimerInterrupt hart level)

/-- `timers.at(hart)->pause()` and `->start(duration)`. -/
def setTimer (hart : Nat) (duration : Option (BitVec 64)) : RealClintM Unit :=
  Exec.modify fun clint => { clint with timers := Function.update clint.timers hart duration }

def postWriteMtimecmp (address _size : Nat) : RealClintM Unit := do
  Exec.require (address % 4 = 0) (.assertion "info.addr % 4 == 0")
  let hart := address / 8
  Exec.require (hart < numberOfCores) .outOfRange
  let clint ← Exec.get
  let cmp := clint.compare hart
  let time ← updateAndGetMtime now
  setTimer hart none
  if cmp ≤ time then triggerTimerInterrupt hart true
  else do
    triggerTimerInterrupt hart false
    setTimer hart (some (ticksToUsec (cmp - time)))

def postWriteMsip (address _size : Nat) : RealClintM Unit := do
  Exec.require (address % 4 = 0) (.assertion "info.addr % 4 == 0")
  let hart := address / 4
  Exec.require (hart < numberOfCores) .outOfRange
  Exec.modify fun clint =>
    { clint with msip := clint.msip.set 4 hart (clint.msip.get 4 hart &&& 0x1) }
  let clint ← Exec.get
  Exec.emit (.triggerSoftwareInterrupt hart (clint.msip.get 4 hart != 0))

def preReadMtime (_address _size : Nat) : RealClintM Unit := do
  let _ ← updateAndGetMtime now
  pure ()

/-- The loop of `interrupt`. -/
def raiseReached : List Nat → RealClintM Unit
  | [] => pure ()
  | hart :: rest => do
      let clint ← Exec.get
      Exec.when (clint.compare hart ≤ clint.time) (triggerTimerInterrupt hart true)
      raiseReached rest

/-- The process, which runs for the notification of a timer. -/
def interrupt : RealClintM Unit := do
  let _ ← updateAndGetMtime now
  raiseReached (List.range numberOfCores)

def regsMtimecmp : RegisterRange State Event where
  start := 0x4000
  size := 8 * numberOfCores
  readonly := false
  alignment := 4
  mem := State.mtimecmp
  put mem clint := { clint with mtimecmp := mem }
  preRead _ _ := pure ()
  postWrite := postWriteMtimecmp numberOfCores now

def regsMsip : RegisterRange State Event where
  start := 0
  size := 4 * numberOfCores
  readonly := false
  alignment := 4
  mem := State.msip
  put mem clint := { clint with msip := mem }
  preRead _ _ := pure ()
  postWrite := postWriteMsip numberOfCores

/-- A write to the time has no effect on where it is taken from. -/
def regsMtime : RegisterRange State Event where
  start := 0xBFF8
  size := 8
  readonly := false
  alignment := 4
  mem := State.mtime
  put mem clint := { clint with mtime := mem }
  preRead := preReadMtime now
  postWrite _ _ := pure ()

def transport (access : BusAccess) : RealClintM (List (BitVec 8)) :=
  route "RealCLINT"
    [regsMtimecmp numberOfCores now, regsMsip numberOfCores, regsMtime now] access

end SymexVP.RealClint
