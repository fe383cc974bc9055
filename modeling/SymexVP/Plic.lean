import SymexVP.ActionRuns
import SymexVP.RegisterRange

/-!
# The platform-level interrupt controller

`FE310_PLIC` keeps pending and enable bits packed into words, a priority for each
interrupt, and a threshold and a claim register for each hart. A gateway sets a pending
bit and notifies the process `run`, which raises the lines of the harts that have
something to claim. Reading a claim register arbitrates between the pending interrupts
and clears the bit of the winner; writing it re-evaluates the line.

Indices are taken as the functions of the source compute them, and an access beyond an
array is a fault of its own.
-/

namespace SymexVP.Plic

/-- The template parameters with their static assertions. A range of size zero is refused by
its constructor. -/
structure Config where
  numberCores : Nat
  numberInterrupts : Nat
  numberInterruptEntries : Nat
  maxPriority : BitVec 32
  interruptsBound : numberInterrupts ≤ 4096
  coresBound : numberCores ≤ 15360
  coresPositive : 0 < numberCores
  entriesPositive : 0 < numberInterruptEntries

structure State where
  interruptPriorities : RegisterMemory
  pendingInterrupts : RegisterMemory
  hartEnabledInterrupts : RegisterMemory
  hartConfig : RegisterMemory
  hartEip : Nat → Bool
  /-- A notification of `e_run` is pending. -/
  eRun : Bool

/-- What the controller does that others see. -/
inductive Event
  /-- `gateway_trigger_interrupt`. -/
  | gateway (id : Nat)
  /-- A claim register was read; the pending interrupt is cleared. -/
  | claimed (id : Nat)
  | triggerExternalInterrupt (hart : Nat)
  | clearExternalInterrupt (hart : Nat)
  /-- The data of a read access. -/
  | answered (data : List (BitVec 8))
  deriving DecidableEq

abbrev PlicM := Exec RegisterFault State Event

/-! ## Views of the registers -/

def State.priority (plic : State) (id : Nat) : Nat := (plic.interruptPriorities.get 4 id).toNat

def State.pending (plic : State) (id : Nat) : Bool :=
  (plic.pendingInterrupts.get 4 (id / 32)).getLsbD (id % 32)

/-- `hart_enabled_interrupts(hart_id, idx)`: the view's rows have its default size, one. -/
def enableWord (hart word : Nat) : Nat := hart * 1 + word

def State.enabled (plic : State) (hart id : Nat) : Bool :=
  (plic.hartEnabledInterrupts.get 4 (enableWord hart (id / 32))).getLsbD (id % 32)

/-- The two words of a `HartConfig`. -/
def State.priorityThreshold (plic : State) (hart : Nat) : Nat :=
  (plic.hartConfig.get 4 (2 * hart)).toNat

def State.claimResponse (plic : State) (hart : Nat) : BitVec 32 :=
  plic.hartConfig.get 4 (2 * hart + 1)

variable (config : Config)

/-- An index into an array of a size. -/
def checkIndex (size index : Nat) : PlicM Unit := Exec.require (index < size) .outOfRange

/-- The constructor. -/
def initial : State where
  interruptPriorities address :=
    if address / 4 < config.numberInterrupts ∧ address % 4 = 0 then 1 else 0
  pendingInterrupts _ := 0
  hartEnabledInterrupts _ := 0
  hartConfig _ := 0
  hartEip _ := false
  eRun := false

/-! ## Gateway and arbitration -/

/-- Change the pending word an interrupt is in. -/
def updatePending (id : Nat) (change : BitVec 32 → BitVec 32) (plic : State) : State :=
  { plic with
    pendingInterrupts :=
      plic.pendingInterrupts.set 4 (id / 32) (change (plic.pendingInterrupts.get 4 (id / 32))) }

def setPending (id : Nat) : State → State :=
  updatePending id fun word => word ||| (1#32 <<< (id % 32))

def unsetPending (id : Nat) : State → State :=
  updatePending id fun word => word &&& ~~~(1#32 <<< (id % 32))

def gatewayTriggerInterrupt (id : Nat) : PlicM Unit := do
  Exec.require (0 < id ∧ id < config.numberInterrupts)
    (.assertion "irq_id > 0 && irq_id < NumberInterrupts")
  checkIndex config.numberInterruptEntries (id / 32)
  Exec.emit (.gateway id)
  Exec.modify (setPending id)
  Exec.modify fun plic => { plic with eRun := true }

def clearPendingInterrupt (id : Nat) : PlicM Unit := do
  Exec.require (id < config.numberInterrupts) (.assertion "irq_id < NumberInterrupts")
  checkIndex config.numberInterruptEntries (id / 32)
  Exec.modify (unsetPending id)

/-- The conditions of the loop in `hart_get_next_pending_interrupt` on one interrupt, in the
order in which they are evaluated. -/
def eligible (hart : Nat) (considerThreshold : Bool) (id : Nat) : PlicM Bool := do
  checkIndex (config.numberInterruptEntries * config.numberCores) (enableWord hart (id / 32))
  let plic ← Exec.get
  if plic.enabled hart id then do
    checkIndex config.numberInterruptEntries (id / 32)
    if plic.pending id then do
      checkIndex (config.numberInterrupts + 1) id
      if 0 < plic.priority id then
        if considerThreshold then do
          checkIndex config.numberCores hart
          pure (decide (plic.priorityThreshold hart < plic.priority id))
        else pure true
      else pure false
    else pure false
  else pure false

/-- The loop, from `min_id` and `max_priority` as they are. -/
def scan (hart : Nat) (considerThreshold : Bool) : List Nat → Nat × Nat → PlicM (Nat × Nat)
  | [], best => pure best
  | id :: rest, best => do
      let found ← eligible config hart considerThreshold id
      let plic ← Exec.get
      scan hart considerThreshold rest
        (if found ∧ best.2 < plic.priority id then (id, plic.priority id) else best)

def hartGetNextPendingInterrupt (hart : Nat) (considerThreshold : Bool) : PlicM Nat := do
  let best ← scan config hart considerThreshold (List.range' 1 (config.numberInterrupts - 1)) (0, 0)
  pure best.1

def hartHasPendingEnabledInterrupts (hart : Nat) : PlicM Bool := do
  let next ← hartGetNextPendingInterrupt config hart true
  pure (decide (0 < next))

/-! ## Callbacks -/

/-- `std::min` with the greatest priority. -/
def clamp (priority : BitVec 32) : BitVec 32 :=
  if config.maxPriority < priority then config.maxPriority else priority

/-- The loop ends in front of the last element, since the view's `end` points to it. -/
def postWriteInterruptPriorities (_address _size : Nat) : PlicM Unit :=
  Exec.modify fun plic =>
    { plic with
      interruptPriorities := (List.range config.numberInterrupts).foldl
        (fun mem id => mem.set 4 id (clamp config (mem.get 4 id)))
        plic.interruptPriorities }

def preReadHartConfig (address size : Nat) : PlicM Unit := do
  Exec.require (address % 4 = 0) (.assertion "t.addr % 4 == 0")
  let idx := address / 4
  Exec.when (idx % 2 = 1) do
    Exec.require (size = 4) (.assertion "t.size == 4")
    let idx := idx - 1
    let minId ← hartGetNextPendingInterrupt config 0 false
    checkIndex config.numberCores idx
    Exec.modify fun plic =>
      { plic with hartConfig := plic.hartConfig.set 4 (2 * idx + 1) (BitVec.ofNat 32 minId) }
    clearPendingInterrupt config minId
    Exec.emit (.claimed minId)

def setEip (hart : Nat) (value : Bool) (plic : State) : State :=
  { plic with hartEip := fun other => if other = hart then value else plic.hartEip other }

def postWriteHartConfig (address size : Nat) : PlicM Unit := do
  Exec.require (address % 4 = 0) (.assertion "t.addr % 4 == 0")
  let idx := address / 4
  Exec.when (idx % 2 = 1) do
    Exec.require (size = 4) (.assertion "t.size == 4")
    let idx := idx - 1
    let again ← hartHasPendingEnabledInterrupts config idx
    checkIndex config.numberCores idx
    let plic ← Exec.get
    if again then do
      Exec.require (plic.hartEip idx = true) (.assertion "hart_eip[idx]")
      Exec.emit (.triggerExternalInterrupt idx)
    else do
      Exec.modify (setEip idx false)
      Exec.emit (.clearExternalInterrupt idx)

/-! ## The bus and the process -/

def regsInterruptPriorities : RegisterRange State Event where
  start := 0x0
  size := 4 * (config.numberInterrupts + 1)
  readonly := false
  alignment := 1
  mem := State.interruptPriorities
  put mem plic := { plic with interruptPriorities := mem }
  preRead _ _ := pure ()
  postWrite := postWriteInterruptPriorities config

def regsPendingInterrupts : RegisterRange State Event where
  start := 0x1000
  size := 4 * config.numberInterruptEntries
  readonly := true
  alignment := 1
  mem := State.pendingInterrupts
  put mem plic := { plic with pendingInterrupts := mem }
  preRead _ _ := pure ()
  postWrite _ _ := pure ()

def regsHartEnabledInterrupts : RegisterRange State Event where
  start := 0x2000
  size := 4 * config.numberInterruptEntries * config.numberCores
  readonly := false
  alignment := 1
  mem := State.hartEnabledInterrupts
  put mem plic := { plic with hartEnabledInterrupts := mem }
  preRead _ _ := pure ()
  postWrite _ _ := pure ()

def regsHartConfig : RegisterRange State Event where
  start := 0x200000
  size := 8 * config.numberCores
  readonly := false
  alignment := 4
  mem := State.hartConfig
  put mem plic := { plic with hartConfig := mem }
  preRead := preReadHartConfig config
  postWrite := postWriteHartConfig config

def registerRanges : List (RegisterRange State Event) :=
  [regsInterruptPriorities config, regsPendingInterrupts config, regsHartEnabledInterrupts config,
    regsHartConfig config]

def transport (access : BusAccess) : PlicM (List (BitVec 8)) :=
  route "FE310_PLIC" (registerRanges config) access

/-- The body of the loop in `run` for one hart. -/
def raise (hart : Nat) : PlicM Unit := do
  let plic ← Exec.get
  Exec.when (plic.hartEip hart = false) do
    let found ← hartHasPendingEnabledInterrupts config hart
    Exec.when (found = true) do
      Exec.modify (setEip hart true)
      Exec.emit (.triggerExternalInterrupt hart)

def raiseAll : List Nat → PlicM Unit
  | [] => pure ()
  | hart :: rest => do
      raise config hart
      raiseAll rest

/-- One round of `run`, for the notification that has become due. -/
def run : PlicM Unit := do
  Exec.modify fun plic => { plic with eRun := false }
  raiseAll config (List.range config.numberCores)

inductive Action
  | trigger (id : Nat)
  | access (access : BusAccess)
  | run

/-- What an action does; a fault ends the simulation. -/
def act : Action → PlicM Unit
  | .trigger id => gatewayTriggerInterrupt config id
  | .access (.read address count) => do
      let data ← transport config (.read address count)
      Exec.emit (.answered data)
  | .access (.write address data) => do
      let _ ← transport config (.write address data)
      pure ()
  | .run => do
      let plic ← Exec.get
      -- The process waits for the event.
      Exec.when (plic.eRun = true) (run config)

/-- The steps of the controller, for every order of triggers, accesses and runs. -/
def step (plic : State) (action : Action) : Option (State × List Event) :=
  match (act config action).run plic with
  | ⟨.ok _, next, events⟩ => some (next, events)
  | ⟨.error _, _, _⟩ => none

end SymexVP.Plic
