import SymexVP.ActionRuns
import Mathlib.Logic.Function.Basic

/-!
# Initiators that share a bus lock

Any number of harts, each with its own memory interface and its own `lr_addr`, and any
number of write connectors for peripherals. The lock is taken by a load-reserved and by an
atomic memory operation, and given up in many places. What a function does with the lock,
with `lr_addr` and with the memory is written as the list of its calls; a hart at work
has a list of calls it has yet to make.

Processes are cooperative: the one that runs goes on until it waits for the lock, waits for
an interrupt, or synchronises its quantum. Everything a call depends on besides the lock
(whether an access traps, how a page walk goes, whether the quantum is used up) is chosen
by the action, and so is the process that goes on.
-/

namespace SymexVP.BusLock

abbrev HartId := BitVec 32

/-- `BusLock`. -/
structure Lock where
  locked : Bool
  owner : HartId
  deriving DecidableEq

namespace Lock

/-- `is_locked(hart_id)`. -/
def isLockedBy (lock : Lock) (hart : HartId) : Bool := lock.locked && lock.owner == hart

/-- `unlock`. -/
def unlock (lock : Lock) (hart : HartId) : Lock :=
  if lock.isLockedBy hart then { lock with locked := false } else lock

end Lock

/-- What an access to the memory belongs to. The address of a load-reserved and of a
store-conditional is the object the register points to; `lr_addr` is compared with it as an
object, so that the same object stands for the same address. -/
inductive Purpose
  | plain
  | pageTable
  | reserved (object : Nat)
  | conditional (object : Nat)
  | amo
  deriving DecidableEq

/-- Who accesses the memory. -/
inductive Initiator (π : Type)
  | hart (hart : HartId)
  | peripheral (connector : π)
  deriving DecidableEq

inductive Event (π : Type)
  | loaded (hart : HartId) (purpose : Purpose)
  | stored (initiator : Initiator π) (purpose : Purpose)
  /-- `assert(!locked || (hart_id == owner))` fails. -/
  | assertionFailed (hart : HartId)
  deriving DecidableEq

/-! ## What functions do with the lock -/

/-- How the walk of page tables goes: it reads an entry on each level, and may store the last
one with its flags set. There are no levels where the address is not translated. -/
structure Walk where
  levels : Nat
  update : Bool
  deriving DecidableEq

inductive Call
  /-- `wait_for_access_rights`; the wait in `lock` is the same. -/
  | waitForAccessRights
  | waitUntilUnlocked
  /-- The part of `lock` behind the wait. -/
  | lock
  | unlock
  /-- `assert(bus_lock->is_locked(hart))`. -/
  | assertLocked
  | setLrAddr (object : Nat)
  | load (purpose : Purpose)
  | store (purpose : Purpose)
  /-- `atomic_store_conditional_word`. -/
  | atomicStoreConditionalWord (object : Nat) (walk : Walk) (marks : List Walk)
  /-- Set `lr_sc_counter`, if it is zero. -/
  | startCounter
  | clearCounter
  /-- Count down, and release the reservation at zero. -/
  | countDown
  /-- `quantum_keeper.sync()`, if it is needed and the counter is zero. -/
  | sync (needed : Bool)
  /-- `sc_core::wait(wfi_event)`. -/
  | waitWfi
  deriving DecidableEq

def concreteLoadData (purpose : Purpose) : List Call := [.waitForAccessRights, .load purpose]

def concreteStoreData (purpose : Purpose) : List Call :=
  [.waitForAccessRights, .store purpose, .unlock]

def v2p (walk : Walk) : List Call :=
  (List.replicate walk.levels (concreteLoadData .pageTable)).flatten ++
    if walk.update then concreteStoreData .pageTable else []

def symbolicLoadData (purpose : Purpose) (walk : Walk) : List Call :=
  [.waitForAccessRights] ++ v2p walk ++ [.load purpose]

/-- A store to the control device makes that device store in turn, before it returns. -/
def symbolicStoreData (purpose : Purpose) (walk : Walk) : (marks : List Walk) → List Call
  | [] => [.waitForAccessRights] ++ v2p walk ++ [.store purpose, .unlock]
  | mark :: marks =>
      [.waitForAccessRights] ++ v2p walk ++ [.store purpose] ++
        symbolicStoreData .plain mark marks ++ [.unlock]

def loadInstr (walk : Walk) : List Call := v2p walk ++ concreteLoadData .plain

def lock : List Call := [.waitForAccessRights, .lock]

def atomicLoadWord (walk : Walk) : List Call := lock ++ symbolicLoadData .amo walk

def atomicStoreWord (walk : Walk) (marks : List Walk) : List Call :=
  [.assertLocked] ++ symbolicStoreData .amo walk marks

def atomicLoadReservedWord (object : Nat) (walk : Walk) : List Call :=
  lock ++ [.setLrAddr object] ++ symbolicLoadData (.reserved object) walk

def releaseLrScReservation : List Call := [.clearCounter, .unlock]

/-- What an instruction does with the lock and the memory. -/
inductive Operation
  | none
  | load (walk : Walk)
  | store (walk : Walk) (marks : List Walk)
  | lrW (object : Nat) (walk : Walk)
  | scW (object : Nat) (walk : Walk) (marks : List Walk)
  | executeAmo (walk storeWalk : Walk) (marks : List Walk)
  | wfi (waits : Bool)
  deriving DecidableEq

/-- The cases of `exec_step`. -/
def execute : Operation → List Call
  | .none => []
  | .load walk => symbolicLoadData .plain walk
  | .store walk marks => symbolicStoreData .plain walk marks
  | .lrW object walk => atomicLoadReservedWord object walk ++ [.startCounter]
  | .scW object walk marks => [.atomicStoreConditionalWord object walk marks, .clearCounter]
  | .executeAmo walk storeWalk marks => atomicLoadWord walk ++ atomicStoreWord storeWalk marks
  | .wfi waits => releaseLrScReservation ++ if waits then [.waitWfi] else []

def performanceAndSyncUpdate (needSync : Bool) : List Call := [.countDown, .sync needSync]

/-- A step: how the fetch is translated, what is executed, whether an interrupt is taken behind
it, and whether the quantum is used up. -/
structure Step where
  fetch : Walk
  operation : Operation
  interrupted : Bool
  needSync : Bool
  deriving DecidableEq

/-- `run_step`, as long as nothing traps. An interrupt enters its handler. -/
def runStep (step : Step) : List Call :=
  loadInstr step.fetch ++ execute step.operation ++
    (if step.interrupted then releaseLrScReservation else []) ++
    performanceAndSyncUpdate step.needSync

/-- What is left of `run_step` behind a trap: `switch_to_trap_handler`, and the update. -/
def handleTrap (needSync : Bool) : List Call :=
  releaseLrScReservation ++ performanceAndSyncUpdate needSync

/-! ## The system -/

/-- A hart with its memory interface. -/
structure Hart where
  /-- The calls left of the current step. -/
  todo : List Call
  lrAddr : Option Nat
  lrScCounter : Nat
  deriving DecidableEq

structure System where
  busLock : Lock
  harts : HartId → Hart
  /-- The hart whose process runs; the others have yielded. -/
  running : Option HartId

/-- Before the first process runs. -/
def System.initial : System := ⟨⟨false, 0⟩, fun _ => ⟨[], none, 0⟩, none⟩

inductive Action (π : Type)
  /-- The kernel lets a hart's process go on. -/
  | resume (hart : HartId)
  | start (hart : HartId) (step : Step)
  | call (hart : HartId)
  /-- The current step of a hart traps. -/
  | trap (hart : HartId) (needSync : Bool)
  /-- `run` ends and synchronises. -/
  | halt (hart : HartId)
  /-- `PeripheralWriteConnector::transport`, once the lock is free. -/
  | transport (connector : π)
  deriving DecidableEq

namespace System

variable {π : Type}

/-- Change the state of one hart. -/
def update (system : System) (hart : HartId) (change : Hart → Hart) : System :=
  { system with
    harts := Function.update system.harts hart (change (system.harts hart)) }

/-- The hart goes on with these calls. -/
def goOn (system : System) (hart : HartId) (todo : List Call) : System :=
  system.update hart fun state => { state with todo := todo }

/-- The hart's process waits. -/
def yield (system : System) : System := { system with running := none }

def unlock (system : System) (hart : HartId) : System :=
  { system with busLock := system.busLock.unlock hart }

/-- A call of a hart, with the calls behind it. Nothing follows the failure of the assertion in
`atomic_store_word`. -/
def perform (system : System) (hart : HartId) (rest : List Call) :
    Call → Option (System × List (Event π))
  | .waitForAccessRights =>
      if system.busLock.locked && !system.busLock.isLockedBy hart then
        some (system.goOn hart (.waitUntilUnlocked :: rest), [])
      else some (system.goOn hart rest, [])
  | .waitUntilUnlocked =>
      if system.busLock.locked then some (system.yield, [])
      else some (system.goOn hart rest, [])
  | .lock =>
      if system.busLock.locked && system.busLock.owner != hart then
        some (system.goOn hart rest, [.assertionFailed hart])
      else some ({ system.goOn hart rest with busLock := ⟨true, hart⟩ }, [])
  | .unlock => some ((system.unlock hart).goOn hart rest, [])
  | .assertLocked =>
      if system.busLock.isLockedBy hart then some (system.goOn hart rest, []) else none
  | .setLrAddr object =>
      some (system.update hart fun state => { state with todo := rest, lrAddr := some object }, [])
  | .load purpose => some (system.goOn hart rest, [.loaded hart purpose])
  | .store purpose => some (system.goOn hart rest, [.stored (.hart hart) purpose])
  | .atomicStoreConditionalWord object walk marks =>
      if system.busLock.isLockedBy hart then
        if (system.harts hart).lrAddr = some object then
          some (system.goOn hart
            (symbolicStoreData (.conditional object) walk marks ++ rest), [])
        else some ((system.unlock hart).goOn hart rest, [])
      else some (system.goOn hart rest, [])
  | .startCounter =>
      some (system.update hart fun state =>
        { state with
          todo := rest
          lrScCounter := if state.lrScCounter = 0 then 17 else state.lrScCounter }, [])
  | .clearCounter =>
      some (system.update hart fun state => { state with todo := rest, lrScCounter := 0 }, [])
  | .countDown =>
      let counted := system.update hart fun state =>
        { state with todo := rest, lrScCounter := state.lrScCounter - 1 }
      if (system.harts hart).lrScCounter = 1 then some (counted.unlock hart, [])
      else some (counted, [])
  | .sync needed =>
      if needed && (system.harts hart).lrScCounter == 0 then
        some ((system.goOn hart rest).yield, [])
      else some (system.goOn hart rest, [])
  | .waitWfi => some ((system.goOn hart rest).yield, [])

/-- The action of a process, if the process can take it. -/
def step (system : System) : Action π → Option (System × List (Event π))
  | .resume hart =>
      if system.running = none then some ({ system with running := some hart }, []) else none
  | .start hart step =>
      if system.running = some hart ∧ (system.harts hart).todo = [] then
        some (system.goOn hart (runStep step), [])
      else none
  | .call hart =>
      if system.running = some hart then
        match (system.harts hart).todo with
        | [] => none
        | call :: rest => system.perform hart rest call
      else none
  | .trap hart needSync =>
      if system.running = some hart ∧ (system.harts hart).todo ≠ [] then
        some (system.goOn hart (handleTrap needSync), [])
      else none
  | .halt hart =>
      if system.running = some hart ∧ (system.harts hart).todo = [] then
        some (system.yield, [])
      else none
  | .transport connector =>
      if system.running = none ∧ system.busLock.locked = false then
        some (system, [.stored (.peripheral connector) .plain])
      else none

end System

end SymexVP.BusLock
