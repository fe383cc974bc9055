import SymexVP.Board
import SymexVP.GdbCommands

/-!
# The handlers of the debug server

A handler of `GDBServer` answers a command by a packet. The memory behind the server, the
MMUs of the harts and the harts themselves, once they are resumed, belong to the machine
that is debugged. The server knows of a hart whether it runs, where its breakpoints are,
and which thread the debugger has selected for an operation.

A handler is left by returning, by an exception of one of the kinds it may catch, by an
assertion that fails, by the end of the program, or not at all: it waits for harts to
stop, and those do so only if their `GDBServerRunner` is still in its loop.
-/

namespace SymexVP.Gdb.Handlers

open Exec

inductive CoreExecStatus
  | runnable | hitBreakpoint | terminated
  deriving DecidableEq, Repr

inductive Architecture
  | RV32 | RV64 | RV128
  deriving DecidableEq, Repr

theorem Architecture.rv32_supported : RV32 ≠ RV128 := nofun

/-- How a handler is left otherwise than by returning. `std::out_of_range` and
`std::invalid_argument` are no `std::runtime_error`, and a `SimulationTrap` is no exception of the
standard library. -/
inductive Fault
  | outOfRange
  | invalidArgument
  | runtimeError
  | simulationTrap
  | assertion
  /-- It waits for an event that nothing notifies. -/
  | blocked
  /-- `exit`. -/
  | exited
  deriving DecidableEq, Repr

inductive TlmCommand
  | read | write
  deriving DecidableEq, Repr

/-- What a debug transaction leaves behind: the data, the bytes transferred, and whether the
response is an error. -/
structure DbgAnswer (World : Type) where
  data : List Byte
  nbytes : Nat
  isResponseError : Bool
  world : World

/-- What the server and its runner know of a hart. -/
structure Hart where
  status : CoreExecStatus
  breakpoints : List (BitVec 32)
  /-- Its `GDBServerRunner::run` has not left the loop. -/
  runner : Bool

/-- `hart->get_hart_id()`. -/
structure HartId where
  value : BitVec 64
  small : value.toNat + 1 < 2 ^ 31

theorem HartId.zero_small : (0 : BitVec 64).toNat + 1 < 2 ^ 31 := by decide

/-- The machine that is debugged. The `v2p` of a hart is there if the server was given its MMU. -/
structure Machine where
  count : Nat
  positive : 0 < count
  arch : Architecture
  supported : arch ≠ .RV128
  hartId : Fin count → HartId
  World : Type
  getRegisters : World → Fin count → Vector (BitVec 64) 32
  getProgamCounter : World → Fin count → BitVec 64
  mmu : Fin count → Option (World → BitVec 64 → MemoryAccessType → Except Fault (BitVec 64) × World)
  transportDbg : World → TlmCommand → BitVec 64 → List Byte → DbgAnswer World
  /-- The harts whose runners are woken, until the first of them notifies its stop event; nothing if
  none ever does. -/
  resume : World → (Fin count → Hart) → List (Fin count) → Bool →
    Option (World × (Fin count → CoreExecStatus))
  /-- A runner notifies that event when its hart is no longer runnable. -/
  stops : ∀ {world harts woken single after status},
    resume world harts woken single = some (after, status) → ∃ hart ∈ woken, status hart ≠ .runnable
  /-- One that runs is told to stop and has stopped. -/
  halt : World → (Fin count → Hart) → Fin count → World × (Fin count → CoreExecStatus)

/-- The server. -/
structure Server (machine : Machine) where
  /-- `thread_ops`. -/
  threadOps : Byte → Option Int
  singleRun : Bool
  harts : Fin machine.count → Hart
  world : machine.World

/-- `send_packet`, for a packet of the kind `GDB_KIND_PACKET`. -/
inductive Event
  | packet (data : List Byte)
  deriving DecidableEq

abbrev ServerM (machine : Machine) := Exec Fault (Server machine) Event

variable {machine : Machine}

def sendPacket (data : List Byte) : ServerM machine Unit := emit (.packet data)

/-! ## Texts -/

/-- A number in hexadecimal, as `std::hex` and `std::setw` print it. -/
def printHexWidth (width value : Nat) : List Byte :=
  ((Nat.toDigits 16 value).map byte).leftpad width (byte '0')

/-- `std::to_string`. -/
def printInt (value : Int) : List Byte := str (toString value)

def bswap32 (value : BitVec 32) : BitVec 32 :=
  value.extractLsb' 0 8 ++ value.extractLsb' 8 8 ++ value.extractLsb' 16 8 ++
    value.extractLsb' 24 8

def bswap64 (value : BitVec 64) : BitVec 64 :=
  bswap32 (value.extractLsb' 0 32) ++ bswap32 (value.extractLsb' 32 32)

/-- `RegisterFormater::formatRegister`. -/
def formatRegister (value : BitVec 64) : ServerM machine (List Byte) :=
  match machine.arch with
  | .RV32 => pure (printHexWidth 8 (bswap32 (value.setWidth 32)).toNat)
  | .RV64 => pure (printHexWidth 16 (bswap64 value).toNat)
  | .RV128 => throw .invalidArgument

/-! ## Threads -/

def GDB_THREAD_ANY : Int := 0
def GDB_THREAD_ALL : Int := -1

/-- `get_threads`. -/
def getThreads (machine : Machine) (id : Int) : Except Fault (List (Fin machine.count)) :=
  let id := if id = GDB_THREAD_ANY then 1 else id
  if id = GDB_THREAD_ALL then .ok (List.finRange machine.count)
  else if id < 1 then .error .outOfRange
  else if inside : (id - 1).toNat < machine.count then .ok [⟨(id - 1).toNat, inside⟩]
  else .error .outOfRange

def ofExcept {α : Type} : Except Fault α → ServerM machine α
  | .ok value => pure value
  | .error fault => throw fault

/-- The loop of `exec_thread`; what its function appends for each thread is put in a row. -/
def forThreads (fn : Fin machine.count → ServerM machine (List Byte)) :
    List (Fin machine.count) → ServerM machine (List Byte)
  | [] => pure []
  | thread :: rest => do
      let first ← fn thread
      let others ← forThreads fn rest
      pure (first ++ others)

/-- The thread selected for the operations of `exec_thread`. -/
def Server.selected (server : Server machine) : Int :=
  (server.threadOps (byte 'g')).getD GDB_THREAD_ANY

/-- `exec_thread`. -/
def execThread (fn : Fin machine.count → ServerM machine (List Byte)) :
    ServerM machine (List Byte) := do
  let server ← get
  let threads ← ofExcept (getThreads machine server.selected)
  forThreads fn threads

/-- A reply, or the error that stands for one kind of exception. -/
def replyOrE01 (caught : Fault) (body : ServerM machine (List Byte)) : ServerM machine Unit := do
  let reply ← Exec.tryCatch body fun fault => if fault = caught then pure (str "E01") else throw fault
  sendPacket reply

/-! ## Memory -/

/-- `translate_addr`. -/
def translateAddr (hart : Fin machine.count) (addr : BitVec 64) (type : MemoryAccessType) :
    ServerM machine (BitVec 64) := do
  let server ← get
  match machine.mmu hart with
  | none => pure addr
  | some v2p => do
      let answer := v2p server.world addr type
      modify fun server => { server with world := answer.2 }
      ofExcept answer.1

/-- `_do_dbg_transaction`. -/
def doDbgTransaction (cmd : TlmCommand) (addr : BitVec 64) (data : List Byte) :
    ServerM machine (List Byte × Nat) := do
  let server ← get
  let answer := machine.transportDbg server.world cmd addr data
  modify fun server => { server with world := answer.world }
  if answer.isResponseError = true then throw .runtimeError else pure (answer.data, answer.nbytes)

/-- `DebugMemoryInterface::read_memory`. -/
def readDebugMemory (start : BitVec 64) (nbytes : Nat) : ServerM machine (List Byte) := do
  let (buf, nbytesRead) ← doDbgTransaction .read start (List.replicate nbytes 0)
  require (nbytesRead = nbytes) .assertion
  pure (buf.flatMap fun byte => printHexWidth 2 byte.toNat)

/-- The bytes `write_memory` decodes: its loop ends where the index of the digit reaches the number of
bytes, and leaves zeros behind. -/
def decodeData (nbytes : Nat) (data : List Byte) : List Byte :=
  (List.range nbytes).map fun index =>
    if 2 * index + 1 < nbytes then
      BitVec.ofNat 8 (Stage2.hexValue [data.getD (2 * index) 0, data.getD (2 * index + 1) 0])
    else 0

/-- `DebugMemoryInterface::write_memory`, for hexadecimal digits. -/
def writeDebugMemory (start : BitVec 64) (nbytes : Nat) (data : List Byte) :
    ServerM machine (List Byte) := do
  require (data.length % 2 = 0) .assertion
  require (data.length / 2 = nbytes) .assertion
  let (_, nbytesWrite) ← doDbgTransaction .write start (decodeData nbytes data)
  require (nbytesWrite = nbytes) .assertion
  pure []

def UINT_MAX : Nat := 2 ^ 32 - 1

/-! ## Running harts -/

/-- The harts and their runners when the first of those that were woken has stopped. A runner whose
hart has terminated leaves its loop. -/
def reported (harts : Fin machine.count → Hart) (woken : List (Fin machine.count))
    (status : Fin machine.count → CoreExecStatus) (hart : Fin machine.count) : Hart :=
  if hart ∈ woken then
    { harts hart with status := status hart, runner := status hart != .terminated }
  else harts hart

/-- The same when one of them has been told to stop; meanwhile the others run on. -/
def halted (harts : Fin machine.count → Hart) (woken : List (Fin machine.count))
    (stopped : Fin machine.count) (status : Fin machine.count → CoreExecStatus)
    (hart : Fin machine.count) : Hart :=
  if hart = stopped then
    if status hart = .terminated then { harts hart with status := .terminated, runner := false }
    else { harts hart with status := .hitBreakpoint }
  else if hart ∈ woken ∧ (harts hart).status = .runnable then
    { harts hart with status := status hart, runner := status hart != .terminated }
  else harts hart

def setStatus (harts : Fin machine.count → Hart) (hart : Fin machine.count)
    (status : CoreExecStatus) : Fin machine.count → Hart :=
  Function.update harts hart { harts hart with status := status }

/-- One round of the loop in `run_threads` that stops the harts; it keeps the status found. -/
def stopHart (woken : List (Fin machine.count)) (hart : Fin machine.count) :
    ServerM machine CoreExecStatus := do
  let server ← get
  let found := (server.harts hart).status
  if found ≠ .runnable then pure found
  else if (server.harts hart).runner = false then throw .blocked
  else do
    let told := setStatus server.harts hart .hitBreakpoint
    let stopped := machine.halt server.world told hart
    modify fun server =>
      { server with world := stopped.1, harts := halted told woken hart stopped.2 }
    pure found

/-- The loop that stops the harts. -/
def stopHarts (woken : List (Fin machine.count)) :
    List (Fin machine.count) → ServerM machine (List (Fin machine.count × CoreExecStatus))
  | [] => pure []
  | hart :: rest => do
      let status ← stopHart woken hart
      let others ← stopHarts woken rest
      pure ((hart, status) :: others)

/-- The loop that restores their statuses. -/
def restored (harts : Fin machine.count → Hart) :
    List (Fin machine.count × CoreExecStatus) → Fin machine.count → Hart
  | [] => harts
  | (hart, status) :: rest => restored (setStatus harts hart status) rest

/-- `run_threads`. The run event of a hart whose runner has left its loop wakes nothing. -/
def runThreads (hartsrun : List (Fin machine.count)) (single : Bool) : ServerM machine Unit :=
  if hartsrun = [] then pure ()
  else do
    modify fun server => { server with singleRun := single }
    let server ← get
    let woken := hartsrun.filter fun hart => (server.harts hart).runner
    if woken = [] then throw .blocked
    else
      match machine.resume server.world server.harts woken single with
      | none => throw .blocked
      | some (world, status) => do
          modify fun server =>
            { server with world := world, harts := reported server.harts woken status }
          let original ← stopHarts woken hartsrun
          modify fun server => { server with harts := restored server.harts original }

/-! ## vCont -/

/-- An action of `vCont`. -/
structure Action where
  action : Byte
  tid : Int

/-- `stop_reason` with `stopped_thread`. -/
abbrev Stop := Option (List Byte × Int)

/-- `hart->get_hart_id() + 1`, as an `int`. -/
def threadOf (hart : Fin machine.count) : Int :=
  (((machine.hartId hart).value + 1).setWidth 32).toInt

/-- The loop over `selected_harts`: a hart at a breakpoint is made runnable again. -/
def reportStops : List (Fin machine.count) → Stop → ServerM machine Stop
  | [], stop => pure stop
  | hart :: rest, stop => do
      let server ← get
      match (server.harts hart).status with
      | .hitBreakpoint => do
          modify fun server => { server with harts := setStatus server.harts hart .runnable }
          reportStops rest (some (str "05", threadOf hart))
      | .terminated => reportStops rest (some (str "03", threadOf hart))
      | .runnable => reportStops rest stop

/-- The end of `vCont`. -/
def sendStop : Stop → ServerM machine Unit
  | none => throw .assertion
  | some (reason, thread) => do
      require (1 ≤ thread) .assertion
      modify fun server =>
        { server with threadOps := Function.update server.threadOps (byte 'g') (some thread) }
      sendPacket (str "T" ++ reason ++ str "thread:" ++ printInt thread ++ str ";")

/-- The loop of `vCont` over the actions that are left. -/
def vContFrom : List Action → List (Fin machine.count) → Stop → ServerM machine Unit
  | [], _, stop => sendStop stop
  | action :: rest, matched, stop =>
      if action.action ≠ byte 's' ∧ action.action ≠ byte 'c' then throw .invalidArgument
      else
        match getThreads machine action.tid with
        | .error _ => sendPacket (str "E01")
        | .ok threads => do
            let run := threads.filter fun hart => hart ∉ matched
            runThreads run (action.action == byte 's')
            let stop ← reportStops run stop
            if 0 < action.tid then do
              require (threads.length = 1) .assertion
              vContFrom rest (threads ++ matched) stop
            else vContFrom rest matched stop

/-! ## Commands -/

/-- A command with the argument its handler reads. -/
inductive Command
  | haltReason
  | getRegisters
  | setThread (op : Byte) (tid : Int)
  | killServer
  | readMemory (addr length : BitVec 64)
  | writeMemory (addr length : BitVec 64) (data : List Byte)
  | readRegister (reg : BitVec 32)
  | qAttached
  | qSupported
  | threadInfo
  | threadInfoEnd
  | isAlive (tid : Int)
  | vCont (first : Action) (rest : List Action)
  | vContSupported
  | removeBreakpoint (type : Nat) (address : BitVec 64)
  | setBreakpoint (type : Nat) (address : BitVec 64)
  /-- A command without a handler. -/
  | unsupported

def GDB_PKTSIZ : Nat := 4096
def GDB_PC_REG : BitVec 32 := 32
def GDB_ZKIND_SOFT : Nat := 0

/-- The registers of a hart, one after the other. -/
def formatRegisters : List (BitVec 64) → ServerM machine (List Byte)
  | [] => pure []
  | value :: rest => do
      let first ← formatRegister value
      let others ← formatRegisters rest
      pure (first ++ others)

/-- What `getRegisters` does for a hart. -/
def printRegisters (hart : Fin machine.count) : ServerM machine (List Byte) := do
  let server ← get
  formatRegisters (machine.getRegisters server.world hart).toList

def getRegisters : ServerM machine Unit := do
  let reply ← execThread printRegisters
  sendPacket reply

def readMemory (addr length : BitVec 64) : ServerM machine Unit := do
  require (length.toNat ≤ UINT_MAX) .assertion
  replyOrE01 .runtimeError <| execThread fun hart => do
    let addr ← translateAddr hart addr .load
    readDebugMemory addr length.toNat

/-- What is written has no text of its own; without an exception the reply is `OK`. -/
def writeMemory (addr length : BitVec 64) (data : List Byte) : ServerM machine Unit := do
  require (length.toNat ≤ UINT_MAX) .assertion
  replyOrE01 .runtimeError do
    let _ ← execThread fun hart => do
      let addr ← translateAddr hart addr .store
      writeDebugMemory addr length.toNat data
    pure (str "OK")

/-- `ISS::read_register`. -/
def readHartRegister (hart : Fin machine.count) (reg : BitVec 32) : ServerM machine (BitVec 64) := do
  let server ← get
  if inside : reg.toNat < 32 then pure (machine.getRegisters server.world hart)[reg.toNat]
  else throw .outOfRange

/-- The program counter has the number behind the registers. -/
def readValue (hart : Fin machine.count) (reg : BitVec 32) : ServerM machine (BitVec 64) := do
  let server ← get
  if reg = GDB_PC_REG then pure (machine.getProgamCounter server.world hart)
  else readHartRegister hart reg

def readRegister (reg : BitVec 32) : ServerM machine Unit :=
  replyOrE01 .outOfRange <| execThread fun hart => do
    let regval ← readValue hart reg
    formatRegister regval

/-- The list of `threadInfo`. -/
def threadList (server : Server machine) : List Byte :=
  (List.finRange machine.count).flatMap fun hart =>
    if (server.harts hart).status = .terminated then []
    else printInt (((machine.hartId hart).value + 1).toNat : Int) ++
      if hart.val + 1 < machine.count then str "," else []

def threadInfo : ServerM machine Unit := do
  let server ← get
  sendPacket (str "m" ++ threadList server)

def isAlive (tid : Int) : ServerM machine Unit :=
  match getThreads machine tid with
  | .ok _ => sendPacket (str "OK")
  | .error _ => sendPacket (str "E01")

/-- `removeBreakpoint` and `setBreakpoint`, by what is done to the breakpoints of a hart. -/
def changeBreakpoints (type : Nat) (change : List (BitVec 32) → List (BitVec 32)) :
    ServerM machine Unit :=
  if type ≠ GDB_ZKIND_SOFT then sendPacket []
  else do
    modify fun server =>
      { server with harts := fun hart =>
          { server.harts hart with breakpoints := change (server.harts hart).breakpoints } }
    sendPacket (str "OK")

/-- The handler of a command, and the empty reply to one without a handler. -/
def handle : Command → ServerM machine Unit
  | .haltReason => sendPacket (str "S05")
  | .getRegisters => getRegisters
  | .setThread op tid => do
      modify fun server => { server with threadOps := Function.update server.threadOps op (some tid) }
      sendPacket (str "OK")
  | .killServer => throw .exited
  | .readMemory addr length => readMemory addr length
  | .writeMemory addr length data => writeMemory addr length data
  | .readRegister reg => readRegister reg
  | .qAttached => sendPacket (str "0")
  | .qSupported => sendPacket (str "vContSupported+;PacketSize=" ++ printInt GDB_PKTSIZ)
  | .threadInfo => threadInfo
  | .threadInfoEnd => sendPacket (str "l")
  | .isAlive tid => isAlive tid
  | .vCont first rest => vContFrom (first :: rest) [] none
  | .vContSupported => sendPacket (str "vCont;c;C")
  | .removeBreakpoint type address => changeBreakpoints type (·.filter (· ≠ address.setWidth 32))
  | .setBreakpoint type address => changeBreakpoints type (List.insert (address.setWidth 32))
  | .unsupported => sendPacket []

end SymexVP.Gdb.Handlers
