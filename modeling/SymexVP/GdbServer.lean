import SymexVP.ActionRuns
import SymexVP.GdbCommands

/-!
# The debug server's two threads

The reader thread parses a packet from the connection, puts it into `pktq` and notifies
the SystemC process `run`, which takes it from there, answers it and unlocks the mutex
that the reader has locked before it parsed: whoever holds the mutex passes it on with
the packet. A notification is a request for an update of `AsyncEvent`. The kernel performs
the update, and in the next delta cycle wakes the process if it waits. It does either
only while no process runs, so that a process on its way to `wait` gets there first.
-/

namespace SymexVP.Gdb.Server

/-- A packet with the connection it came from, `ctx`. -/
abbrev Context := Nat × GdbPacket

/-- What `run` makes of a packet. -/
inductive Answer
  /-- An acknowledgement: nothing. -/
  | ignore
  | retransmit
  /-- The packet is no command. -/
  | nack
  /-- The empty response to a command without a handler. -/
  | unsupported
  | handle (handler : Handler) (cmd : GdbCommand)

/-- The body of the loop in `run` between `front` and `pop`. -/
def answer (plain : PlainChar) (pkt : GdbPacket) : Except Abort Answer :=
  match pkt.kind with
  | .nack => .ok .retransmit
  | .ack => .ok .ignore
  | _ =>
      match gdbParseCmd plain pkt with
      | .error abort => .error abort
      | .ok none => .ok .nack
      | .ok (some cmd) =>
          match handlers.lookup cmd.name with
          | none => .ok .unsupported
          | some handler => .ok (.handle handler cmd)

/-- Where the reader thread stands in `serve` and `dispatch`. -/
inductive Reader
  /-- No connection is served. -/
  | accepting
  | locking (conn : Nat)
  | parsing (conn : Nat)
  | pushing (ctx : Context)
  | notifying (conn : Nat)
  /-- `gdb_parse_pkt` has returned no packet. -/
  | unlocking (conn : Nat)

/-- Where the process `run` stands. -/
inductive Process
  | toWait
  | waiting
  | woken
  | handling (ctx : Context)
  /-- A handler waits for harts to stop. -/
  | suspended (ctx : Context)
  | popping
  | unlocking

structure State where
  /-- `mtx`, which another thread than the one that locked it may unlock. -/
  locked : Bool
  pktq : List Context
  /-- `asyncEvent` has requested an update. -/
  requested : Bool
  /-- The update has been performed: the event is triggered in the next delta cycle. -/
  triggered : Bool
  reader : Reader
  process : Process

def State.initial : State := ⟨false, [], false, false, .accepting, .toWait⟩

inductive Event
  /-- `gdb_parse_pkt` delivers a packet. -/
  | delivered (ctx : Context)
  | notified
  | woke
  /-- The event is triggered while the process does not wait for it. -/
  | missed
  /-- `pktq.front()` on the queue as it is then. -/
  | front (pktq : List Context)
  | handled (ctx : Context) (answer : Answer)
  /-- The connection ends. -/
  | closed

inductive Action
  | accept (conn : Nat)
  | lock
  | parse (pkt : Option GdbPacket)
  | push
  | notify
  | readerUnlock
  | wait
  | front
  | suspend
  | continue
  | handled
  | pop
  | unlock
  | update
  | trigger

/-- The process gives control back to the kernel. -/
def Process.yields : Process → Bool
  | .waiting | .suspended _ => true
  | _ => false

/-- One step of the reader, the process or the kernel, if it is there and not blocked. -/
def step (plain : PlainChar) (server : State) : Action → Option (State × List Event)
  | .accept conn =>
      match server.reader with
      | .accepting => some ({ server with reader := .locking conn }, [])
      | _ => none
  | .lock =>
      match server.reader, server.locked with
      | .locking conn, false => some ({ server with reader := .parsing conn, locked := true }, [])
      | _, _ => none
  | .parse pkt =>
      match server.reader, pkt with
      | .parsing conn, some pkt =>
          some ({ server with reader := .pushing (conn, pkt) }, [.delivered (conn, pkt)])
      | .parsing conn, none => some ({ server with reader := .unlocking conn }, [])
      | _, _ => none
  | .push =>
      match server.reader with
      | .pushing ctx =>
          some ({ server with reader := .notifying ctx.1, pktq := server.pktq ++ [ctx] }, [])
      | _ => none
  | .notify =>
      match server.reader with
      | .notifying conn =>
          some ({ server with reader := .locking conn, requested := true }, [.notified])
      | _ => none
  | .readerUnlock =>
      match server.reader with
      | .unlocking _ =>
          some ({ server with reader := .accepting, locked := false }, [.closed])
      | _ => none
  | .wait =>
      match server.process with
      | .toWait => some ({ server with process := .waiting }, [])
      | _ => none
  | .front =>
      match server.process, server.pktq with
      | .woken, ctx :: _ => some ({ server with process := .handling ctx }, [.front server.pktq])
      -- The front of an empty queue is undefined; the event tells of it.
      | .woken, [] => some (server, [.front []])
      | _, _ => none
  | .suspend =>
      match server.process with
      | .handling ctx => some ({ server with process := .suspended ctx }, [])
      | _ => none
  | .continue =>
      match server.process with
      | .suspended ctx => some ({ server with process := .handling ctx }, [])
      | _ => none
  | .handled =>
      match server.process with
      | .handling ctx =>
          match answer plain ctx.2 with
          | .ok answer => some ({ server with process := .popping }, [.handled ctx answer])
          | .error _ => none
      | _ => none
  | .pop =>
      match server.process with
      | .popping => some ({ server with process := .unlocking, pktq := server.pktq.tail }, [])
      | _ => none
  | .unlock =>
      match server.process with
      | .unlocking => some ({ server with process := .toWait, locked := false }, [])
      | _ => none
  | .update =>
      if server.requested ∧ server.process.yields then
        some ({ server with requested := false, triggered := true }, [])
      else none
  | .trigger =>
      match server.triggered, server.process with
      | true, .waiting => some ({ server with triggered := false, process := .woken }, [.woke])
      | true, .suspended _ => some ({ server with triggered := false }, [.missed])
      | _, _ => none

end SymexVP.Gdb.Server
