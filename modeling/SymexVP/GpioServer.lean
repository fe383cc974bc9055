import SymexVP.Clover
import SymexVP.Gpio

/-!
# Pins over the network

`GpioServer` shows the levels of the pins to clients and lets them change them. A client sends
requests of two bytes; `update` waits for the eight bytes of the answer, and `setBit` waits for
nothing. The server has one connection at a time and handles what comes over it, request by
request, while the guest goes on. The other clients wait until it takes their connection.

The streams of a connection keep their bytes in order. A read of the server that gives fewer
bytes than it asks for ends its work on the connection, and may happen at any time here.
-/

namespace SymexVP.GpioServer

open GPIO (PinChange Tristate Register)

abbrev Byte := BitVec 8

abbrev Reg := BitVec 64

/-! ## Messages -/

@[match_pattern] abbrev GET_BANK : Nat := 1
@[match_pattern] abbrev SET_BIT : Nat := 2

/-- What a client asks for. The arguments of `setBit` are cut to the fields of the request. -/
inductive Request
  | getBank
  | setBit (pos : BitVec 6) (val : BitVec 2)
  deriving DecidableEq, Repr

/-- The bytes of a request; the fields share one byte. -/
def Request.bytes : Request → List Byte
  | getBank => [BitVec.ofNat 8 GET_BANK, 0]
  | setBit pos val => [BitVec.ofNat 8 SET_BIT, val ++ pos]

/-- The bytes of an answer. -/
def answerBytes (value : Reg) : List Byte := (List.range 8).map fun index => Clover.byteOf index value

/-- What the server does for a request. -/
inductive Operation
  | getBank
  | setBit (change : PinChange)
  deriving DecidableEq, Repr

/-- The level a field stands for; there is none for 3. -/
def tristate (val : BitVec 2) : Option Tristate :=
  match val.toNat with
  | 0 => some .low
  | 1 => some .high
  | 2 => some .unset
  | _ => none

/-- The request in two bytes, if it is a valid one. A field of six bits is never past the last pin,
for which the server looks all the same. -/
def operation (op argument : Byte) : Option Operation :=
  match op.toNat with
  | GET_BANK => some .getBank
  | SET_BIT => (tristate (argument.extractLsb' 6 2)).map fun val =>
      .setBit ⟨(argument.extractLsb' 0 6).toFin, val⟩
  | _ => none

/-! ## Connections -/

/-- How far the server is with a connection. It closes one that ends, and abandons one over which it
got a request that is not valid. -/
inductive Stage
  | waiting | taken | closed | abandoned
  deriving DecidableEq, Repr

/-- A connection from both ends: the bytes on their way, whether the client is in `update`, and its
`state`. -/
structure Connection where
  stage : Stage
  requests : List Byte
  replies : List Byte
  updating : Bool
  view : Reg

/-- A client that has just connected. -/
def Connection.opened : Connection := ⟨.waiting, [], [], false, 0⟩

/-- The pins, and the connections of clients; the server is in `handleConnection` for one of them
at most. -/
structure Network (κ : Type) where
  gpio : GPIO.State
  connections : κ → Option Connection
  serving : Option κ

variable {κ : Type}

/-- Pins to which no client has connected yet. -/
def listening (gpio : GPIO.State) : Network κ := ⟨gpio, fun _ => none, none⟩

inductive Action (κ : Type)
  | connect (client : κ)
  /-- `GpioClient::setBit`. -/
  | setBit (client : κ) (pos val : Byte)
  /-- `GpioClient::update` writes its request. -/
  | update (client : κ)
  /-- `GpioClient::update` reads the answer. -/
  | receive (client : κ)
  /-- `GpioClient::update` finds that the connection has been closed. -/
  | fail (client : κ)
  /-- `accept` in `startListening`. -/
  | accept (client : κ)
  /-- `handleConnection` reads a request. -/
  | handle
  /-- `handleConnection` reads something else. -/
  | leave
  /-- The guest writes a register. -/
  | write (register : Register) (new : BitVec 32)
  | synchronousChange

inductive Event (κ : Type)
  | asked (client : κ) (request : Request)
  | handled (client : κ) (operation : Operation)
  | received (client : κ) (value : Reg)
  | wrote (register : Register) (new : BitVec 32)
  | changed

variable [DecidableEq κ]

def Network.put (network : Network κ) (client : κ) (connection : Connection) : Network κ :=
  { network with connections := Function.update network.connections client (some connection) }

/-- A client writes a request. -/
def ask (network : Network κ) (client : κ) (connection : Connection) (request : Request) :
    Network κ × List (Event κ) :=
  (network.put client { connection with
    requests := connection.requests ++ request.bytes
    updating := decide (request = .getBank) }, [.asked client request])

/-- The body of the loop in `handleConnection`. -/
def serve (network : Network κ) (client : κ) (connection : Connection) (op argument : Byte)
    (rest : List Byte) : Network κ × List (Event κ) :=
  let connection := { connection with requests := rest }
  match operation op argument with
  | none => ({ network.put client { connection with stage := .abandoned } with serving := none }, [])
  | some .getBank =>
      (network.put client { connection with
        replies := connection.replies ++ answerBytes network.gpio.server },
        [.handled client .getBank])
  | some (.setBit change) =>
      ({ network.put client connection with gpio := GPIO.asyncOnchange network.gpio change },
        [.handled client (.setBit change)])

/-- A client waits while it is in `update`. -/
def step (intGpioBase : Nat) (network : Network κ) : Action κ → Option (Network κ × List (Event κ))
  | .connect client =>
      match network.connections client with
      | some _ => none
      | none => some (network.put client .opened, [])
  | .setBit client pos val => do
      let connection ← network.connections client
      if connection.updating then none
      else some (ask network client connection (.setBit (pos.setWidth 6) (val.setWidth 2)))
  | .update client => do
      let connection ← network.connections client
      if connection.updating then none else some (ask network client connection .getBank)
  | .receive client => do
      let connection ← network.connections client
      if connection.updating ∧ 8 ≤ connection.replies.length then
        let value := BitVec.ofNat 64 (Clover.littleEndian (connection.replies.take 8))
        some (network.put client { connection with
          replies := connection.replies.drop 8
          updating := false
          view := value }, [.received client value])
      else none
  | .fail client => do
      let connection ← network.connections client
      if connection.updating ∧ connection.stage = .closed ∧ connection.replies = [] then
        some (network.put client { connection with updating := false }, [])
      else none
  | .accept client => do
      let connection ← network.connections client
      if network.serving = none ∧ connection.stage = .waiting then
        some ({ network.put client { connection with stage := .taken } with
          serving := some client }, [])
      else none
  | .handle => do
      let client ← network.serving
      let connection ← network.connections client
      match connection.requests with
      | op :: argument :: rest => some (serve network client connection op argument rest)
      | _ => none
  | .leave => do
      let client ← network.serving
      let connection ← network.connections client
      some ({ network.put client { connection with stage := .closed } with serving := none }, [])
  | .write register new =>
      some ({ network with gpio := GPIO.registerAccessCallback network.gpio register new },
        [.wrote register new])
  | .synchronousChange =>
      some ({ network with gpio := GPIO.synchronousChange intGpioBase network.gpio [] |>.1 },
        [.changed])

end SymexVP.GpioServer
