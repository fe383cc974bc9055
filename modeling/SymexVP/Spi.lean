import SymexVP.Devices
import SymexVP.RoutedSystems

/-!
# The SPI controller

`SPI` passes bytes between the guest and the targets behind it. A write to TXDATA hands a
byte to the target that CSID selects and puts what the target answers into a queue, and a
read of RXDATA takes the oldest answer out of it. There is one queue for all targets; it
holds sixteen answers, and the oldest one gives way to a new one.

The targets live on their own besides: a network delivers frames to one, and the pins of
another change.
-/

namespace SymexVP.Spi

abbrev Byte := BitVec 8

abbrev Pin := BitVec 32

/-- `SpiInterface`: what a target does with a byte, and what else happens to it. A target may
fail. -/
structure SpiInterface where
  State : Type
  Input : Type
  write : State → Byte → Option (State × Byte)
  receive : State → Input → Option State

inductive Register
  | sckdiv | sckmode | csid | csdef | csmode | delay0 | delay1 | fmt | txdata | rxdata | txmark
  | rxmark | fctrl | ffmt | ie | ip
  deriving DecidableEq, Repr

def Register.address : Register → Nat
  | .sckdiv => 0x00
  | .sckmode => 0x04
  | .csid => 0x10
  | .csdef => 0x14
  | .csmode => 0x18
  | .delay0 => 0x28
  | .delay1 => 0x2C
  | .fmt => 0x40
  | .txdata => 0x48
  | .rxdata => 0x4C
  | .txmark => 0x50
  | .rxmark => 0x54
  | .fctrl => 0x60
  | .ffmt => 0x64
  | .ie => 0x70
  | .ip => 0x74

/-- The register bank, in the source order. -/
def bank : List Register :=
  [.sckdiv, .sckmode, .csid, .csdef, .csmode, .delay0, .delay1, .fmt, .txdata, .rxdata, .txmark,
    .rxmark, .fctrl, .ffmt, .ie, .ip]

/-- The register an access belongs to: the address is clamped to a multiple of four. -/
def find (address : Nat) : Option Register :=
  bank.find? fun register => register.address = address - address % 4

def queueSize : Nat := 16

def SPI_IP_TXWM : BitVec 32 := 0x1

structure State (interface : SpiInterface) where
  registers : Register → BitVec 32
  rxqueue : List Byte
  targets : Pin → Option interface.State

variable {interface : SpiInterface}

/-- After the constructor. -/
def initial (interface : SpiInterface) : State interface where
  registers
    | .csdef => 1
    | .fctrl => 1
    | _ => 0
  rxqueue := []
  targets _ := none

/-- `connect`; a pin that is taken keeps its target. -/
def connect (spi : State interface) (cs : Pin) (target : interface.State) : State interface :=
  if cs = 1 ∨ 3 < cs then spi
  else match spi.targets cs with
    | some _ => spi
    | none => { spi with targets := Function.update spi.targets cs (some target) }

/-- The pin of the selected target. -/
def State.csid (spi : State interface) : Pin := spi.registers .csid

def State.assign (spi : State interface) (register : Register) (value : BitVec 32) :
    State interface :=
  { spi with registers := Function.update spi.registers register value }

inductive Event
  /-- A target was handed a byte, and what it answered was queued. -/
  | exchanged (pin : Pin) (sent reply : Byte)
  /-- An answer gave way to a newer one. -/
  | dropped (reply : Byte)
  /-- An answer was taken out of the queue. -/
  | popped (reply : Byte)
  /-- A register was read while it held `value`. -/
  | read (register : Register) (value : BitVec 32) (data : List Byte)
  deriving DecidableEq

inductive Action (interface : SpiInterface)
  | read (address count : Nat)
  | write (address : Nat) (data : List Byte)
  /-- Something else happens to a target. -/
  | other (pin : Pin) (input : interface.Input)

/-! ## Accesses -/

/-- What a read of RXDATA does in front of `r.fn()`. -/
def fetch (spi : State interface) : State interface × List Event :=
  match spi.targets spi.csid with
  | none => (spi, [])
  | some _ =>
      match spi.rxqueue with
      | [] => (spi.assign .rxdata (1 <<< 31), [])
      | reply :: rest =>
          ({ spi.assign .rxdata (reply.setWidth 32) with rxqueue := rest }, [.popped reply])

/-- `register_access_callback` on a read. -/
def readAccess (spi : State interface) (register : Register) (offset count : Nat) :
    State interface × List Event :=
  let (spi, fetched) := if register = .rxdata then fetch spi else (spi, [])
  let value := spi.registers register
  (spi, fetched ++ [.read register value (readBytes value offset count)])

/-- `rxqueue.push`, and the `pop` that keeps the queue at its size. -/
def enqueue (rxqueue : List Byte) (reply : Byte) : List Byte × List Event :=
  match rxqueue ++ [reply] with
  | [] => ([], [])
  | oldest :: rest =>
      if queueSize < (oldest :: rest).length then (rest, [.dropped oldest])
      else (oldest :: rest, [])

/-- Whether a byte that is sent sets the pending bit of the watermark. -/
def State.marks (spi : State interface) : Bool :=
  0 < spi.registers .txmark && spi.registers .ie &&& SPI_IP_TXWM != 0

/-- What a write of TXDATA does behind `r.fn()`. -/
def send (spi : State interface) : Option (State interface × List Event) :=
  let pin := spi.csid
  match spi.targets pin with
  | none => some (spi.assign .txdata 0, [])
  | some target => do
      let sent : Byte := (spi.registers .txdata).setWidth 8
      let (target, reply) ← interface.write target sent
      let (rxqueue, dropped) := enqueue spi.rxqueue reply
      let spi := { spi with
        rxqueue := rxqueue
        targets := Function.update spi.targets pin (some target) }
      let spi := if spi.marks then spi.assign .ip (spi.registers .ip ||| SPI_IP_TXWM) else spi
      some (spi.assign .txdata 0, .exchanged pin sent reply :: dropped)

/-- `register_access_callback` on a write. -/
def writeAccess (spi : State interface) (register : Register) (offset : Nat) (data : List Byte) :
    Option (State interface × List Event) :=
  let spi := spi.assign register (writeBytes (spi.registers register) offset data)
  if register = .txdata then send spi else some (spi, [])

/-- An access of the guest, or another input of a target. An access beyond the bank or beyond a
register ends the simulation, and so does a target that fails. -/
def step (spi : State interface) : Action interface → Option (State interface × List Event)
  | .read address count =>
      match find address with
      | none => none
      | some register =>
          if count + address % 4 ≤ 4 then some (readAccess spi register (address % 4) count)
          else none
  | .write address data =>
      match find address with
      | none => none
      | some register =>
          if data.length + address % 4 ≤ 4 then writeAccess spi register (address % 4) data
          else none
  | .other pin input => do
      let target ← spi.targets pin
      let target ← interface.receive target input
      some ({ spi with targets := Function.update spi.targets pin (some target) }, [])

end SymexVP.Spi
