import SymexVP.ActionRuns
import SymexVP.Devices

/-!
# The queues of the serial port

`AbstractUART` is shared by three threads. The receive thread pushes bytes into
`rx_fifo`, the transmit thread pops them from `tx_fifo`, and the simulator's own thread
serves register accesses and the interrupt process. A semaphore counts the free places
of the first queue and one the bytes of the second. Both are changed outside of the
sections in which the queues are: a thread that has been granted a semaphore has not yet
touched the queue, and one that has changed the queue has not yet posted.

An action is one mutex-protected section or one operation on a semaphore, with what the
thread does by itself in front of the next one.
-/

namespace SymexVP.AbstractUart

open SymbolicUart (Register find txwm rxwm ctrlCnt newValue)

abbrev Byte := BitVec 8

/-- `UART_FIFO_DEPTH`. -/
def fifoDepth : Nat := 8

/-- `UART_FULL`, and the flag of an empty receive queue. -/
def full : BitVec 32 := 1 <<< 31

/-- The memory mapped registers. -/
structure Registers where
  txdata : BitVec 32
  rxdata : BitVec 32
  txctrl : BitVec 32
  rxctrl : BitVec 32
  ie : BitVec 32
  ip : BitVec 32
  div : BitVec 32
  deriving DecidableEq

def Registers.get (regs : Registers) : Register → BitVec 32
  | .txdata => regs.txdata
  | .rxdata => regs.rxdata
  | .txctrl => regs.txctrl
  | .rxctrl => regs.rxctrl
  | .ie => regs.ie
  | .ip => regs.ip
  | .div => regs.div

def Registers.set (regs : Registers) (value : BitVec 32) : Register → Registers
  | .txdata => { regs with txdata := value }
  | .rxdata => { regs with rxdata := value }
  | .txctrl => { regs with txctrl := value }
  | .rxctrl => { regs with rxctrl := value }
  | .ie => { regs with ie := value }
  | .ip => { regs with ip := value }
  | .div => { regs with div := value }

/-- Where the receive thread stands in `rxpush`. -/
inductive Receiver
  | idle
  /-- `swait(&rxempty)` has returned. -/
  | granted (data : Byte)
  | pushed
  deriving DecidableEq

/-- Where the transmit thread stands in the loop of `transmit`. -/
inductive Transmitter
  | waiting
  /-- `swait(&txfull)` has returned. -/
  | granted
  | popped (data : Byte)
  | notified (data : Byte)
  deriving DecidableEq

/-- Where the simulator's thread stands. -/
inductive Kernel
  | idle
  /-- A read of RXDATA has popped a byte and posts `rxempty`. -/
  | postRxempty (offset count : Nat)
  /-- A read of IP has looked at the transmit queue. -/
  | readIp (ret : BitVec 32) (offset count : Nat)
  /-- A write of TXDATA has pushed a byte and posts `txfull`. -/
  | postTxfull
  /-- `interrupt` has looked at the receive queue. -/
  | interrupt (trigger : Bool)
  deriving DecidableEq

structure State where
  regs : Registers
  txFifo : List Byte
  txfull : Nat
  rxFifo : List Byte
  rxempty : Nat
  /-- `asyncEvent` has requested an update. -/
  event : Bool
  receiver : Receiver
  transmitter : Transmitter
  kernel : Kernel
  deriving DecidableEq

/-- The constructor. -/
def State.initial : State :=
  ⟨⟨0, 0, 0, 0, 0, 0, 0⟩, [], 0, [], fifoDepth, false, .idle, .waiting, .idle⟩

/-- What the threads do that the properties speak of. -/
inductive Event
  | pushRx (data : Byte)
  /-- A byte is popped from the queue as it is at that moment. -/
  | popRx (fifo : List Byte)
  | popTx (fifo : List Byte)
  /-- A register is read while it holds `value`. -/
  | read (register : Register) (value : BitVec 32) (data : List Byte)
  /-- A write of `data` leaves `value` in TXDATA, whose low byte is queued. -/
  | accepted (offset : Nat) (data : List Byte) (value : BitVec 32)
  /-- A write of TXDATA is ignored. -/
  | dropped (fifo : List Byte)
  /-- `write_data`. -/
  | written (data : Byte)
  /-- `gateway_trigger_interrupt`. -/
  | triggered
  deriving DecidableEq

inductive Action
  /-- The receive thread calls `rxpush` and is granted `rxempty`. -/
  | swaitRxempty (data : Byte)
  | pushRx
  | notifyRx
  /-- The transmit thread is granted `txfull`. -/
  | swaitTxfull
  | popTx
  | notifyTx
  | writeData
  /-- A register access of the simulator's thread. -/
  | read (address count : Nat)
  | write (address : Nat) (data : List Byte)
  /-- The process `interrupt` runs for a requested update. -/
  | interrupt
  /-- The simulator's thread goes on behind a section. -/
  | resume
  deriving DecidableEq

/-! ## The simulator's thread -/

/-- `r.fn()` of a read, which ends the access. -/
def finishRead (uart : State) (register : Register) (offset count : Nat) : State × List Event :=
  ({ uart with kernel := .idle },
    [.read register (uart.regs.get register)
      (readBytes (uart.regs.get register) offset count)])

/-- `register_access_callback` on a read, up to the end of its first section. -/
def readAccess (uart : State) (register : Register) (offset count : Nat) : State × List Event :=
  match register with
  | .txdata =>
      let txdata := if uart.txFifo.length ≥ fifoDepth then full else 0
      finishRead { uart with regs := { uart.regs with txdata := txdata } } .txdata offset count
  | .rxdata =>
      match uart.rxFifo with
      | [] =>
          finishRead { uart with regs := { uart.regs with rxdata := full } } .rxdata offset count
      | data :: rest =>
          ({ uart with
              regs := { uart.regs with rxdata := data.setWidth 32 }
              rxFifo := rest
              kernel := .postRxempty offset count }, [.popRx uart.rxFifo])
  | .ip =>
      let ret := if uart.txFifo.length < ctrlCnt uart.regs.txctrl then txwm else 0
      ({ uart with kernel := .readIp ret offset count }, [])
  | register => finishRead uart register offset count

/-- Whether a write lowers the threshold of a queue. -/
def lowersThreshold (regs : Registers) (nv : BitVec 32) : Register → Bool
  | .txctrl => decide (ctrlCnt nv < ctrlCnt regs.txctrl)
  | .rxctrl => decide (ctrlCnt nv < ctrlCnt regs.rxctrl)
  | _ => false

/-- `register_access_callback` on a write, up to the end of its section. -/
def writeAccess (uart : State) (register : Register) (offset : Nat) (data : List Byte) :
    State × List Event :=
  let value := writeBytes (uart.regs.get register) offset data
  let notified := lowersThreshold uart.regs (newValue data) register || register == .ie
  let uart := { uart with
    regs := uart.regs.set value register
    event := uart.event || notified }
  if register = .txdata then
    if uart.txFifo.length ≥ fifoDepth then (uart, [.dropped uart.txFifo])
    else
      ({ uart with txFifo := uart.txFifo ++ [uart.regs.txdata.setWidth 8], kernel := .postTxfull },
        [.accepted offset data uart.regs.txdata])
  else (uart, [])

/-- What follows the section the simulator's thread has left. -/
def resume (uart : State) : Option (State × List Event) :=
  match uart.kernel with
  | .idle => none
  | .postRxempty offset count =>
      some (finishRead { uart with rxempty := uart.rxempty + 1 } .rxdata offset count)
  | .readIp ret offset count =>
      let ret := if ctrlCnt uart.regs.rxctrl < uart.rxFifo.length then ret ||| rxwm else ret
      some (finishRead { uart with regs := { uart.regs with ip := ret } } .ip offset count)
  | .postTxfull => some ({ uart with txfull := uart.txfull + 1, kernel := .idle }, [])
  | .interrupt trigger =>
      let trigger := trigger ||
        uart.regs.ie &&& txwm != 0 && decide (uart.txFifo.length < ctrlCnt uart.regs.txctrl)
      some ({ uart with kernel := .idle }, if trigger then [.triggered] else [])

/-- The first section of `interrupt`. -/
def interrupt (uart : State) : State × List Event :=
  let trigger := uart.regs.ie &&& rxwm != 0 && decide (ctrlCnt uart.regs.rxctrl < uart.rxFifo.length)
  ({ uart with event := false, kernel := .interrupt trigger }, [])

/-! ## Steps -/

/-- One action of one of the threads, if that thread is where the action starts and is not
blocked there. An access beyond the bank or beyond a register ends the simulation. -/
def step (uart : State) : Action → Option (State × List Event)
  | .swaitRxempty data =>
      match uart.receiver, uart.rxempty with
      | .idle, count + 1 => some ({ uart with rxempty := count, receiver := .granted data }, [])
      | _, _ => none
  | .pushRx =>
      match uart.receiver with
      | .granted data =>
          some ({ uart with rxFifo := uart.rxFifo ++ [data], receiver := .pushed }, [.pushRx data])
      | _ => none
  | .notifyRx =>
      if uart.receiver = .pushed then some ({ uart with event := true, receiver := .idle }, [])
      else none
  | .swaitTxfull =>
      match uart.transmitter, uart.txfull with
      | .waiting, count + 1 => some ({ uart with txfull := count, transmitter := .granted }, [])
      | _, _ => none
  | .popTx =>
      -- The front of an empty queue is undefined; the event tells of it.
      if uart.transmitter = .granted then
        some ({ uart with
          txFifo := uart.txFifo.tail
          transmitter := .popped (uart.txFifo.headD 0) }, [.popTx uart.txFifo])
      else none
  | .notifyTx =>
      match uart.transmitter with
      | .popped data => some ({ uart with event := true, transmitter := .notified data }, [])
      | _ => none
  | .writeData =>
      match uart.transmitter with
      | .notified data => some ({ uart with transmitter := .waiting }, [.written data])
      | _ => none
  | .read address count =>
      match uart.kernel, find address with
      | .idle, some register =>
          if count + address % 4 ≤ 4 then some (readAccess uart register (address % 4) count)
          else none
      | _, _ => none
  | .write address data =>
      match uart.kernel, find address with
      | .idle, some register =>
          if data.length + address % 4 ≤ 4 then
            some (writeAccess uart register (address % 4) data)
          else none
      | _, _ => none
  | .interrupt =>
      if uart.kernel = .idle ∧ uart.event then some (interrupt uart) else none
  | .resume => resume uart

end SymexVP.AbstractUart
