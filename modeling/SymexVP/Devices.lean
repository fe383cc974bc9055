import SymexVP.MemoryInterface

/-!
# The bus and its devices

`SimpleBus` routes a transaction to the first port that contains its address and
replaces the address by the port's local one. Behind the ports are the symbolic
memory, the control device that marks memory symbolic, the symbolic sensor, and
devices of the outside world. The control device calls back into the memory
interface, so that the bus is defined by recursion on how deeply such calls nest.
-/

namespace SymexVP

open Board

variable {P : Platform}

/-! ## SymbolicMemory -/

namespace SymbolicMemory

/-- `read_data`: the loaded value is attached, its concrete part copied to the buffer. -/
def readData (board : Board P) (trans : Payload P.clover.terms) : Payload P.clover.terms :=
  let size := trans.data.length
  let data : Concolic P.clover.terms := ⟨_, P.clover.load board.memory trans.address.toNat size⟩
  { trans with data := data.toBytes size, extension := some data }

/-- `write_data`: the attached value is stored, or the bytes of the buffer if there is none. -/
def writeData (board : Board P) (trans : Payload P.clover.terms) : Board P :=
  let value := trans.extension.getD (Concolic.ofBytes trans.data)
  { board with
    memory := P.clover.store board.memory trans.address.toNat value.value trans.data.length }

/-- `transport` with `transport_dbg`. -/
def transport (trans : Payload P.clover.terms) (delay : Nat) :
    MemM P (Payload P.clover.terms × Nat) := do
  let board ← Exec.get
  if P.memSize < trans.address + BitVec.ofNat 64 trans.data.length then
    pure ({ trans with response := .addressError }, delay + 10)
  else
    match trans.command with
    | .read => pure (readData board trans, delay + 10)
    | .write => do
        Exec.modify fun board => writeData board trans
        pure (trans, delay + 10)

end SymbolicMemory

/-! ## Registers of four bytes -/

/-- `memcpy` into a word from byte `offset` on. -/
def writeBytes (value : BitVec 32) (offset : Nat) : List (BitVec 8) → BitVec 32
  | [] => value
  | byte :: rest =>
      writeBytes (BitFields.setField (8 * offset) 8 value (byte.setWidth 32)) (offset + 1) rest

/-- `memcpy` out of a word. -/
def readBytes (value : BitVec 32) (offset count : Nat) : List (BitVec 8) :=
  (List.range count).map fun index => Clover.byteOf (offset + index) value

/-! ## SymbolicCTRL -/

namespace SymbolicCtrl

/-- The three register ranges, of four bytes each. -/
inductive Register
  | addr
  | size
  | ctrl
  deriving DecidableEq, Repr

def Register.start : Register → Nat
  | .addr => 0x0
  | .size => 0x4
  | .ctrl => 0x8

/-- `vp::mm::route` over the ranges. -/
def route (address : Nat) : Option Register :=
  [Register.addr, .size, .ctrl].find? fun register =>
    register.start ≤ address && address ≤ register.start + 3

def get (registers : CtrlRegisters) : Register → BitVec 32
  | .addr => registers.addr
  | .size => registers.size
  | .ctrl => registers.ctrl

def set (registers : CtrlRegisters) (value : BitVec 32) : Register → CtrlRegisters
  | .addr => { registers with addr := value }
  | .size => { registers with size := value }
  | .ctrl => { registers with ctrl := value }

/-- `write_ctrl`: report an error, request the exit, and clear the register. -/
def writeCtrl : MemM P Unit := do
  let board ← Exec.get
  let value := board.ctrl.ctrl
  Exec.when (value.getLsbD 31) do
    Exec.emit .hostError
    Exec.modify fun board => { board with shallExit := true }
  Exec.when (value.getLsbD 30) (Exec.modify fun board => { board with shallExit := true })
  Exec.modify fun board => { board with ctrl := { board.ctrl with ctrl := 0 } }

/-- The callback after a register was written; `write_size` uses the address register. -/
def postWrite (makeSymbolic : BitVec 32 → BitVec 32 → MemM P Unit) : Register → MemM P Unit
  | .addr => pure ()
  | .size => do
      let board ← Exec.get
      makeSymbolic board.ctrl.addr board.ctrl.size
  | .ctrl => writeCtrl

/-- `transport`: `RegisterRange::process` on the range that contains the address. -/
def transport (makeSymbolic : BitVec 32 → BitVec 32 → MemM P Unit)
    (trans : Payload P.clover.terms) (delay : Nat) : MemM P (Payload P.clover.terms × Nat) := do
  match route trans.address.toNat with
  | none =>
      Exec.throw (.runtimeError
        ("SymbolicCTRL unable to route address " ++ toString trans.address.toNat))
  | some register => do
      let offset := trans.address.toNat - register.start
      Exec.require (offset + trans.data.length ≤ 4) (.assertion "local_addr + len <= mem.size()")
      match trans.command with
      | .read => do
          let board ← Exec.get
          pure ({ trans with
            data := readBytes (get board.ctrl register) offset trans.data.length }, delay + 10)
      | .write => do
          Exec.modify fun board =>
            { board with
              ctrl := set board.ctrl (writeBytes (get board.ctrl register) offset trans.data)
                register }
          postWrite makeSymbolic register
          pure (trans, delay + 10)

end SymbolicCtrl

/-! ## SymbolicSensor -/

namespace SymbolicSensor

/-- The value register: a fresh symbolic word brought between the bounds. -/
def sample (input : P.clover.terms.Assignment) (sensor : SensorRegisters) :
    ConcolicValue P.clover.terms 32 :=
  let word := P.clover.getSymbolicWord input (Injection.sensor sensor.nread).name
  P.clover.binary .add
    (P.clover.binary .urem word (.BVC (sensor.upperBound - sensor.lowerBound)))
    (.BVC sensor.lowerBound)

/-- `addr2register` and the copy into it. -/
def assign (sensor : SensorRegisters) (address : BitVec 64) (bytes : List (BitVec 8)) :
    Option SensorRegisters :=
  let value := BitVec.ofNat 32 (Clover.littleEndian bytes)
  if address = 0x0 then some { sensor with lowerBound := value }
  else if address = 0x4 then some { sensor with upperBound := value }
  else none

/-- `transport`. -/
def transport (input : P.clover.terms.Assignment) (trans : Payload P.clover.terms)
    (delay : Nat) : MemM P (Payload P.clover.terms × Nat) := do
  let board ← Exec.get
  let failed := ({ trans with response := .addressError }, delay)
  if trans.data.length ≠ 4 then pure failed
  else
    match trans.command with
    | .read =>
        if trans.address ≠ 0x8 ∨ board.sensor.upperBound ≤ board.sensor.lowerBound then
          pure failed
        else do
          let value : Concolic P.clover.terms := ⟨32, sample input board.sensor⟩
          Exec.emit (.injected (.sensor board.sensor.nread))
          Exec.modify fun board =>
            { board with sensor := { board.sensor with nread := board.sensor.nread + 1 } }
          pure ({ trans with data := value.toBytes 4, extension := some value, response := .ok },
            delay)
    | .write =>
        match assign board.sensor trans.address trans.data with
        | none => pure failed
        | some sensor => do
            Exec.modify fun board => { board with sensor := sensor }
            pure ({ trans with response := .ok }, delay)

end SymbolicSensor

/-! ## SymbolicUART -/

namespace SymbolicUart

inductive Register
  | txdata
  | rxdata
  | txctrl
  | rxctrl
  | ie
  | ip
  | div
  deriving DecidableEq, Repr

def Register.addr : Register → Nat
  | .txdata => 0x0
  | .rxdata => 0x4
  | .txctrl => 0x8
  | .rxctrl => 0xC
  | .ie => 0x10
  | .ip => 0x14
  | .div => 0x18

/-- The register bank, looked up at the nearest register below an address. -/
def find (address : Nat) : Option Register :=
  [Register.txdata, .rxdata, .txctrl, .rxctrl, .ie, .ip, .div].find? fun register =>
    register.addr == address - address % 4

section Registers

variable {terms : Terms}

def get (uart : UartRegisters terms) : Register → BitVec 32
  | .txdata => uart.txdata
  | .rxdata => uart.rxdata
  | .txctrl => uart.txctrl
  | .rxctrl => uart.rxctrl
  | .ie => uart.ie
  | .ip => uart.ip
  | .div => uart.div

def set (uart : UartRegisters terms) (value : BitVec 32) : Register → UartRegisters terms
  | .txdata => { uart with txdata := value }
  | .rxdata => { uart with rxdata := value }
  | .txctrl => { uart with txctrl := value }
  | .rxctrl => { uart with rxctrl := value }
  | .ie => { uart with ie := value }
  | .ip => { uart with ip := value }
  | .div => { uart with div := value }

/-- `UART_TXWM`, `UART_RXWM` and `UART_CTRL_CNT`. -/
def txwm : BitVec 32 := 1 <<< 0
def rxwm : BitVec 32 := 1 <<< 1
def ctrlCnt (control : BitVec 32) : Nat := (control >>> 16).toNat

/-- The condition under which `interrupt` triggers the gateway. -/
def triggers (uart : UartRegisters terms) : Bool :=
  (uart.ie &&& rxwm != 0 && decide (ctrlCnt uart.rxctrl < uart.rxFifo.length)) ||
    uart.ie &&& txwm != 0

/-- The byte a read of the receive register takes out of the queue. It is only taken while
the receive interrupt is enabled, since drivers drain the register during initialisation. -/
def received (uart : UartRegisters terms) : Option (ConcolicValue terms 8) :=
  if uart.ie &&& rxwm = 0 then none else uart.rxFifo.head?

end Registers

/-- What `register_access_callback` does to a register before it is read, and the value it
attaches to the transaction. -/
def prepareRead (uart : UartRegisters P.clover.terms) :
    Register → UartRegisters P.clover.terms × Option (Concolic P.clover.terms)
  | .txdata => ({ uart with txdata := 0 }, none)
  | .rxdata =>
      match received uart with
      | none => ({ uart with rxdata := 1 <<< 31 }, none)
      | some byte =>
          let reg := P.clover.zext 32 byte
          ({ uart with rxdata := reg.concrete, rxFifo := uart.rxFifo.tail }, some ⟨32, reg⟩)
  | .ip =>
      let rx := if ctrlCnt uart.rxctrl < uart.rxFifo.length then rxwm else 0
      ({ uart with ip := txwm ||| rx }, none)
  | .ie | .div | .txctrl | .rxctrl => (uart, none)

/-- `nv`: the data buffer taken for a word. Of a shorter buffer the bytes behind it are not
part of the transaction; they are taken to be zero. -/
def newValue (bytes : List (BitVec 8)) : BitVec 32 := BitVec.ofNat 32 (Clover.littleEndian bytes)

/-- Whether a write makes the callback notify its event at once. -/
def lowersThreshold (uart : UartRegisters P.clover.terms) (nv : BitVec 32) : Register → Bool
  | .txctrl => decide (ctrlCnt nv < ctrlCnt uart.txctrl)
  | .rxctrl => decide (ctrlCnt nv < ctrlCnt uart.rxctrl)
  | _ => false

/-- Tell the world what became of the event, 100 ms after the interrupt enable register was
written, at once, or not at all. -/
def notify (afterWrite : Bool) (register : Register) (notified : Bool) : MemM P Unit :=
  Exec.modify fun board =>
    let delay := if afterWrite && register == .ie then some 100000000
      else if notified then some 0 else none
    { board with world := P.world.notifyUart board.world delay (triggers board.uart) }

/-- `transport`: `RegisterMapping::try_handle` with `register_access_callback`. -/
def transport (trans : Payload P.clover.terms) (delay : Nat) :
    MemM P (Payload P.clover.terms × Nat) := do
  let address := trans.address.toNat
  let offset := address % 4
  match find address with
  | none =>
      Exec.throw (.runtimeError ("access of unmapped address (local TLM router): " ++
        "name=SymbolicUART, addr=0x" ++ (String.ofList (Nat.toDigits 16 address)).toUpper))
  | some register => do
      Exec.require (trans.data.length + offset ≤ 4) (.assertion "len + (addr % 4) <= 4")
      let board ← Exec.get
      match trans.command with
      | .read => do
          let (uart, extension) := prepareRead board.uart register
          let notified := uart.ie &&& txwm != 0
          Exec.modify fun board => { board with uart := uart }
          notify false register notified
          pure ({ trans with
            data := readBytes (get uart register) offset trans.data.length
            extension := extension.or trans.extension }, delay)
      | .write => do
          let notified := lowersThreshold board.uart (newValue trans.data) register ||
            board.uart.ie &&& txwm != 0
          let value := writeBytes (get board.uart register) offset trans.data
          Exec.modify fun board => { board with uart := set board.uart value register }
          notify true register notified
          pure (trans, delay)

end SymbolicUart

/-! ## Devices of the outside world -/

/-- The bytes a device leaves in a buffer. -/
def fill (buffer bytes : List (BitVec 8)) : List (BitVec 8) :=
  (bytes ++ buffer.drop bytes.length).take buffer.length

/-- A transaction with a device that sees concrete bytes only. -/
def externalTransport (device : Nat) (trans : Payload P.clover.terms) (delay : Nat) :
    MemM P (Payload P.clover.terms × Nat) := do
  let board ← Exec.get
  match P.world.transport device board.world trans.command trans.address trans.data delay with
  | none => Exec.throw .deviceError
  | some ((response, data, delay), world, signals) => do
      Exec.modify fun board => board.signalled world signals
      pure ({ trans with response := response, data := fill trans.data data }, delay)

/-! ## SimpleBus -/

namespace SimpleBus

def contains (port : Port) (address : BitVec 64) : Bool :=
  port.start ≤ address && address ≤ port.stop

/-- `decode`: the first port that contains the address. -/
def decode (P : Platform) (address : BitVec 64) : Option Port :=
  P.ports.find? fun port => contains port address

/-- Hand a transaction over to a target. Data written to a device other than the memory
arrives there as concrete bytes. -/
def deliver (makeSymbolic : BitVec 32 → BitVec 32 → MemM P Unit)
    (input : P.clover.terms.Assignment) (target : Target) (trans : Payload P.clover.terms)
    (delay : Nat) : MemM P (Payload P.clover.terms × Nat) := do
  Exec.when (target ≠ .memory ∧ trans.command = .write)
    (Exec.emit (.concretized .peripheralData trans.isSymbolic))
  match target with
  | .memory => SymbolicMemory.transport trans delay
  | .ctrl => SymbolicCtrl.transport makeSymbolic trans delay
  | .sensor => SymbolicSensor.transport input trans delay
  | .uart => SymbolicUart.transport trans delay
  | .external device => externalTransport device trans delay

/-- `transport`, for devices that call `makeSymbolic` back. -/
def transport (makeSymbolic : BitVec 32 → BitVec 32 → MemM P Unit)
    (input : P.clover.terms.Assignment) : Socket P := fun trans delay =>
  match decode P trans.address with
  | none => pure ({ trans with response := .addressError }, delay)
  | some port =>
      deliver makeSymbolic input port.target
        { trans with address := trans.address - port.start } delay

/-- The bus with callbacks nested at most `depth` deep. -/
def nested (core : Core) (input : P.clover.terms.Assignment) : (depth : Nat) → Socket P
  | 0 => fun _ _ => Exec.throw .stackOverflow
  | depth + 1 =>
      transport (MemoryInterface.makeSymbolic (nested core input depth) core input) input

end SimpleBus

/-- The bus a hart's memory interface is bound to. -/
def bus (core : Core) (input : P.clover.terms.Assignment) : Socket P :=
  SimpleBus.nested core input P.depth

/-- The platform of `symex_main.cpp`: 32 MiB of symbolic memory, the CLINT, the control device
and the sensor. The translation unit is never given a memory interface of its own. -/
def symexPlatform (clover : Clover) (world : World) (depth : Nat) : Platform where
  clover := clover
  world := world
  ports := [⟨0x00000000, 0x01ffffff, .memory⟩, ⟨0x02000000, 0x0200ffff, .external 0⟩,
    ⟨0x02020000, 0x02020032, .ctrl⟩, ⟨0x02020100, 0x02020132, .sensor⟩]
  memSize := 0x02000000
  hasMmu := true
  mmuMem := false
  pageFaultOnAD := false
  depth := depth

/-- The platform of `hifive_main.cpp`: 16 KiB of symbolic memory behind the address of the
DRAM, the symbolic UART and the control device; flash, interrupt controllers, GPIO, SPI and
the other UART belong to the outside world. There is no translation unit. -/
def hifivePlatform (clover : Clover) (world : World) (depth : Nat) : Platform where
  clover := clover
  world := world
  ports := [⟨0x20000000, 0x3fffffff, .external 0⟩, ⟨0x80000000, 0x80003fff, .memory⟩,
    ⟨0x0c000000, 0x0fffffff, .external 2⟩, ⟨0x02000000, 0x0200ffff, .external 3⟩,
    ⟨0x10000000, 0x10007fff, .external 4⟩, ⟨0x10008000, 0x1000ffff, .external 5⟩,
    ⟨0x10014000, 0x10014fff, .external 6⟩, ⟨0x10013000, 0x10013fff, .external 7⟩,
    ⟨0x00001000, 0x00001fff, .external 8⟩, ⟨0x10012000, 0x10012fff, .external 9⟩,
    ⟨0x10024000, 0x10024fff, .external 10⟩, ⟨0x10034000, 0x10034fff, .external 11⟩,
    ⟨0x10023000, 0x10023fff, .uart⟩, ⟨0x02020000, 0x02020032, .ctrl⟩]
  memSize := 0x4000
  hasMmu := false
  mmuMem := false
  pageFaultOnAD := false
  depth := depth

end SymexVP
