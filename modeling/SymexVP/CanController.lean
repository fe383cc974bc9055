import SymexVP.CheckedArrays

/-!
# The CAN controller

`CAN` models an MCP2515 behind the SPI bus. The guest sends it bytes: the first byte of
a command selects a state, and the following ones are taken by the function of that
state, which keeps what it has seen in variables of its own. Frames received from the
network are put into two buffers; frames to send are taken from three others.

The object is not initialised when it is created, apart from its state and its status.
Every access to an array is checked here, also where the source does not check it.
-/

namespace SymexVP.Can

open Exec

abbrev Byte := BitVec 8

@[match_pattern] abbrev MCP_WRITE : Nat := 0x02
@[match_pattern] abbrev MCP_READ : Nat := 0x03
@[match_pattern] abbrev MCP_BITMOD : Nat := 0x05
@[match_pattern] abbrev MCP_LOAD_TX0 : Nat := 0x40
@[match_pattern] abbrev MCP_LOAD_TX1 : Nat := 0x42
@[match_pattern] abbrev MCP_LOAD_TX2 : Nat := 0x44
@[match_pattern] abbrev MCP_RTS_TX0 : Nat := 0x81
@[match_pattern] abbrev MCP_RTS_TX1 : Nat := 0x82
@[match_pattern] abbrev MCP_RTS_TX2 : Nat := 0x84
@[match_pattern] abbrev MCP_RTS_ALL : Nat := 0x87
@[match_pattern] abbrev MCP_READ_RX0 : Nat := 0x90
@[match_pattern] abbrev MCP_READ_RX1 : Nat := 0x94
@[match_pattern] abbrev MCP_READ_STATUS : Nat := 0xA0
@[match_pattern] abbrev MCP_RX_STATUS : Nat := 0xB0
@[match_pattern] abbrev MCP_RESET : Nat := 0xC0

/-- The addresses of two registers. -/
def MCP_TXB0CTRL : Nat := 0x30
def MCP_RXB1SIDH : Nat := 0x71

/-- Where the bits of an identifier are. -/
def MCP_SIDH : Nat := 0
def MCP_SIDL : Nat := 1
def MCP_EID8 : Nat := 2
def MCP_EID0 : Nat := 3

def MCP_TXB_EXIDE_M : Byte := 0x08

abbrev CAN_MAX_DLEN : Nat := 8
abbrev CANFD_MAX_DLEN : Nat := 64

/-! ## The controller -/

inductive State
  | init | readRegister | writeRegister | bitmod
  | loadTX0 | loadTX1 | loadTX2
  | sendTX0 | sendTX1 | sendTX2 | sendALL
  | readRX0 | readRX1
  | getStatus
  deriving DecidableEq, Repr

/-- `MCPFrame`. The identifier is a union with its two halves. -/
structure MCPFrame where
  id : Vector Byte 4
  length : Byte
  payload : Vector Byte CANFD_MAX_DLEN
  deriving DecidableEq

/-- The other member of the union: the bytes of the frame in a row. -/
def MCPFrame.raw (frame : MCPFrame) : Vector Byte (5 + CANFD_MAX_DLEN) :=
  frame.id ++ #v[frame.length] ++ frame.payload

/-- `struct can_frame`. -/
structure CanFrame where
  can_id : BitVec 32
  can_dlc : Byte
  data : Vector Byte CAN_MAX_DLEN
  deriving DecidableEq

/-- A frame from the network. -/
structure ReceivedFrame extends CanFrame where
  bounded : can_dlc.toNat ≤ CAN_MAX_DLEN

/-- The static `command` of `modifyRegister`. -/
inductive ModRegState
  | address | mask | data
  deriving DecidableEq

structure ModReg where
  state : ModRegState
  address : Byte
  mask : Byte
  data : Byte
  deriving DecidableEq

/-- The static `command` of `loadTxBuf`. -/
inductive LoadTXState
  | id | length | payload
  deriving DecidableEq

structure LoadTX where
  state : LoadTXState
  payload_ptr : Byte
  deriving DecidableEq

def LoadTX.initial : LoadTX := ⟨.id, 0⟩

/-- The controller, and the static variables of its functions. -/
structure CAN where
  state : State
  registers : Vector Byte (MCP_RXB1SIDH + 1)
  txBuf : Vector MCPFrame 3
  rxBuf : Vector MCPFrame 2
  status : Byte
  /-- `selectedRegister` of `readRegister`. -/
  readSelected : BitVec 16
  /-- `selectedRegister` of `writeRegister`. -/
  writeSelected : BitVec 16
  modReg : ModReg
  loadTX : LoadTX
  /-- `payload_ptr` of `readRxBuf`. -/
  rxPtr : Byte
  deriving DecidableEq

/-- The arrays. -/
inductive Field
  | registers | txBuf | rxBuf | id | payload | raw | data
  deriving DecidableEq, Repr

/-- An access outside its array. -/
structure OutOfRange where
  field : Field
  index : Nat
  deriving DecidableEq, Repr

/-- What is written to the socket, and what is answered to the bus. -/
inductive Event
  | sent (frame : CanFrame)
  | replied (byte : Byte)
  deriving DecidableEq

abbrev CanM := Exec OutOfRange CAN Event

/-! ## Registers -/

/-- The state a command byte selects; an unknown one selects none. -/
def commanded (byte : Byte) : Option State :=
  match byte.toNat with
  | MCP_WRITE => some .writeRegister
  | MCP_READ => some .readRegister
  | MCP_BITMOD => some .bitmod
  | MCP_LOAD_TX0 => some .loadTX0
  | MCP_LOAD_TX1 => some .loadTX1
  | MCP_LOAD_TX2 => some .loadTX2
  | MCP_RTS_TX0 => some .sendTX0
  | MCP_RTS_TX1 => some .sendTX1
  | MCP_RTS_TX2 => some .sendTX2
  | MCP_RTS_ALL => some .sendALL
  | MCP_READ_RX0 => some .readRX0
  | MCP_READ_RX1 => some .readRX1
  | MCP_READ_STATUS => some .getStatus
  | MCP_RX_STATUS => none
  | MCP_RESET => some .init
  | _ => none

def command (byte : Byte) : CanM Unit :=
  modify fun can => { can with state := (commanded byte).getD can.state }

/-- The part of `readRegister` that reads. -/
def registerValue (can : CAN) : CanM Byte :=
  let index := can.readSelected.toInt.toNat
  if MCP_RXB1SIDH < can.readSelected.toInt then pure 0
  else element can.registers index ⟨.registers, index⟩

def readRegister (byte : Byte) : CanM Byte := do
  let can ← get
  if can.readSelected.toInt < 0 then do
    modify fun can => { can with readSelected := byte.setWidth 16 }
    pure 0
  else if byte ≠ 0 then do
    -- The end of the automatic increment: the byte is the next command.
    modify fun can => { can with readSelected := -1 }
    command byte
    pure 0
  else do
    let ret ← registerValue can
    modify fun can => { can with readSelected := can.readSelected + 1 }
    pure ret

def writeRegister (byte : Byte) : CanM Byte := do
  let can ← get
  if can.writeSelected.toInt < 0 then do
    modify fun can => { can with writeSelected := byte.setWidth 16 }
    pure 0
  else if MCP_RXB1SIDH < can.writeSelected.toInt then pure 0
  else do
    let index := can.writeSelected.toInt.toNat
    let registers ← replace can.registers index byte ⟨.registers, index⟩
    modify fun can =>
      { can with registers := registers, writeSelected := -1, state := .init }
    pure 0

/-- The address is not checked. -/
def modifyRegister (byte : Byte) : CanM Byte := do
  let can ← get
  match can.modReg.state with
  | .address =>
      modify fun can => { can with modReg := { can.modReg with address := byte, state := .mask } }
  | .mask =>
      modify fun can => { can with modReg := { can.modReg with mask := byte, state := .data } }
  | .data =>
      modify fun can =>
        { can with modReg := { can.modReg with data := byte, state := .address }, state := .init }
      let address := can.modReg.address.toNat
      let old ← element can.registers address ⟨.registers, address⟩
      let registers ← replace can.registers address ((old &&& ~~~can.modReg.mask) ||| byte)
        ⟨.registers, address⟩
      modify fun can => { can with registers := registers }
  pure 0

/-! ## Identifiers -/

/-- `mcp2515_id_to_buf`; all four bytes are written. -/
def mcp2515IdToBuf (id : BitVec 64) (extended : Bool) : Vector Byte 4 :=
  let canid := id.setWidth 16
  if extended then
    let upper := (id >>> 16).setWidth 16
    let sidl := ((upper &&& 0x03).setWidth 8 + ((upper &&& 0x1C) <<< 3).setWidth 8) |||
      MCP_TXB_EXIDE_M
    #v[(upper >>> 5).setWidth 8, sidl, (canid >>> 8).setWidth 8, (canid &&& 0xFF).setWidth 8]
  else #v[(canid >>> 3).setWidth 8, ((canid &&& 0x07) <<< 5).setWidth 8, 0, 0]

/-- `mcp2515_buf_to_id`: the identifier and whether it is an extended one. -/
def mcp2515BufToId (idField : Vector Byte 4) : BitVec 32 × Bool :=
  let part (index : Fin 4) : BitVec 32 := idField[index].setWidth 32
  let id := (part 0 <<< 3) + (part 1 >>> 5)
  if idField[MCP_SIDL] &&& MCP_TXB_EXIDE_M = MCP_TXB_EXIDE_M then
    let id := (id <<< 2) + (part 1 &&& 0x03)
    let id := (id <<< 8) + part 2
    ((id <<< 8) + part 3, true)
  else (id, false)

/-! ## Buffers -/

/-- `loadTxBuf`. The length is taken as it is. -/
def loadTxBuf (no : Nat) (byte : Byte) : CanM Byte := do
  let can ← get
  let ptr := can.loadTX.payload_ptr
  let buffer ← element can.txBuf no ⟨.txBuf, no⟩
  match can.loadTX.state with
  | .id =>
      let id ← replace buffer.id ptr.toNat byte ⟨.id, ptr.toNat⟩
      let txBuf ← replace can.txBuf no { buffer with id := id } ⟨.txBuf, no⟩
      modify fun can =>
        { can with
          txBuf := txBuf
          loadTX := if ptr + 1 = 4 then ⟨.length, 0⟩ else ⟨.id, ptr + 1⟩ }
  | .length =>
      let txBuf ← replace can.txBuf no { buffer with length := byte } ⟨.txBuf, no⟩
      modify fun can => { can with txBuf := txBuf, loadTX := { can.loadTX with state := .payload } }
  | .payload =>
      let payload ← replace buffer.payload ptr.toNat byte ⟨.payload, ptr.toNat⟩
      let txBuf ← replace can.txBuf no { buffer with payload := payload } ⟨.txBuf, no⟩
      modify fun can =>
        if ptr + 1 = buffer.length then
          { can with txBuf := txBuf, loadTX := .initial, state := .init }
        else { can with txBuf := txBuf, loadTX := ⟨.payload, ptr + 1⟩ }
  pure 0

/-- `sendTxBuf`; the special case is for a number that is never passed. -/
def sendTxBuf (no : Nat) (_ : Byte) : CanM Byte := do
  let no := if no = 4 then 0 else no
  let can ← get
  let buffer ← element can.txBuf no ⟨.txBuf, no⟩
  let data ← copy buffer.payload (OutOfRange.mk .payload) (OutOfRange.mk .data)
    buffer.length.toNat (Vector.replicate CAN_MAX_DLEN 0)
  emit (.sent ⟨(mcp2515BufToId buffer.id).1, buffer.length, data⟩)
  let registers ← replace can.registers MCP_TXB0CTRL 0 ⟨.registers, MCP_TXB0CTRL⟩
  modify fun can => { can with registers := registers, state := .readRegister }
  pure 0

/-- `readRxBuf`. -/
def readRxBuf (no : Nat) (_ : Byte) : CanM Byte := do
  let can ← get
  let buffer ← element can.rxBuf no ⟨.rxBuf, no⟩
  let ret ← element buffer.raw can.rxPtr.toNat ⟨.raw, can.rxPtr.toNat⟩
  modify fun can => { can with rxPtr := can.rxPtr + 1 }
  when (buffer.length.toNat + 4 < (can.rxPtr + 1).toNat) do
    modify fun can =>
      { can with rxPtr := 0, state := .init, status := can.status &&& ~~~((1 : Byte) <<< no) }
  pure ret

/-- `whichBuf`, after the cases of `write` have fallen through. -/
def whichBuf : State → Nat
  | .loadTX1 | .sendTX1 | .readRX1 => 1
  | .loadTX2 | .sendTX2 => 2
  | .sendALL => 3
  | _ => 0

/-- `write`: a byte from the bus, and the answer. -/
def write (byte : Byte) : CanM Byte := do
  let can ← get
  match can.state with
  | .init => do
      command byte
      pure 0
  | .readRegister => readRegister byte
  | .writeRegister => writeRegister byte
  | .bitmod => modifyRegister byte
  | .loadTX0 | .loadTX1 | .loadTX2 => loadTxBuf (whichBuf can.state) byte
  | .sendTX0 | .sendTX1 | .sendTX2 | .sendALL => sendTxBuf (whichBuf can.state) byte
  | .readRX0 | .readRX1 => readRxBuf (whichBuf can.state) byte
  | .getStatus => do
      modify fun can => { can with state := .init }
      pure can.status

/-- `enqueueIncomingCanFrame`: the first free buffer takes the frame. -/
def enqueueIncomingCanFrame (frame : CanFrame) : CanM Unit := do
  let can ← get
  match [0, 1].find? fun index => !can.status.getLsbD index with
  | none => pure ()
  | some index => do
      let payload ← copy frame.data (OutOfRange.mk .data) (OutOfRange.mk .payload)
        frame.can_dlc.toNat (Vector.replicate CANFD_MAX_DLEN 0)
      let buffer := ⟨mcp2515IdToBuf (frame.can_id.setWidth 64) false, frame.can_dlc, payload⟩
      let rxBuf ← replace can.rxBuf index buffer ⟨.rxBuf, index⟩
      modify fun can => { can with rxBuf := rxBuf, status := can.status ||| (1 : Byte) <<< index }

/-! ## Runs -/

/-- What happens to the controller. -/
inductive Input
  | byte (byte : Byte)
  | frame (frame : ReceivedFrame)

def handle : Input → CanM Unit
  | .byte byte => do
      let reply ← write byte
      emit (.replied reply)
  | .frame frame => enqueueIncomingCanFrame frame.toCanFrame

/-- A controller as its constructor leaves it; its registers and buffers hold anything. -/
structure PowerOn (can : CAN) : Prop where
  state : can.state = .init
  status : can.status = 0
  readSelected : can.readSelected = -1
  writeSelected : can.writeSelected = -1
  modReg : can.modReg = ⟨.address, 0, 0, 0⟩
  loadTX : can.loadTX = .initial
  rxPtr : can.rxPtr = 0

end SymexVP.Can
