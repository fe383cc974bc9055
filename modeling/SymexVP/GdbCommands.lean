import Mathlib.Data.List.TakeWhile
import SymexVP.BacktrackingParser
import SymexVP.GdbFraming

/-!
# The debugger's commands

A packet that has passed the framing is decoded to a text, the text is parsed to a
command, and the command's handler is looked up by its name. Seven grammars give a
command an argument of a type of their own. An eighth accepts whatever is left and sets
no argument: its name is the text up to the first colon. Dispatch goes by the name
alone, so that a text which is a typed command's name and nothing more reaches the
handler that reads the argument.
-/

namespace SymexVP.Gdb

/-- The bytes of a literal. -/
def str (text : String) : List Byte := text.toList.map byte

/-! ## From the packet to the text -/

/-- `CHAR_MAX`. -/
def PlainChar.max : PlainChar → Int
  | .signed => 127
  | .unsigned => 255

/-- The loop of `gdb_decode_runlen` from the character behind `previous`; `runlen` is the
character to repeat, or -1. The result is absent if the encoding is malformed. -/
def decodeRunlen (plain : PlainChar) (previous : Option Byte) (runlen : Int) :
    List Byte → Except Abort (Option (List Byte))
  | [] => .ok (some [])
  | character :: rest =>
      if character = byte '*' then
        match previous with
        | none => .ok none
        | some repeated => decodeRunlen plain (some character) (plain.toInt repeated) rest
      else
        let repeated := if runlen = -1 then plain.toInt character else runlen
        let rcount := if runlen = -1 then 1 else plain.toInt character - 29
        if rcount ≤ 0 then .ok none
        else if repeated < 0 ∨ plain.max < repeated then .error .assertion
        else
          match decodeRunlen plain (some character) (-1) rest with
          | .ok (some decoded) =>
              .ok (some (List.replicate rcount.toNat (BitVec.ofInt 8 repeated) ++ decoded))
          | other => other

/-- `gdb_decode_runlen`. -/
def gdbDecodeRunlen (plain : PlainChar) (data : CString) : Except Abort (Option (List Byte)) :=
  decodeRunlen plain none (-1) data.bytes

/-- The loop of `gdb_unescape`. -/
def unescapeFrom (esc : Bool) : List Byte → List Byte
  | [] => []
  | character :: rest =>
      if character = byte '\x7d' then unescapeFrom true rest
      else (if esc then character ^^^ 0x20 else character) :: unescapeFrom false rest

/-- What C sees of a buffer: the bytes in front of the first NUL. -/
def CString.ofBuffer (buffer : List Byte) : CString :=
  ⟨buffer.takeWhile (· != 0), fun _ member => by simpa using List.mem_takeWhile_imp member⟩

/-- `gdb_unescape`. An escaped blank is a NUL, which ends the text. -/
def gdbUnescape (data : List Byte) : CString :=
  .ofBuffer (unescapeFrom false (CString.ofBuffer data).bytes)

/-- The text of a packet, unless `gdb_parse_cmd` refuses it before it parses. -/
def packetText (plain : PlainChar) (pkt : GdbPacket) : Except Abort (Option CString) :=
  if pkt.kind ≠ .packet then .ok none
  else
    match gdbIsValid plain pkt with
    | .error abort => .error abort
    | .ok false => .ok none
    | .ok true =>
        match pkt.data with
        | none => .error .nullString
        | some data =>
            match gdbDecodeRunlen plain data with
            | .error abort => .error abort
            | .ok none => .ok none
            | .ok (some decoded) => .ok (some (gdbUnescape decoded))

/-! ## Commands -/

/-- `gdb_argument_t`. -/
inductive ArgumentType
  | none
  | vcont
  | h
  | int
  | memory
  | memoryw
  | break
  | thread
  deriving DecidableEq, Repr

/-- `gdb_thread_t`: an absent process is `GDB_THREAD_UNSET`, a thread of -1 stands for all. -/
structure GdbThread where
  pid : Option Int
  tid : Int

/-- `gdb_memory_t`; numbers are kept as their digits say. -/
structure GdbMemory where
  addr : Nat
  length : Nat

/-- One `gdb_vcont_t` of the list; a signal is absent if it is not given. -/
structure GdbVcont where
  action : Byte
  sig : Option Nat
  thread : GdbThread

/-- The member of the union in `gdb_command_t` that a grammar sets. -/
inductive Argument
  | none
  | vval (actions : List GdbVcont)
  | hcmd (op : Byte) (id : GdbThread)
  | ival (value : Nat)
  | mem (location : GdbMemory)
  | memw (location : GdbMemory) (data : List Byte)
  | bval (type : Nat) (address kind : Nat)
  | tval (thread : GdbThread)

def Argument.type : Argument → ArgumentType
  | .none => .none
  | .vval _ => .vcont
  | .hcmd _ _ => .h
  | .ival _ => .int
  | .mem _ => .memory
  | .memw _ _ => .memoryw
  | .bval _ _ _ => .break
  | .tval _ => .thread

/-- `gdb_command_t`. -/
structure GdbCommand where
  name : List Byte
  v : Argument

/-! ## The stage-two grammar -/

namespace Stage2

abbrev Mpc (α : Type) := Grammar Abort Byte α

def char (character : Byte) : Mpc Byte := Grammar.satisfy (· == character)

def any : Mpc Byte := Grammar.satisfy fun _ => true

def oneof (characters : List Byte) : Mpc Byte := Grammar.satisfy (characters.contains ·)

/-- The value of a hexadecimal digit. -/
def hexDigit (character : Byte) : Option Nat :=
  if byte '0' ≤ character ∧ character ≤ byte '9' then some (character - byte '0').toNat
  else if byte 'a' ≤ character ∧ character ≤ byte 'f' then some ((character - byte 'a').toNat + 10)
  else if byte 'A' ≤ character ∧ character ≤ byte 'F' then some ((character - byte 'A').toNat + 10)
  else none

def hexdigits : Mpc (List Byte) := Grammar.many1 (Grammar.satisfy fun c => (hexDigit c).isSome)

/-- The number a string of hexadecimal digits stands for. -/
def hexValue (digits : List Byte) : Nat :=
  digits.foldl (fun value digit => 16 * value + (hexDigit digit).getD 0) 0

/-- `mpc_hex`, `gdb_address` and `gdb_uhex`. -/
def hex : Mpc Nat := do
  let digits ← hexdigits
  pure (hexValue digits)

/-- `gdb_hexid`. -/
def gdbHexid : Mpc Int :=
  (do let value ← hex; pure (value : Int)).or do
    let _ ← char (byte '-')
    let _ ← char (byte '1')
    pure (-1)

/-- `gdb_thread_id`. -/
def gdbThreadId : Mpc GdbThread := do
  let pid ← Grammar.maybe do
    let _ ← char (byte 'p')
    let pid ← gdbHexid
    let _ ← char (byte '.')
    pure pid
  let tid ← gdbHexid
  pure ⟨pid, tid⟩

/-- `gdb_memory`. -/
def gdbMemory : Mpc GdbMemory := do
  let addr ← hex
  let _ ← char (byte ',')
  let length ← hex
  pure ⟨addr, length⟩

/-- `gdb_packet_h`. -/
def gdbPacketH : Mpc GdbCommand := do
  let name ← char (byte 'H')
  let op ← any
  let id ← gdbThreadId
  pure ⟨[name], .hcmd op id⟩

/-- `gdb_packet_p`. -/
def gdbPacketP : Mpc GdbCommand := do
  let name ← char (byte 'p')
  let value ← hex
  pure ⟨[name], .ival value⟩

/-- `gdbf_vcont_action`: a signal has two digits, and no other number of them is survived. -/
def gdbfVcontAction (action : List Byte) (thread : Option GdbThread) : Mpc GdbVcont :=
  let target := thread.getD ⟨none, -1⟩
  match action with
  | [action] => pure ⟨action, none, target⟩
  | [action, high, low] => pure ⟨action, some (hexValue [high, low]), target⟩
  | _ => Grammar.abort .assertion

/-- One action of `vCont`. -/
def gdbVcontAction : Mpc GdbVcont := do
  let action ← (do let action ← oneof (str "cst"); pure [action]).or do
    let action ← oneof (str "CS")
    let digits ← hexdigits
    pure (action :: digits)
  let thread ← Grammar.maybe do
    let _ ← char (byte ':')
    gdbThreadId
  gdbfVcontAction action thread

/-- `mpc_string`. -/
def string : List Byte → Mpc (List Byte)
  | [] => pure []
  | character :: rest => do
      let first ← char character
      let others ← string rest
      pure (first :: others)

/-- `gdb_packet_vcont`. -/
def gdbPacketVcont : Mpc GdbCommand := do
  let name ← string (str "vCont")
  let actions ← Grammar.many1 do
    let _ ← char (byte ';')
    gdbVcontAction
  pure ⟨name, .vval actions⟩

/-- `gdb_packet_m`. -/
def gdbPacketm : Mpc GdbCommand := do
  let name ← char (byte 'm')
  let location ← gdbMemory
  pure ⟨[name], .mem location⟩

/-- `gdb_packet_M`. -/
def gdbPacketM : Mpc GdbCommand := do
  let name ← char (byte 'M')
  let location ← gdbMemory
  let _ ← char (byte ':')
  let data ← hexdigits
  pure ⟨[name], .memw location data⟩

/-- `gdb_packet_z`. -/
def gdbPacketz : Mpc GdbCommand := do
  let name ← (char (byte 'z')).or (char (byte 'Z'))
  let type ← oneof (str "01234")
  let _ ← char (byte ',')
  let address ← hex
  let _ ← char (byte ',')
  let kind ← hex
  pure ⟨[name], .bval (hexValue [type]) address kind⟩

/-- `gdb_packet_T`. -/
def gdbPacketT : Mpc GdbCommand := do
  let name ← char (byte 'T')
  let thread ← gdbThreadId
  pure ⟨[name], .tval thread⟩

/-- `gdb_cmd`. -/
def gdbCmd (cmd : Mpc GdbCommand) : Mpc GdbCommand := do
  let cmd ← cmd
  let _ ← Grammar.eoi
  pure cmd

/-- The text in front of the first colon. -/
def cut (text : List Byte) : List Byte := text.takeWhile (· != byte ':')

/-- `gdb_any` with `gdbf_ignarg`. -/
def gdbAny : Mpc GdbCommand := do
  let text ← Grammar.many1 any
  pure ⟨cut text, .none⟩

/-- The seven alternatives of `gdb_parse_stage2` that set an argument. -/
def typed : Mpc GdbCommand :=
  (gdbCmd gdbPacketH).or <| (gdbCmd gdbPacketP).or <| (gdbCmd gdbPacketVcont).or <|
    (gdbCmd gdbPacketm).or <| (gdbCmd gdbPacketM).or <| (gdbCmd gdbPacketz).or (gdbCmd gdbPacketT)

/-- `gdb_parse_stage2`. -/
def gdbParseStage2 : Mpc GdbCommand := typed.or gdbAny

end Stage2

/-- `gdb_parse_cmd`. -/
def gdbParseCmd (plain : PlainChar) (pkt : GdbPacket) : Except Abort (Option GdbCommand) :=
  match packetText plain pkt with
  | .error abort => .error abort
  | .ok none => .ok none
  | .ok (some text) =>
      match Stage2.gdbParseStage2.run text.bytes with
      | .error abort => .error abort
      | .ok none => .ok none
      | .ok (some (cmd, _)) => .ok (some cmd)

/-! ## Dispatch -/

/-- The handlers of the server. -/
inductive Handler
  | haltReason
  | getRegisters
  | setThread
  | killServer
  | readMemory
  | writeMemory
  | readRegister
  | qAttached
  | qSupported
  | threadInfo
  | threadInfoEnd
  | isAlive
  | vCont
  | vContSupported
  | removeBreakpoint
  | setBreakpoint
  deriving DecidableEq, Repr

/-- `handlers`. -/
def handlers : List (List Byte × Handler) :=
  [(str "?", .haltReason), (str "g", .getRegisters), (str "H", .setThread),
    (str "k", .killServer), (str "m", .readMemory), (str "M", .writeMemory),
    (str "p", .readRegister), (str "qAttached", .qAttached), (str "qSupported", .qSupported),
    (str "qfThreadInfo", .threadInfo), (str "qsThreadInfo", .threadInfoEnd), (str "T", .isAlive),
    (str "vCont", .vCont), (str "vCont?", .vContSupported), (str "z", .removeBreakpoint),
    (str "Z", .setBreakpoint)]

/-- The type of the argument a handler reads, if it reads one. -/
def Handler.reads : Handler → Option ArgumentType
  | .setThread => some .h
  | .readMemory => some .memory
  | .writeMemory => some .memoryw
  | .readRegister => some .int
  | .isAlive => some .thread
  | .vCont => some .vcont
  | .removeBreakpoint | .setBreakpoint => some .break
  | _ => none

/-- A handler the command is dispatched to reads the member of the union that was set. -/
def Agrees (cmd : GdbCommand) : Prop :=
  ∀ handler member, handlers.lookup cmd.name = some handler → handler.reads = some member →
    cmd.v.type = member

end SymexVP.Gdb
