import SymexVP.GdbReplies
import SymexVP.Iss

/-!
# Memory as the debugger sees it

A memory target answers a debug transaction inside of its range by all of its bytes. The
debugger writes a string of hexadecimal digits, two for each byte, and reads one back. The
loop that decodes the digits stops when the index of the digit reaches the number of bytes,
so that only the digits of the first half are looked at and the bytes behind are written as
zeros.

The symbolic memory behind the bus is such a target: a debug transaction carries no
extension, so that what is written are constants, and what is read are the concrete parts.
-/

namespace SymexVP

variable {P : Platform}

/-! ## Debug transactions on the bus -/

/-- `SymbolicMemory::transport_dbg`, with the number it returns. -/
def SymbolicMemory.transportDbg (board : Board P) (trans : Payload P.clover.terms) :
    Payload P.clover.terms × Nat × Board P :=
  if P.memSize < trans.address + BitVec.ofNat 64 trans.data.length then
    ({ trans with response := .addressError }, 0, board)
  else
    match trans.command with
    | .read => (readData board trans, trans.data.length, board)
    | .write => (trans, trans.data.length, writeData board trans)

/-- `SimpleBus::transport_dbg`. The devices of the outside world answer by themselves; the others
have no debug transport registered, and transfer nothing. -/
def SimpleBus.transportDbg
    (external : Nat → Board P → Payload P.clover.terms → Payload P.clover.terms × Nat × Board P)
    (board : Board P) (trans : Payload P.clover.terms) : Payload P.clover.terms × Nat × Board P :=
  match decode P trans.address with
  | none => ({ trans with response := .addressError }, 0, board)
  | some port =>
      let trans := { trans with address := trans.address - port.start }
      match port.target with
      | .memory => SymbolicMemory.transportDbg board trans
      | .external device => external device board trans
      | .ctrl | .sensor | .uart => (trans, 0, board)

/-- A transaction of a hart is a debug transaction that takes time. -/
theorem SymbolicMemory.transport_run (trans : Payload P.clover.terms) (delay : Nat)
    (board : Board P) :
    (SymbolicMemory.transport trans delay).run board =
      ⟨.ok ((SymbolicMemory.transportDbg board trans).1, delay + 10),
        (SymbolicMemory.transportDbg board trans).2.2, []⟩ := by
  unfold SymbolicMemory.transport SymbolicMemory.transportDbg
  rw [Exec.bind_run, Exec.get_run, Outcome.andThen_ok]
  split_ifs with outside
  · rfl
  · cases trans.command <;> rfl

end SymexVP

namespace SymexVP.Gdb.Handlers

open Exec

variable {machine : Machine}

/-- A range of addresses behind which a debug transaction finds all bytes. -/
structure MemoryTarget (machine : Machine) where
  start : Nat
  size : Nat
  byteAt : machine.World → Nat → Byte
  read : ∀ world (addr : BitVec 64) (data : List Byte), 0 < data.length → start ≤ addr.toNat →
    addr.toNat + data.length ≤ start + size →
      machine.transportDbg world .read addr data =
        ⟨(List.range data.length).map fun index => byteAt world (addr.toNat + index), data.length,
          false, world⟩
  write : ∀ world (addr : BitVec 64) (data : List Byte), 0 < data.length → start ≤ addr.toNat →
    addr.toNat + data.length ≤ start + size → ∃ after,
      machine.transportDbg world .write addr data = ⟨data, data.length, false, after⟩ ∧
      (∀ index (inside : index < data.length), byteAt after (addr.toNat + index) = data[index]) ∧
      ∀ other, other < addr.toNat ∨ addr.toNat + data.length ≤ other →
        byteAt after other = byteAt world other

/-! ## Digits -/

/-- `tolower`. -/
def toLower (character : Byte) : Byte :=
  if byte 'A' ≤ character ∧ character ≤ byte 'Z' then character + 32 else character

/-- The byte two digits stand for. -/
def pairValue (high low : Byte) : Byte := BitVec.ofNat 8 (Stage2.hexValue [high, low])

/-- Byte `index` of a string of digits. -/
def encodedByte (digits : List Byte) (index : Nat) : Byte :=
  pairValue (digits.getD (2 * index) 0) (digits.getD (2 * index + 1) 0)

def hexDigits : List Byte := str "0123456789abcdefABCDEF"

theorem mem_hexDigits : ∀ {character : Byte}, (Stage2.hexDigit character).isSome = true →
    character ∈ hexDigits := by decide +kernel

theorem hexDigits_eq : hexDigits =
    [0x30, 0x31, 0x32, 0x33, 0x34, 0x35, 0x36, 0x37, 0x38, 0x39,
      0x61, 0x62, 0x63, 0x64, 0x65, 0x66, 0x41, 0x42, 0x43, 0x44, 0x45, 0x46] := by decide +kernel

theorem hexValue_lt : ∀ digit ∈ hexDigits, Stage2.hexValue [digit] < 16 := by
  simp only [hexDigits_eq, List.forall_mem_cons]
  decide +kernel

theorem digitChar_hexValue : ∀ digit ∈ hexDigits,
    byte (Stage2.hexValue [digit]).digitChar = toLower digit := by
  simp only [hexDigits_eq, List.forall_mem_cons]
  decide +kernel

theorem eq_of_hexValue_eq_zero : ∀ digit ∈ hexDigits,
    Stage2.hexValue [digit] = 0 → digit = byte '0' := by
  simp only [hexDigits_eq, List.forall_mem_cons]
  decide +kernel

theorem toNat_pairValue {high low : Byte} (first : high ∈ hexDigits) (second : low ∈ hexDigits) :
    (pairValue high low).toNat = 16 * Stage2.hexValue [high] + Stage2.hexValue [low] := by
  have upper := hexValue_lt high first
  have lower := hexValue_lt low second
  have pair : Stage2.hexValue [high, low] =
      16 * Stage2.hexValue [high] + Stage2.hexValue [low] := by simp [Stage2.hexValue]
  rw [pairValue, BitVec.toNat_ofNat, pair]
  omega

/-- Two digits are printed as they were read, in lower case. -/
theorem printHexWidth_pairValue : ∀ high ∈ hexDigits, ∀ low ∈ hexDigits,
    printHexWidth 2 (pairValue high low).toNat = [toLower high, toLower low] := by
  intro high first low second
  have upper := hexValue_lt high first
  have lower := hexValue_lt low second
  rw [toNat_pairValue first second, ← digitChar_hexValue high first,
    ← digitChar_hexValue low second, printHexWidth]
  rcases Nat.eq_zero_or_pos (Stage2.hexValue [high]) with none | some
  · rw [none, Nat.mul_zero, Nat.zero_add, Nat.toDigits_of_lt_base lower]
    rfl
  · rw [← Nat.toDigits_append_toDigits (by decide) some lower, Nat.toDigits_of_lt_base upper,
      Nat.toDigits_of_lt_base lower]
    rfl

/-- Only two zeros stand for the byte zero. -/
theorem pairValue_eq_zero : ∀ high ∈ hexDigits, ∀ low ∈ hexDigits,
    pairValue high low = 0 → high = byte '0' ∧ low = byte '0' := by
  intro high first low second zero
  have sum := toNat_pairValue first second
  rw [zero, BitVec.ofNat_eq_ofNat, BitVec.toNat_zero] at sum
  exact ⟨eq_of_hexValue_eq_zero high first (by omega), eq_of_hexValue_eq_zero low second (by omega)⟩

/-- A string of digits is its pairs in a row. -/
theorem flatMap_pairs {count : Nat} {digits : List Byte} (whole : digits.length = 2 * count) :
    (List.range count).flatMap (fun index =>
      [digits.getD (2 * index) 0, digits.getD (2 * index + 1) 0]) = digits := by
  induction count generalizing digits with
  | zero => exact (List.length_eq_zero_iff.mp whole).symm
  | succ count inductionHypothesis =>
      match digits, whole with
      | high :: low :: rest, whole =>
          have fits : rest.length = 2 * count := by simpa [Nat.mul_succ] using whole
          rw [List.range_succ_eq_map, List.flatMap_cons, List.flatMap_map]
          refine congrArg (high :: low :: ·) (Eq.trans ?_ (inductionHypothesis fits))
          rfl

/-! ## Writing and reading -/

variable {target : MemoryTarget machine} {server : Server machine} {start : BitVec 64}
  {nbytes : Nat} {digits : List Byte}

/-- The addresses of a request lie in the target. -/
def MemoryTarget.Holds (target : MemoryTarget machine) (start : BitVec 64) (nbytes : Nat) : Prop :=
  target.start ≤ start.toNat ∧ start.toNat + nbytes ≤ target.start + target.size

theorem length_decodeData : (decodeData nbytes digits).length = nbytes := by
  rw [decodeData, List.length_map, List.length_range]

theorem getElem_decodeData {index : Nat} (inside : index < (decodeData nbytes digits).length) :
    (decodeData nbytes digits)[index] =
      if 2 * index + 1 < nbytes then encodedByte digits index else 0 := by
  simp only [decodeData, List.getElem_map, List.getElem_range]
  rfl

/-- The digits of the first half reach the memory, and zeros behind them. -/
theorem returns_writeDebugMemory (some_ : 0 < nbytes) (holds : target.Holds start nbytes)
    (whole : digits.length = 2 * nbytes) : ∃ after : Server machine,
      Returns (writeDebugMemory start nbytes digits) server [] after [] ∧
      (∀ index < nbytes, target.byteAt after.world (start.toNat + index) =
        if 2 * index + 1 < nbytes then encodedByte digits index else 0) ∧
      ∀ other, other < start.toNat ∨ start.toNat + nbytes ≤ other →
        target.byteAt after.world other = target.byteAt server.world other := by
  have length : (decodeData nbytes digits).length = nbytes := length_decodeData
  obtain ⟨world, answered, stored, kept⟩ :=
    target.write server.world start (decodeData nbytes digits) (by omega) holds.1
      (by rw [length]; exact holds.2)
  refine ⟨{ server with world := world }, ?_, ?_, ?_⟩
  · have served : (machine.transportDbg server.world .write start
        (decodeData nbytes digits)).isResponseError = false := by rw [answered]
    unfold Returns writeDebugMemory
    rw [require_of (by omega), require_of (by omega)]
    change (doDbgTransaction .write start (decodeData nbytes digits) >>= _).run server = _
    rw [bind_run, doDbgTransaction_of_ok served, answered, Outcome.andThen_ok]
    dsimp only
    rw [length, require_of rfl]
    rfl
  · intro index inside
    rw [← getElem_decodeData (by rw [length]; exact inside)]
    exact stored index (by rw [length]; exact inside)
  · intro other outside
    exact kept other (by rw [length]; exact outside)

/-- The bytes of a range are printed in a row. -/
theorem returns_readDebugMemory (some_ : 0 < nbytes) (holds : target.Holds start nbytes) :
    Returns (readDebugMemory start nbytes) server
      ((List.range nbytes).flatMap fun index =>
        printHexWidth 2 (target.byteAt server.world (start.toNat + index)).toNat) server [] := by
  have answered := target.read server.world start (List.replicate nbytes 0)
    (by rwa [List.length_replicate]) holds.1 (by rw [List.length_replicate]; exact holds.2)
  rw [List.length_replicate] at answered
  have served : (machine.transportDbg server.world .read start
      (List.replicate nbytes 0)).isResponseError = false := by rw [answered]
  unfold Returns readDebugMemory
  rw [bind_run, doDbgTransaction_of_ok served, answered, Outcome.andThen_ok]
  dsimp only
  rw [require_of rfl, List.flatMap_map]
  rfl

/-- A string of digits is stored, byte for byte, nothing else changes, and it is read back. -/
def RoundTrips (target : MemoryTarget machine) (server : Server machine) (start : BitVec 64)
    (nbytes : Nat) (digits : List Byte) : Prop :=
  ∃ after : Server machine,
    Returns (writeDebugMemory start nbytes digits) server [] after [] ∧
    (∀ index < nbytes,
      target.byteAt after.world (start.toNat + index) = encodedByte digits index) ∧
    (∀ other, other < start.toNat ∨ start.toNat + nbytes ≤ other →
      target.byteAt after.world other = target.byteAt server.world other) ∧
    Returns (readDebugMemory start nbytes) after (digits.map toLower) after []

/-- The digits the loop does not look at are all zero. -/
def SecondHalfZero (nbytes : Nat) (digits : List Byte) : Prop :=
  ∀ index < nbytes, nbytes ≤ 2 * index + 1 →
    digits.getD (2 * index) 0 = byte '0' ∧ digits.getD (2 * index + 1) 0 = byte '0'

instance : Decidable (SecondHalfZero nbytes digits) := by
  unfold SecondHalfZero
  infer_instance

/-- Memory written by the debugger holds what the digits say, and is read back as they are in lower
case, exactly if the digits of the second half are all zero. -/
theorem roundTrips_iff (some_ : 0 < nbytes) (holds : target.Holds start nbytes)
    (whole : digits.length = 2 * nbytes)
    (hex : ∀ digit ∈ digits, (Stage2.hexDigit digit).isSome = true) :
    RoundTrips target server start nbytes digits ↔ SecondHalfZero nbytes digits := by
  have member (index : Nat) (inside : index < 2 * nbytes) : digits.getD index 0 ∈ hexDigits := by
    have bound : index < digits.length := by omega
    rw [List.getD_eq_getElem?_getD, List.getElem?_eq_getElem bound]
    exact mem_hexDigits (hex _ (List.getElem_mem bound))
  obtain ⟨after, written, stored, kept⟩ :=
    @returns_writeDebugMemory machine target server start nbytes digits some_ holds whole
  constructor
  · rintro ⟨other, again, decoded, -, -⟩ index inside skipped
    cases again.symm.trans written
    have zero : encodedByte digits index = 0 := by
      rw [← decoded index inside, stored index inside, if_neg (by omega)]
    exact pairValue_eq_zero _ (member _ (by omega)) _ (member _ (by omega)) zero
  · intro zeros
    have decoded : ∀ index < nbytes,
        target.byteAt after.world (start.toNat + index) = encodedByte digits index := by
      intro index inside
      rw [stored index inside]
      split_ifs with looked
      · rfl
      · obtain ⟨high, low⟩ := zeros index inside (by omega)
        rw [encodedByte, high, low]
        decide
    refine ⟨after, written, decoded, kept, ?_⟩
    have printed : (List.range nbytes).flatMap (fun index =>
        printHexWidth 2 (target.byteAt after.world (start.toNat + index)).toNat) =
          digits.map toLower := by
      rw [← flatMap_pairs whole, List.map_flatMap]
      refine List.flatMap_congr fun index inside => ?_
      rw [decoded index (List.mem_range.mp inside)]
      have bound := List.mem_range.mp inside
      exact printHexWidth_pairValue _ (member _ (by omega)) _ (member _ (by omega))
    rw [← printed]
    exact returns_readDebugMemory some_ holds

/-! ## The symbolic memory -/

section Symbolic

variable {P : Platform}

def TlmCommand.command : TlmCommand → SymexVP.Command
  | .read => .read
  | .write => .write

/-- A machine whose debug interface is bound to the bus of a board. -/
structure Connected (P : Platform) (machine : Machine) where
  external : Nat → Board P → Payload P.clover.terms → Payload P.clover.terms × Nat × Board P
  board : machine.World → Board P
  put : machine.World → Board P → machine.World
  board_put : ∀ world board', board (put world board') = board'
  put_board : ∀ world, put world (board world) = world
  transport : ∀ world cmd addr data, machine.transportDbg world cmd addr data =
    let answer := SimpleBus.transportDbg external (board world)
      ⟨cmd.command, addr, data, .ok, none⟩
    ⟨answer.1.data, answer.2.1, answer.1.response != .ok, put world answer.2.2⟩

/-- The addresses of a port lead to the memory, all of it. -/
structure MemoryPort (P : Platform) (port : Port) : Prop where
  target : port.target = .memory
  fits : port.start.toNat + P.memSize.toNat ≤ 2 ^ 64
  decoded : ∀ addr : BitVec 64, port.start ≤ addr →
    addr.toNat < port.start.toNat + P.memSize.toNat → SimpleBus.decode P addr = some port

/-- The concrete part of the byte behind an address. -/
def memoryByte (board : Board P) (start address : Nat) : Byte :=
  if start ≤ address then (P.clover.byte board.memory (address - start)).concrete else 0

variable {port : Port} {board : Board P} {addr : BitVec 64} {data : List Byte}
  {external : Nat → Board P → Payload P.clover.terms → Payload P.clover.terms × Nat × Board P}

/-- A transaction inside of the memory reaches it. -/
theorem transportDbg_memory (leads : MemoryPort P port) (some_ : 0 < data.length)
    (low : port.start.toNat ≤ addr.toNat)
    (high : addr.toNat + data.length ≤ port.start.toNat + P.memSize.toNat) (cmd : SymexVP.Command) :
    SimpleBus.transportDbg external board ⟨cmd, addr, data, .ok, none⟩ =
      match cmd with
      | .read => (SymbolicMemory.readData board ⟨.read, addr - port.start, data, .ok, none⟩,
          data.length, board)
      | .write => (⟨.write, addr - port.start, data, .ok, none⟩, data.length,
          SymbolicMemory.writeData board ⟨.write, addr - port.start, data, .ok, none⟩) := by
  have decoded := leads.decoded addr (BitVec.le_def.mpr low) (by omega)
  have moved : (addr - port.start).toNat = addr.toNat - port.start.toNat :=
    BitVec.toNat_sub_of_le (BitVec.le_def.mpr low)
  have fits := leads.fits
  have inside : ¬P.memSize < addr - port.start + BitVec.ofNat 64 data.length := by
    have length : data.length < 2 ^ 64 := by omega
    rw [BitVec.lt_def, BitVec.toNat_add, moved, BitVec.toNat_ofNat, Nat.mod_eq_of_lt length,
      Nat.mod_eq_of_lt (by omega)]
    omega
  unfold SimpleBus.transportDbg
  dsimp only
  rw [decoded]
  dsimp only
  rw [leads.target]
  dsimp only
  rw [SymbolicMemory.transportDbg, if_neg inside]
  cases cmd <;> rfl

theorem getElem_readData (lawful : P.clover.Lawful) {trans : Payload P.clover.terms} :
    (SymbolicMemory.readData board trans).data = (List.range trans.data.length).map fun index =>
      (P.clover.byte board.memory (trans.address.toNat + index)).concrete := by
  refine List.map_congr_left fun index inside => ?_
  exact lawful.load_concrete _ _ _ _ (List.mem_range.mp inside)

/-- The symbolic memory is a memory target. -/
def symbolicTarget (lawful : P.clover.Lawful) (connected : Connected P machine)
    (leads : MemoryPort P port) : MemoryTarget machine where
  start := port.start.toNat
  size := P.memSize.toNat
  byteAt world := memoryByte (connected.board world) port.start.toNat
  read := by
    intro world addr data some_ low high
    have moved : (addr - port.start).toNat = addr.toNat - port.start.toNat :=
      BitVec.toNat_sub_of_le (BitVec.le_def.mpr low)
    rw [connected.transport, transportDbg_memory leads some_ low high]
    dsimp only [TlmCommand.command]
    rw [getElem_readData lawful, connected.put_board, moved]
    have same : ∀ index, memoryByte (connected.board world) port.start.toNat (addr.toNat + index) =
        (P.clover.byte (connected.board world).memory
          (addr.toNat - port.start.toNat + index)).concrete := by
      intro index
      rw [memoryByte, if_pos (by omega), Nat.sub_add_comm low]
    simp only [same]
    rfl
  write := by
    intro world addr data some_ low high
    have moved : (addr - port.start).toNat = addr.toNat - port.start.toNat :=
      BitVec.toNat_sub_of_le (BitVec.le_def.mpr low)
    refine ⟨connected.put world (SymbolicMemory.writeData (connected.board world)
      ⟨.write, addr - port.start, data, .ok, none⟩), ?_, ?_, ?_⟩
    · rw [connected.transport, transportDbg_memory leads some_ low high]
      rfl
    · intro index inside
      rw [connected.board_put, memoryByte, if_pos (by omega), Nat.sub_add_comm low]
      dsimp only [SymbolicMemory.writeData, Option.getD_none]
      rw [moved]
      refine (lawful.store_inside _ _ _ (Concolic.ofBytes data).value _ _ le_rfl inside).trans ?_
      exact Clover.byteOf_littleEndian data index inside le_rfl
    · intro other outside
      rw [connected.board_put, memoryByte, memoryByte]
      split_ifs with above
      · dsimp only [SymbolicMemory.writeData]
        rw [moved, lawful.store_outside _ _ _ _ _ _ (by omega)]
      · rfl

end Symbolic

/-! ## A board to try the debugger on -/

/-- A machine with one hart on the board programs are tried on. -/
def debugged : Machine where
  count := 1
  positive := Nat.one_pos
  arch := .RV32
  supported := Architecture.rv32_supported
  hartId := fun _ => ⟨0, HartId.zero_small⟩
  World := Board Iss.tryoutPlatform
  getRegisters := fun _ _ => Vector.replicate 32 0
  getProgamCounter := fun _ _ => 0
  mmu := fun _ => none
  transportDbg := fun board cmd addr data =>
    let answer := SimpleBus.transportDbg (fun _ board trans => (trans, 0, board)) board
      ⟨cmd.command, addr, data, .ok, none⟩
    ⟨answer.1.data, answer.2.1, answer.1.response != .ok, answer.2.2⟩
  resume := fun _ _ _ _ => none
  stops := nofun
  halt := fun board _ _ => (board, fun _ => .hitBreakpoint)

def debuggedBoard : Connected Iss.tryoutPlatform debugged where
  external _ board trans := (trans, 0, board)
  board board := board
  put _ board := board
  board_put _ _ := rfl
  put_board _ := rfl
  transport _ _ _ _ := rfl

/-- The memory from address zero on. -/
theorem memoryPort_zero : MemoryPort Iss.tryoutPlatform ⟨0x00000000, 0x01ffffff, .memory⟩ where
  target := rfl
  fits := by decide
  decoded := by
    intro addr _ below
    have inside : addr ≤ 0x01ffffff := by
      rw [BitVec.le_def]
      have bound : addr.toNat < 0 + 0x02000000 := below
      change addr.toNat ≤ 0x01ffffff
      omega
    have low : 0 ≤ addr := BitVec.le_def.mpr (Nat.zero_le _)
    exact List.find?_cons_of_pos (by simpa [SimpleBus.contains] using ⟨low, inside⟩)

def debuggedMemory : MemoryTarget debugged :=
  symbolicTarget Clover.reference_lawful debuggedBoard memoryPort_zero

def debugServer : Server debugged :=
  ⟨fun _ => none, false, fun _ => ⟨.runnable, [], true⟩,
    Iss.initialBoard (Iss.programMemory []) [] ()⟩

theorem holds_inside {nbytes : Nat} (small : nbytes ≤ 4) : debuggedMemory.Holds 0x100 nbytes := by
  refine ⟨Nat.zero_le _, ?_⟩
  change 0x100 + nbytes ≤ 0 + 0x02000000
  omega

/-- A word whose upper half is zero comes back. -/
theorem roundTrips_4A00 : RoundTrips debuggedMemory debugServer 0x100 2 (str "4A00") :=
  (roundTrips_iff (by decide) (holds_inside (by decide)) (by decide) (by decide +kernel)).mpr
    (by decide +kernel)

/-- Of a single byte no digit is looked at: `M100,1:41` stores a zero. -/
theorem not_roundTrips_41 :
    0 < 1 ∧ debuggedMemory.Holds 0x100 1 ∧ (str "41").length = 2 * 1 ∧
      (∀ digit ∈ str "41", (Stage2.hexDigit digit).isSome = true) ∧
      ¬RoundTrips debuggedMemory debugServer 0x100 1 (str "41") := by
  have holds : debuggedMemory.Holds 0x100 1 := holds_inside (by decide)
  refine ⟨by decide, holds, by decide, by decide +kernel, ?_⟩
  rintro ⟨after, written, decoded, -, -⟩
  obtain ⟨other, again, stored, -⟩ :=
    @returns_writeDebugMemory debugged debuggedMemory debugServer 0x100 1 (str "41") (by decide)
      holds (by decide)
  cases written.symm.trans again
  have same := (decoded 0 (by decide)).symm.trans (stored 0 (by decide))
  exact absurd same (by decide +kernel)

end SymexVP.Gdb.Handlers
