import SymexVP.Iss

/-!
# Loads and the bytes on the bus

A device answers a read twice: it places bytes in the buffer of the transaction, and it
may attach a concolic value, which the memory interface then prefers. A load is right if
both answers agree, so that the concrete part of what it writes to `rd` is the extension
of the bytes the device placed.

The symbolic memory attaches a value of the width that was asked for, and the sensor
refuses every width but its own. The receive register of the symbolic UART is attached
as a whole word, whatever part of it is read.
-/

namespace SymexVP

open Exec MemoryInterface

variable {P : Platform}

/-! ## Answers of devices -/

/-- The payload of a read. -/
def readRequest {terms : Terms} (address : BitVec 64) (numBytes : Nat) : Payload terms :=
  ⟨.read, address, List.replicate numBytes 0, .ok, none⟩

/-- The two answers of a device are of the requested size, and the same where there are two. -/
def Faithful (numBytes : Nat) (answer : Payload P.clover.terms) : Prop :=
  (answer.extension = none ∧ answer.data.length = numBytes) ∨
    ∃ value : ConcolicValue P.clover.terms (8 * numBytes),
      answer.extension = some ⟨8 * numBytes, value⟩ ∧
      answer.data = (⟨8 * numBytes, value⟩ : Concolic P.clover.terms).toBytes numBytes

/-- The answer of the UART to a read of its receive register while it has a byte to
deliver: the byte as a word, and some of the word's bytes. -/
structure Delivers (byte : ConcolicValue P.clover.terms 8) (offset numBytes : Nat)
    (answer : Payload P.clover.terms) : Prop where
  inside : numBytes + offset ≤ 4
  extension : answer.extension = some ⟨32, P.clover.zext 32 byte⟩
  data : answer.data = readBytes (P.clover.zext 32 byte).concrete offset numBytes

theorem length_fill (buffer bytes : List (BitVec 8)) :
    (fill buffer bytes).length = buffer.length := by
  simp only [fill, List.length_take, List.length_append, List.length_drop]
  omega

theorem length_readBytes (value : BitVec 32) (offset count : Nat) :
    (readBytes value offset count).length = count := by
  simp [readBytes]

section Answers

variable {trans answer : Payload P.clover.terms} (bare : trans.extension = none)
  {delay delay' : Nat} {board : Board P}

include bare

theorem externalTransport_answers {device : Nat}
    (answered : ((externalTransport device trans delay).run board).result = .ok (answer, delay')) :
    Faithful trans.data.length answer := by
  unfold externalTransport at answered
  rw [bind_run, get_run, Outcome.andThen_ok] at answered
  dsimp only at answered
  split at answered
  · cases answered
  · cases answered
    exact .inl ⟨bare, length_fill _ _⟩

variable (reads : trans.command = .read)

include reads

theorem symbolicMemory_answers
    (answered : ((SymbolicMemory.transport trans delay).run board).result = .ok (answer, delay')) :
    Faithful trans.data.length answer := by
  unfold SymbolicMemory.transport at answered
  rw [bind_run, get_run, Outcome.andThen_ok, reads] at answered
  dsimp only at answered
  split at answered
  · cases answered
    exact .inl ⟨bare, rfl⟩
  · cases answered
    exact .inr ⟨_, rfl, rfl⟩

theorem symbolicCtrl_answers (makeSymbolic : BitVec 32 → BitVec 32 → MemM P Unit)
    (answered : ((SymbolicCtrl.transport makeSymbolic trans delay).run board).result =
      .ok (answer, delay')) : Faithful trans.data.length answer := by
  unfold SymbolicCtrl.transport at answered
  rw [reads] at answered
  split at answered
  · cases answered
  · obtain ⟨_, -, answered, -⟩ := bind_eq_ok answered
    cases answered
    exact .inl ⟨bare, length_readBytes _ _ _⟩

theorem symbolicSensor_answers (input : P.clover.terms.Assignment)
    (answered : ((SymbolicSensor.transport input trans delay).run board).result =
      .ok (answer, delay')) : Faithful trans.data.length answer := by
  unfold SymbolicSensor.transport at answered
  rw [bind_run, get_run, Outcome.andThen_ok, reads] at answered
  dsimp only at answered
  split at answered
  · cases answered
    exact .inl ⟨bare, rfl⟩
  · next word =>
      rw [not_not] at word
      split at answered
      · cases answered
        exact .inl ⟨bare, rfl⟩
      · cases answered
        rw [word]
        exact .inr ⟨_, rfl, rfl⟩

end Answers

/-- Only the receive register has a value attached. -/
theorem prepareRead_extension (uart : UartRegisters P.clover.terms)
    {register : SymbolicUart.Register} (other : register ≠ .rxdata) :
    (SymbolicUart.prepareRead uart register).2 = none := by
  cases register <;> first | rfl | exact absurd rfl other

theorem prepareRead_rxdata (uart : UartRegisters P.clover.terms) :
    (SymbolicUart.prepareRead uart .rxdata).2 =
      (SymbolicUart.received uart).map fun byte => ⟨32, P.clover.zext 32 byte⟩ := by
  unfold SymbolicUart.prepareRead
  dsimp only
  cases SymbolicUart.received uart <;> rfl

theorem rxdata_prepareRead {uart : UartRegisters P.clover.terms}
    {byte : ConcolicValue P.clover.terms 8} (delivers : SymbolicUart.received uart = some byte) :
    SymbolicUart.get (SymbolicUart.prepareRead uart .rxdata).1 .rxdata =
      (P.clover.zext 32 byte).concrete := by
  unfold SymbolicUart.prepareRead
  dsimp only
  rw [delivers]
  rfl

/-- The UART answers faithfully, unless it delivers a byte. -/
theorem symbolicUart_answers {trans answer : Payload P.clover.terms}
    (bare : trans.extension = none) (reads : trans.command = .read) {delay delay' : Nat}
    {board : Board P}
    (answered : ((SymbolicUart.transport trans delay).run board).result = .ok (answer, delay')) :
    (Faithful trans.data.length answer ∧
        ¬(SymbolicUart.find trans.address.toNat = some .rxdata ∧
          (SymbolicUart.received board.uart).isSome)) ∨
      ∃ byte, SymbolicUart.find trans.address.toNat = some .rxdata ∧
        SymbolicUart.received board.uart = some byte ∧
        Delivers byte (trans.address.toNat % 4) trans.data.length answer := by
  unfold SymbolicUart.transport at answered
  rw [reads] at answered
  dsimp only at answered
  split at answered
  · cases answered
  · next register found =>
      rw [bind_run, Exec.require, ite_run] at answered
      split at answered
      · next fits =>
          cases answered
          by_cases delivers : register = .rxdata ∧ (SymbolicUart.received board.uart).isSome
          · obtain ⟨rfl, some⟩ := delivers
            obtain ⟨byte, received⟩ := Option.isSome_iff_exists.mp some
            refine .inr ⟨byte, found, received, fits, ?_, ?_⟩
            · simp only [prepareRead_rxdata, received, Option.map_some, Option.some_or]
            · simp only [rxdata_prepareRead received]
          · refine .inl ⟨.inl ⟨?_, length_readBytes _ _ _⟩, ?_⟩
            · rw [Option.or_eq_none_iff]
              refine ⟨?_, bare⟩
              by_cases receives : register = .rxdata
              · subst receives
                have nothing : SymbolicUart.received board.uart = none := by
                  simpa using delivers
                rw [prepareRead_rxdata, nothing]
                rfl
              · exact prepareRead_extension board.uart receives
            · rintro ⟨same, some⟩
              rw [found] at same
              cases same
              exact delivers ⟨rfl, some⟩
      · cases answered

/-- A read at `address` takes a byte out of the UART's queue; `offset` is the place of the
address in the receive register. -/
def Receives (board : Board P) (address : BitVec 64) (offset : Nat)
    (byte : ConcolicValue P.clover.terms 8) : Prop :=
  ∃ port, SimpleBus.decode P address = some port ∧ port.target = .uart ∧
    SymbolicUart.find (address - port.start).toNat = some .rxdata ∧
    (address - port.start).toNat % 4 = offset ∧
    SymbolicUart.received board.uart = some byte

/-- Every device answers faithfully, unless it is the UART and delivers a byte. -/
theorem bus_answers (core : Core) (input : P.clover.terms.Assignment) {address : BitVec 64}
    {numBytes delay delay' : Nat} {board : Board P} {answer : Payload P.clover.terms}
    (answered : ((bus core input (readRequest address numBytes) delay).run board).result =
      .ok (answer, delay')) :
    (Faithful numBytes answer ∧ ∀ offset byte, ¬Receives board address offset byte) ∨
      ∃ offset byte, Receives board address offset byte ∧
        Delivers byte offset numBytes answer := by
  have size : (readRequest address numBytes : Payload P.clover.terms).data.length = numBytes :=
    List.length_replicate
  unfold bus at answered
  cases levels : P.depth with
  | zero =>
      rw [levels] at answered
      cases answered
  | succ depth =>
      rw [levels] at answered
      unfold SimpleBus.nested SimpleBus.transport at answered
      split at answered
      · next missed =>
          cases answered
          refine .inl ⟨.inl ⟨rfl, size⟩, ?_⟩
          rintro offset byte ⟨port, found, -⟩
          cases missed.symm.trans found
      · next port found =>
          have other : port.target ≠ .uart → ∀ offset byte, ¬Receives board address offset byte := by
            rintro different offset byte ⟨port', found', target, -⟩
            cases found.symm.trans found'
            exact different target
          unfold SimpleBus.deliver at answered
          cases target : port.target with
          | memory =>
              rw [target] at answered
              refine .inl ⟨?_, other (by rw [target]; nofun)⟩
              have faithful := symbolicMemory_answers rfl rfl answered
              rwa [size] at faithful
          | ctrl =>
              rw [target] at answered
              refine .inl ⟨?_, other (by rw [target]; nofun)⟩
              have faithful := symbolicCtrl_answers rfl rfl
                (MemoryInterface.makeSymbolic (SimpleBus.nested core input depth) core input) answered
              rwa [size] at faithful
          | sensor =>
              rw [target] at answered
              refine .inl ⟨?_, other (by rw [target]; nofun)⟩
              have faithful := symbolicSensor_answers rfl rfl input answered
              rwa [size] at faithful
          | external device =>
              rw [target] at answered
              refine .inl ⟨?_, other (by rw [target]; nofun)⟩
              have faithful := externalTransport_answers rfl answered
              rwa [size] at faithful
          | uart =>
              rw [target] at answered
              have answers := symbolicUart_answers rfl rfl answered
              rw [size] at answers
              obtain ⟨faithful, nothing⟩ | ⟨byte, found', received, delivers⟩ := answers
              · refine .inl ⟨faithful, ?_⟩
                rintro offset byte ⟨port', found', -, receives, -, some⟩
                cases found.symm.trans found'
                exact nothing ⟨receives, by rw [some]; rfl⟩
              · exact .inr ⟨_, byte, ⟨port, found, target, found', rfl, received⟩, delivers⟩

/-! ## Values -/

/-- The bytes of a load, extended to a register's width. -/
def extended (signed : Bool) (bytes : List (BitVec 8)) : BitVec 32 :=
  let word := BitVec.ofNat (8 * bytes.length) (Clover.littleEndian bytes)
  if signed then word.signExtend 32 else word.setWidth 32

/-- The bytes of a value make up its concrete part. -/
theorem littleEndian_toBytes {numBytes : Nat} (value : ConcolicValue P.clover.terms (8 * numBytes)) :
    BitVec.ofNat (8 * numBytes) (Clover.littleEndian
      ((⟨8 * numBytes, value⟩ : Concolic P.clover.terms).toBytes numBytes)) = value.concrete := by
  refine Clover.eq_of_byteOf_eq fun index inside => ?_
  rw [Clover.byteOf_littleEndian _ index (by simpa using inside) (by simp)]
  simp [Concolic.toBytes]

/-- The value `_do_transaction` takes from an answer. -/
def taken (answer : Payload P.clover.terms) : Concolic P.clover.terms :=
  answer.extension.getD (Concolic.ofBytes answer.data)

/-- What is taken from a faithful answer are the bytes in the buffer. -/
theorem taken_of_faithful {numBytes : Nat} {answer : Payload P.clover.terms}
    (faithful : Faithful numBytes answer) :
    answer.data.length = numBytes ∧ ∃ value : ConcolicValue P.clover.terms (8 * numBytes),
      taken answer = ⟨8 * numBytes, value⟩ ∧
      value.concrete = BitVec.ofNat (8 * numBytes) (Clover.littleEndian answer.data) := by
  obtain ⟨missing, size⟩ | ⟨value, attached, data⟩ := faithful
  · subst size
    refine ⟨rfl, .BVC (BitVec.ofNat _ (Clover.littleEndian answer.data)), ?_, rfl⟩
    rw [taken, missing]
    rfl
  · refine ⟨by rw [data, Concolic.length_toBytes], value, by rw [taken, attached]; rfl, ?_⟩
    rw [data, littleEndian_toBytes]

/-- The concrete part of a loaded value, as the sign- and the zero-extending loads extend it. -/
def extendedValue (signed : Bool) (data : Concolic P.clover.terms) : BitVec 32 :=
  if signed then data.value.concrete.signExtend 32 else data.value.concrete.setWidth 32

theorem extendedValue_of_faithful {numBytes : Nat} {answer : Payload P.clover.terms}
    (faithful : Faithful numBytes answer) (signed : Bool) :
    extendedValue signed (taken answer) = extended signed answer.data := by
  obtain ⟨rfl, value, took, bits⟩ := taken_of_faithful faithful
  rw [extendedValue, took, extended, bits]

/-- The byte is not what the load makes of the part of the word it asked for. -/
def Mismatch (numBytes : Nat) (signed : Bool) (offset : Nat) (byte : BitVec 8) : Prop :=
  (offset ≠ 0 ∧ byte ≠ 0) ∨ (offset = 0 ∧ numBytes = 1 ∧ signed = true ∧ byte.msb = true)

instance (numBytes : Nat) (signed : Bool) (offset : Nat) (byte : BitVec 8) :
    Decidable (Mismatch numBytes signed offset byte) := inferInstanceAs (Decidable (_ ∨ _))

/-- The number of bytes and the extension of the load instructions. -/
def loadShape : Opcode.Mapping → Option (Nat × Bool)
  | .lb => some (1, true)
  | .lh => some (2, true)
  | .lw => some (4, true)
  | .lbu => some (1, false)
  | .lhu => some (2, false)
  | _ => none

/-- The upper bytes of a word that holds a byte are zero. -/
theorem readBytes_of_pos {offset : Nat} (positive : 0 < offset) (byte : BitVec 8) (count : Nat) :
    readBytes (byte.setWidth 32) offset count = List.replicate count 0 := by
  refine List.eq_replicate_iff.mpr ⟨by simp [readBytes], ?_⟩
  intro upper among
  obtain ⟨index, -, rfl⟩ := List.mem_map.mp among
  apply BitVec.eq_of_getLsbD_eq
  intro bit inside
  rw [Clover.byteOf, BitVec.getLsbD_extractLsb', BitVec.getLsbD_setWidth,
    BitVec.getLsbD_of_ge byte _ (by omega)]
  simp

/-- A word that holds a byte, read in part. -/
theorem extended_readBytes_iff {numBytes : Nat} {signed : Bool}
    (shape : (numBytes, signed) ∈ [(1, true), (2, true), (4, true), (1, false), (2, false)])
    {offset : Nat} (inside : numBytes + offset ≤ 4) (byte : BitVec 8) :
    byte.setWidth 32 = extended signed (readBytes (byte.setWidth 32) offset numBytes) ↔
      ¬Mismatch numBytes signed offset byte := by
  rcases Nat.eq_zero_or_pos offset with rfl | positive
  · have whole : ∀ shape ∈ [(1, true), (2, true), (4, true), (1, false), (2, false)],
        ∀ byte : BitVec 8,
        byte.setWidth 32 = extended shape.2 (readBytes (byte.setWidth 32) 0 shape.1) ↔
          ¬Mismatch shape.1 shape.2 0 byte := by decide +kernel
    exact whole _ shape byte
  · have zeros : ∀ shape ∈ [(1, true), (2, true), (4, true), (1, false), (2, false)],
        extended shape.2 (List.replicate shape.1 0) = 0 := by decide
    have zero : byte.setWidth 32 = (0 : BitVec 32) ↔ byte = 0 := by
      have fits : byte.toNat < 2 ^ 32 := byte.isLt.trans (by decide)
      rw [← BitVec.toNat_inj, ← BitVec.toNat_inj, BitVec.toNat_setWidth, Nat.mod_eq_of_lt fits]
      rfl
    rw [readBytes_of_pos positive, zeros _ shape, zero, Mismatch]
    simp [positive.ne']

/-! ## Accesses -/

/-- The part of `symbolic_load_data` in front of the transaction: wait for the bus and
translate the address. -/
def locateData (isock : Socket P) (core : Core) (addr : ConcolicValue P.clover.terms 32) :
    MemM P (BitVec 64) := do
  Board.waitForAccessRights core.hartId
  let caddr ← Board.getValue .address addr
  v2p isock core (caddr.setWidth 64) .store

theorem symbolicLoadData_eq (isock : Socket P) (core : Core)
    (addr : ConcolicValue P.clover.terms 32) (numBytes : Nat) :
    symbolicLoadData isock core addr numBytes = (do
      let paddr ← locateData isock core addr
      let answer ← doTransaction isock (readRequest paddr numBytes)
      pure (taken answer)) := by
  have read : ∀ paddr, readTransaction isock paddr numBytes = (do
      let answer ← doTransaction isock (readRequest paddr numBytes)
      pure (taken answer)) := by
    intro paddr
    refine congrArg (doTransaction isock (readRequest paddr numBytes) >>= ·) (funext fun answer => ?_)
    rw [taken]
    cases answer.extension <;> rfl
  simp only [symbolicLoadData, locateData, bind_assoc, read]

/-- Where a transaction takes place and what it returns. -/
theorem doTransaction_answers (core : Core) (input : P.clover.terms.Assignment)
    {address : BitVec 64} {numBytes : Nat} {board : Board P} {answer : Payload P.clover.terms}
    (answered : ((doTransaction (bus core input) (readRequest address numBytes)).run board).result =
      .ok answer) :
    ∃ delay delay', ((bus core input (readRequest address numBytes) delay).run board).result =
      .ok (answer, delay') := by
  obtain ⟨before, -, answered, -⟩ := bind_eq_ok answered
  obtain ⟨⟨trans, delay⟩, transported, answered, -⟩ := bind_eq_ok answered
  obtain ⟨after, -, answered, -⟩ := bind_eq_ok answered
  obtain ⟨_, -, answered, -⟩ := bind_eq_ok answered
  obtain ⟨_, -, answered, -⟩ := bind_eq_ok answered
  split at answered
  · cases answered
    exact ⟨before.localTime, delay, transported⟩
  · cases answered
  · cases answered

namespace Iss

variable (input : P.clover.terms.Assignment)

/-- Where the load in `state` reads, and the board it finds there. -/
def located (state : State P) : Outcome Fault (Board P) (Event P.clover.terms) (BitVec 64) :=
  (locateData (bus state.hart.core input) state.hart.core
    (P.clover.binary .add state.hart.rs1Value state.hart.iImm)).run state.board

/-- The bytes the device places in the buffer of the load in `state`. -/
def placed (state : State P) (numBytes : Nat) : Option (List (BitVec 8)) :=
  match (located input state).result with
  | .error _ => none
  | .ok paddr =>
      match ((doTransaction (bus state.hart.core input) (readRequest paddr numBytes)).run
          (located input state).state).result with
      | .error _ => none
      | .ok answer => some answer.data

/-- The concrete part of what the load writes to `rd` is the extension of the placed bytes. -/
def LoadAgrees (op : Opcode.Mapping) (state : State P) : Prop :=
  ∀ numBytes signed, loadShape op = some (numBytes, signed) →
    ∃ bytes, placed input state numBytes = some bytes ∧
      (((execute input op).run state).state.hart.regs state.hart.rd).value.concrete =
        extended signed bytes

/-- The load takes a byte out of the UART's queue and does not ask for the part of the
receive register that holds it, or sign-extends a byte from 0x80 on. -/
def Misreads (op : Opcode.Mapping) (state : State P) : Prop :=
  ∃ numBytes signed paddr offset byte, loadShape op = some (numBytes, signed) ∧
    (located input state).result = .ok paddr ∧
    Receives (located input state).state paddr offset byte ∧
    Mismatch numBytes signed offset byte.concrete

theorem memory_result {α : Type} (body : Core → MemM P α) (state : State P) :
    ((memory body).run state).result = ((body state.hart.core).run state.board).result := rfl

theorem regs_write_word (hart : Hart P.clover.terms) (index : BitVec 5)
    (value : ConcolicValue P.clover.terms 32) :
    ((hart.write index ⟨32, value⟩).regs index).value = value := by
  simp [Hart.write, Hart.assignNew, Hart.assign]

/-- What the zero-extending loads make of narrow data. -/
def widen (data : Concolic P.clover.terms) : Concolic P.clover.terms :=
  if data.width < 32 then ⟨32, P.clover.zext 32 data.value⟩ else data

theorem write_widen (lawful : P.clover.Lawful) (hart : Hart P.clover.terms) (index : BitVec 5)
    {data : Concolic P.clover.terms} (fits : data.width ≤ 32) :
    ((hart.write index (widen data)).regs index).value.concrete = extendedValue false data := by
  rw [widen]
  by_cases narrow : data.width < 32
  · rw [if_pos narrow, regs_write_word, (lawful.zext data.width 32).concrete]
    rfl
  · rw [if_neg narrow]
    obtain ⟨width, value⟩ := data
    have whole : width = 32 := by
      simp only at fits narrow
      omega
    subst whole
    rw [regs_write_word]
    exact (BitVec.setWidth_eq _).symm

/-- Checking an alignment changes nothing. -/
theorem trapCheckAddrAlignment_state (alignment : Nat) (isLoad : Bool)
    (addr : ConcolicValue P.clover.terms 32) (state : State P) :
    ((trapCheckAddrAlignment alignment isLoad addr).run state).state = state := by
  simp only [trapCheckAddrAlignment, getValue, raiseTrap, Exec.when, bind_run, emit_run, pure_run,
    Outcome.andThen_ok, ite_run, throw_run]
  split <;> rfl

/-- Data that was loaded was taken from an answer. -/
theorem symbolicLoadData_completed {numBytes : Nat} {state : State P} {data : Concolic P.clover.terms}
    (loaded : ((symbolicLoadData (bus state.hart.core input) state.hart.core
      (P.clover.binary .add state.hart.rs1Value state.hart.iImm) numBytes).run
        state.board).result = .ok data) :
    ∃ paddr answer, (located input state).result = .ok paddr ∧
      ((doTransaction (bus state.hart.core input) (readRequest paddr numBytes)).run
        (located input state).state).result = .ok answer ∧ data = taken answer := by
  rw [symbolicLoadData_eq] at loaded
  obtain ⟨paddr, found, loaded, -⟩ := bind_eq_ok loaded
  obtain ⟨answer, answered, loaded, -⟩ := bind_eq_ok loaded
  cases loaded
  exact ⟨paddr, answer, found, answered, rfl⟩

section Instructions

variable {check : ConcolicValue P.clover.terms 32 → IssM P Unit} {state : State P}
  (still : ∀ addr, ((check addr).run state).state = state) {numBytes : Nat}

include still

/-- `LB`, `LH` and `LW` write the sign-extended data. -/
theorem load_completed (lawful : P.clover.Lawful)
    (completed : ((load input check numBytes).run state).result = .ok ()) :
    ∃ data, ((symbolicLoadData (bus state.hart.core input) state.hart.core
        (P.clover.binary .add state.hart.rs1Value state.hart.iImm) numBytes).run
          state.board).result = .ok data ∧
      (data.width ≤ 32 →
        (((load input check numBytes).run state).state.hart.regs state.hart.rd).value.concrete =
          extendedValue true data) := by
  obtain ⟨hart, got, completed, ended⟩ := bind_eq_ok completed
  cases got
  obtain ⟨_, -, completed, ended'⟩ := bind_eq_ok completed
  have same : ((getHart : IssM P _).run state).state = state := rfl
  rw [same, still] at completed ended'
  obtain ⟨value, loaded, -, ended''⟩ := bind_eq_ok completed
  have reached := ended.trans (ended'.trans ended'')
  rw [load, reached]
  rw [memory_result] at loaded
  obtain ⟨data, fetched, widened, -⟩ := bind_eq_ok loaded
  cases widened
  refine ⟨data, fetched, fun _ => ?_⟩
  exact (congrArg _ (regs_write_word _ _ _)).trans ((lawful.sext data.width 32).concrete _)

/-- `LBU` and `LHU` write the zero-extended data. -/
theorem loadUnsigned_completed (lawful : P.clover.Lawful)
    (completed : ((loadUnsigned input check numBytes).run state).result = .ok ()) :
    ∃ data, ((symbolicLoadData (bus state.hart.core input) state.hart.core
        (P.clover.binary .add state.hart.rs1Value state.hart.iImm) numBytes).run
          state.board).result = .ok data ∧
      (data.width ≤ 32 →
        (((loadUnsigned input check numBytes).run state).state.hart.regs
          state.hart.rd).value.concrete = extendedValue false data) := by
  obtain ⟨hart, got, completed, ended⟩ := bind_eq_ok completed
  cases got
  obtain ⟨_, -, completed, ended'⟩ := bind_eq_ok completed
  have same : ((getHart : IssM P _).run state).state = state := rfl
  rw [same, still] at completed ended'
  obtain ⟨value, loaded, -, ended''⟩ := bind_eq_ok completed
  have reached := ended.trans (ended'.trans ended'')
  rw [loadUnsigned, reached]
  rw [memory_result] at loaded
  obtain ⟨data, fetched, widened, -⟩ := bind_eq_ok loaded
  have result : value = widen data := by
    rw [ite_run] at widened
    rw [widen]
    split at widened
    · next narrow =>
        cases widened
        rw [if_pos narrow]
    · next wide =>
        cases widened
        rw [if_neg wide]
  rw [result]
  exact ⟨data, fetched, fun fits => write_widen lawful _ _ fits⟩

end Instructions

/-- A load instruction that completes writes the extended data. -/
theorem execute_load_completed (lawful : P.clover.Lawful) {op : Opcode.Mapping} {numBytes : Nat}
    {signed : Bool} (shape : loadShape op = some (numBytes, signed)) {state : State P}
    (completed : ((execute input op).run state).result = .ok ()) :
    ∃ data, ((symbolicLoadData (bus state.hart.core input) state.hart.core
        (P.clover.binary .add state.hart.rs1Value state.hart.iImm) numBytes).run
          state.board).result = .ok data ∧
      (data.width ≤ 32 →
        (((execute input op).run state).state.hart.regs state.hart.rd).value.concrete =
          extendedValue signed data) := by
  have free : ∀ addr, ((unchecked addr).run state).state = state := fun _ => rfl
  have aligned : ∀ alignment isLoad addr,
      ((trapCheckAddrAlignment alignment isLoad addr).run state).state = state :=
    fun _ _ _ => trapCheckAddrAlignment_state _ _ _ state
  cases op <;> cases shape
  case lb => exact load_completed input free lawful completed
  case lh => exact load_completed input (aligned 2 true) lawful completed
  case lw => exact load_completed input (aligned 4 true) lawful completed
  case lbu => exact loadUnsigned_completed input free lawful completed
  case lhu => exact loadUnsigned_completed input (aligned 2 true) lawful completed

/-- A load that completes agrees with the bytes on the bus exactly if it does not misread
the receive register of the UART. -/
theorem loadAgrees_iff (lawful : P.clover.Lawful) {op : Opcode.Mapping} {numBytes : Nat}
    {signed : Bool} (shape : loadShape op = some (numBytes, signed)) {state : State P}
    (completed : ((execute input op).run state).result = .ok ()) :
    LoadAgrees input op state ↔ ¬Misreads input op state := by
  obtain ⟨data, loaded, value⟩ := execute_load_completed input lawful shape completed
  obtain ⟨paddr, answer, found, answered, rfl⟩ := symbolicLoadData_completed input loaded
  have shapes : (numBytes, signed) ∈
      [(1, true), (2, true), (4, true), (1, false), (2, false)] := by
    cases op <;> cases shape <;> decide
  have bytes : placed input state numBytes = some answer.data := by
    rw [placed, found]
    dsimp only
    rw [answered]
  have agrees : LoadAgrees input op state ↔
      (((execute input op).run state).state.hart.regs state.hart.rd).value.concrete =
        extended signed answer.data := by
    constructor
    · intro agrees
      obtain ⟨other, same, equal⟩ := agrees numBytes signed shape
      cases bytes.symm.trans same
      exact equal
    · intro equal numBytes' signed' shape'
      cases shape.symm.trans shape'
      exact ⟨answer.data, bytes, equal⟩
  rw [agrees]
  obtain ⟨delay, delay', transported⟩ := doTransaction_answers _ input answered
  obtain ⟨faithful, nothing⟩ | ⟨offset, byte, receives, delivers⟩ :=
    bus_answers _ input transported
  · have narrow : (taken answer).width ≤ 32 := by
      obtain ⟨-, word, took, -⟩ := taken_of_faithful faithful
      rw [took]
      simp only [List.mem_cons, Prod.mk.injEq, List.not_mem_nil, or_false] at shapes
      show 8 * numBytes ≤ 32
      omega
    rw [value narrow, extendedValue_of_faithful faithful]
    refine iff_of_true rfl ?_
    rintro ⟨_, _, paddr', offset, byte, -, found', receives, -⟩
    cases found.symm.trans found'
    exact nothing offset byte receives
  · have took : taken answer = ⟨32, P.clover.zext 32 byte⟩ := by
      rw [taken, delivers.extension]
      rfl
    have word : (P.clover.zext 32 byte).concrete = byte.concrete.setWidth 32 :=
      (lawful.zext 8 32).concrete byte
    have whole : extendedValue signed (taken answer) = byte.concrete.setWidth 32 := by
      rw [took, extendedValue]
      simp only [word, BitVec.signExtend_eq, BitVec.setWidth_eq, ite_self]
    rw [value (by rw [took]), whole, delivers.data, word,
      extended_readBytes_iff shapes delivers.inside, not_iff_not]
    constructor
    · intro mismatch
      exact ⟨numBytes, signed, paddr, offset, byte, shape, found, receives, mismatch⟩
    · rintro ⟨numBytes', signed', paddr', offset', byte', shape', found', receives', mismatch⟩
      cases shape.symm.trans shape'
      cases found.symm.trans found'
      obtain ⟨port, decoded, -, -, rfl, received⟩ := receives
      obtain ⟨port', decoded', -, -, rfl, received'⟩ := receives'
      cases decoded.symm.trans decoded'
      cases received.symm.trans received'
      exact mismatch

/-- The HiFive board on the reference library, in a world where nothing happens. -/
def tryoutHifive : Platform := hifivePlatform Clover.reference idleWorld 2

/-- An instruction about to be executed while `x1` points to the UART, which has its receive
interrupt enabled and one byte to deliver. -/
def receivingState (instr : Instruction) (byte : BitVec 8) : State tryoutHifive :=
  let hart : Hart tryoutHifive.clover.terms := initialHart ⟨false⟩ 0 0x80000000 0
  let board : Board tryoutHifive := initialBoard (fun _ => .BVC 0) [.BVC byte] ()
  ⟨{ hart.assign 1 ⟨40, .BVC 0x10023000⟩ with instr := instr },
    { board with uart := { board.uart with ie := 2 } }⟩

/-- Every symbolic variable of the HiFive board is zero. -/
def hifiveInput : tryoutHifive.clover.terms.Assignment := fun _ => 0

/-- `lbu x5, 4(x1)` reads the byte 0x80. -/
theorem loadAgrees_lbu :
    ((execute hifiveInput .lbu).run (receivingState 0x0040c283 0x80)).result = .ok () ∧
      LoadAgrees hifiveInput .lbu (receivingState 0x0040c283 0x80) := by
  have completed :
      ((execute hifiveInput .lbu).run (receivingState 0x0040c283 0x80)).result = .ok () := by
    decide +kernel
  refine ⟨completed, (loadAgrees_iff hifiveInput Clover.reference_lawful rfl completed).mpr ?_⟩
  rintro ⟨numBytes, signed, paddr, offset, byte, shape, found, receives, mismatch⟩
  have reads : (located hifiveInput (receivingState 0x0040c283 0x80)).result =
      .ok 0x10023004 := by decide +kernel
  cases shape
  cases reads.symm.trans found
  obtain ⟨port, decoded, -, -, rfl, -⟩ := receives
  have uart : SimpleBus.decode tryoutHifive 0x10023004 =
      some ⟨0x10023000, 0x10023fff, .uart⟩ := rfl
  cases uart.symm.trans decoded
  obtain ⟨behind, -⟩ | ⟨-, -, impossible, -⟩ := mismatch
  · exact behind rfl
  · cases impossible

/-- `lb x5, 4(x1)` writes 0x80 to `x5`, which is not the sign-extended byte. -/
theorem not_loadAgrees_lb :
    ((execute hifiveInput .lb).run (receivingState 0x00408283 0x80)).result = .ok () ∧
      ¬LoadAgrees hifiveInput .lb (receivingState 0x00408283 0x80) := by
  refine ⟨by decide +kernel, fun agrees => ?_⟩
  obtain ⟨bytes, same, equal⟩ := agrees 1 true rfl
  have data : placed hifiveInput (receivingState 0x00408283 0x80) 1 = some [0x80] := by
    decide +kernel
  cases data.symm.trans same
  revert equal
  decide +kernel

end Iss

end SymexVP
