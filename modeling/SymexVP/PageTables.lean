import SymexVP.LoadAgreement
import SymexVP.Sv32

/-!
# Page tables in the symbolic memory

The entries a walk reads and the leaf it marks, when they lie in the symbolic memory. An
entry is four bytes behind one bus port; what is not in the memory, because the address
is not mapped, belongs to another device or leaves the memory, is no entry. A read
costs ten nanoseconds and changes nothing else. A write replaces the four bytes, and
gives up the bus lock.
-/

namespace SymexVP

open Exec Board MemoryInterface

variable {P : Platform}

/-! ## Places in the memory -/

/-- Where in the symbolic memory an access of some bytes ends up, if it does. -/
def memoryOffset (P : Platform) (address : BitVec 64) (numBytes : Nat) : Option Nat :=
  (SimpleBus.decode P address).bind fun port =>
    let offset := address - port.start
    if 0 < P.depth ∧ port.target = .memory ∧ offset + BitVec.ofNat 64 numBytes ≤ P.memSize then
      some offset.toNat
    else none

/-- The word in the memory at some offset. -/
def Board.word (board : Board P) (offset : Nat) : BitVec 32 :=
  (P.clover.load board.memory offset 4).concrete

/-- The page table entries the memory holds. -/
def Board.entries (board : Board P) (address : BitVec 34) : Option (BitVec 32) :=
  (memoryOffset P (address.setWidth 64) 4).map board.word

/-- The memory after a word was written without symbolic part. -/
def Board.withWord (board : Board P) (offset : Nat) (word : BitVec 32) : P.clover.Memory :=
  P.clover.store board.memory offset (.BVC word : ConcolicValue P.clover.terms 32) 4

section Words

variable {board : Board P} {offset : Nat} {word : BitVec 32}

/-- The word just written. -/
theorem word_withWord (lawful : P.clover.Lawful) :
    ({ board with memory := board.withWord offset word } : Board P).word offset = word := by
  have same : (P.clover.load (board.withWord offset word) offset 4).concrete = word := by
    refine Clover.eq_of_byteOf_eq fun index inside => ?_
    rw [lawful.load_concrete _ _ _ _ inside]
    exact lawful.store_inside _ _ _ _ _ _ (Nat.le_refl _) inside
  exact same

/-- Every other byte keeps its value, with its symbolic part. -/
theorem byte_withWord (lawful : P.clover.Lawful) {other : Nat}
    (outside : other < offset ∨ offset + 4 ≤ other) :
    P.clover.byte (board.withWord offset word) other = P.clover.byte board.memory other :=
  lawful.store_outside _ _ _ _ _ _ outside

/-- A word apart from the one written is the same. -/
theorem word_withWord_of_apart (lawful : P.clover.Lawful) {other : Nat}
    (apart : other + 4 ≤ offset ∨ offset + 4 ≤ other) :
    ({ board with memory := board.withWord offset word } : Board P).word other =
      board.word other := by
  have same : (P.clover.load (board.withWord offset word) other 4).concrete =
      (P.clover.load board.memory other 4).concrete := by
    refine Clover.eq_of_byteOf_eq fun index inside => ?_
    rw [lawful.load_concrete _ _ _ _ inside, lawful.load_concrete _ _ _ _ inside,
      byte_withWord lawful (by omega)]
  exact same

end Words

/-- What is in the memory belongs to a port that leads there. -/
theorem of_memoryOffset {address : BitVec 64} {numBytes offset : Nat}
    (placed : memoryOffset P address numBytes = some offset) :
    ∃ depth port, P.depth = depth + 1 ∧ SimpleBus.decode P address = some port ∧
      port.target = .memory ∧ offset = (address - port.start).toNat ∧
      ¬P.memSize < address - port.start + BitVec.ofNat 64 numBytes := by
  obtain ⟨port, found, inside⟩ := Option.bind_eq_some_iff.mp placed
  dsimp only at inside
  split at inside
  · next known =>
      obtain ⟨deep, target, short⟩ := known
      obtain ⟨depth, levels⟩ := Nat.exists_eq_succ_of_ne_zero deep.ne'
      cases inside
      exact ⟨depth, port, levels, found, target, rfl, BitVec.not_lt.mpr short⟩
  · cases inside

/-! ## Access to the bus -/

/-- The bus lock is free, or the hart's own. -/
def Board.Available (hart : BitVec 32) (board : Board P) : Prop :=
  board.lock = none ∨ board.lock = some hart

instance (hart : BitVec 32) (board : Board P) : Decidable (board.Available hart) :=
  inferInstanceAs (Decidable (_ ∨ _))

variable {hart : BitVec 32} {board : Board P}

theorem waitForAccessRights_run (available : board.Available hart) :
    (waitForAccessRights hart).run board = ⟨.ok (), board, []⟩ := by
  have free : ¬(board.lock.isSome ∧ ¬board.isLockedBy hart = true) := by
    rintro ⟨taken, other⟩
    obtain none | own := available
    · rw [none] at taken
      cases taken
    · exact other (by rw [isLockedBy, own, beq_self_eq_true])
  rw [waitForAccessRights, bind_run, get_run, Outcome.andThen_ok, Exec.when, if_neg free]
  rfl

theorem unlock_run (available : board.Available hart) :
    (unlock hart).run board = ⟨.ok (), { board with lock := none }, []⟩ := by
  obtain ⟨memory, ctrl, sensor, uart, lock, lrAddr, tlb, mip, shallExit, localTime, world⟩ := board
  rw [unlock, modify_run]
  obtain free | own := available
  · obtain rfl : lock = none := free
    rfl
  · obtain rfl : lock = some hart := own
    simp only [isLockedBy, beq_self_eq_true, if_true]

/-- Once the hart gets the bus, the lock is available and only the outside world has moved. -/
structure Board.Admits (hart : BitVec 32) (board admitted : Board P) : Prop where
  waited : (waitForAccessRights hart).run board = ⟨.ok (), admitted, []⟩
  available : admitted.Available hart
  memory : admitted.memory = board.memory
  tlb : admitted.tlb = board.tlb
  localTime : admitted.localTime = board.localTime

theorem waitForAccessRights_run_of_not_available (taken : ¬board.Available hart) :
    (waitForAccessRights hart).run board = waitUntilUnlocked.run board := by
  have waits : board.lock.isSome ∧ ¬board.isLockedBy hart = true := by
    refine ⟨?_, fun own => taken (.inr (by simpa [isLockedBy] using own))⟩
    rw [Option.isSome_iff_ne_none]
    exact fun free => taken (.inl free)
  rw [waitForAccessRights, bind_run, get_run, Outcome.andThen_ok, Exec.when, if_pos waits]
  rfl

/-- A hart that need not wait goes on at once. -/
theorem Board.Available.admits (available : board.Available hart) : board.Admits hart board :=
  ⟨waitForAccessRights_run available, available, rfl, rfl, rfl⟩

/-- A hart that may go on has got the bus. -/
theorem exists_admits (granted : ((waitForAccessRights hart).run board).result = .ok ()) :
    ∃ admitted, board.Admits hart admitted := by
  by_cases available : board.Available hart
  · exact ⟨board, available.admits⟩
  · have ran := waitForAccessRights_run_of_not_available available
    rw [ran, waitUntilUnlocked, waitFor, bind_run, bind_run, get_run, Outcome.andThen_ok] at granted
    cases woken : P.world.waitUnlocked board.world with
    | none =>
        rw [woken] at granted
        cases granted
    | some moved =>
        obtain ⟨world, signals⟩ := moved
        refine ⟨{ board.signalled world signals with lock := none }, ?_, .inl rfl, rfl, rfl, rfl⟩
        rw [ran, waitUntilUnlocked, waitFor, bind_run, bind_run, get_run, Outcome.andThen_ok, woken]
        rfl

/-- A hart that has to wait for ever leaves the board as it was. -/
theorem waitForAccessRights_run_of_blocked
    (blocked : ((waitForAccessRights hart).run board).result ≠ .ok ()) :
    (waitForAccessRights hart).run board = ⟨.error .blocked, board, []⟩ := by
  by_cases available : board.Available hart
  · rw [waitForAccessRights_run available] at blocked
    exact absurd rfl blocked
  · rw [waitForAccessRights_run_of_not_available available] at blocked ⊢
    cases woken : P.world.waitUnlocked board.world with
    | none =>
        rw [waitUntilUnlocked, waitFor, bind_run, bind_run, get_run, Outcome.andThen_ok, woken]
        rfl
    | some moved =>
        rw [waitUntilUnlocked, waitFor, bind_run, bind_run, get_run, Outcome.andThen_ok, woken] at blocked
        exact absurd rfl blocked

/-- What begins by asking for the bus does the same once the bus is granted. -/
theorem Board.Admits.run_eq {admitted : Board P} (admits : board.Admits hart admitted) {α : Type}
    (next : Unit → MemM P α) :
    (waitForAccessRights hart >>= next).run board =
      (waitForAccessRights hart >>= next).run admitted := by
  rw [bind_run, bind_run, admits.waited, waitForAccessRights_run admits.available]

/-! ## Reads and writes -/

section Accesses

variable (core : Core) (input : P.clover.terms.Assignment) (board : Board P)

/-- A port that leads to the memory hands transactions on to it, under their local address. -/
theorem bus_run_of_decode {trans : Payload P.clover.terms} {port : Port} (deep : 0 < P.depth)
    (found : SimpleBus.decode P trans.address = some port) (target : port.target = .memory)
    (delay : Nat) :
    (bus core input trans delay).run board =
      (SymbolicMemory.transport { trans with address := trans.address - port.start } delay).run
        board := by
  obtain ⟨depth, levels⟩ := Nat.exists_eq_succ_of_ne_zero deep.ne'
  rw [bus, levels, SimpleBus.nested, SimpleBus.transport, found]
  dsimp only
  unfold SimpleBus.deliver
  rw [target]
  rfl

/-- What the memory makes of a transaction: it refuses what leaves it, answers a read, and
carries out a write. -/
theorem doTransaction_run {trans : Payload P.clover.terms} {port : Port} (deep : 0 < P.depth)
    (found : SimpleBus.decode P trans.address = some port) (target : port.target = .memory)
    (fresh : trans.response = .ok) :
    let sent := { trans with address := trans.address - port.start }
    let later : Board P → Board P := fun after =>
      { after with localTime := board.localTime + 10 }
    (doTransaction (bus core input) trans).run board =
      if P.memSize < sent.address + BitVec.ofNat 64 trans.data.length then
        match trans.command with
        | .read => ⟨.error (.trap ⟨.loadPageFault, sent.address.toNat⟩), later board, []⟩
        | .write => ⟨.error (.trap ⟨.storeAmoPageFault, sent.address.toNat⟩), later board, []⟩
      else
        match trans.command with
        | .read => ⟨.ok (SymbolicMemory.readData board sent), later board, []⟩
        | .write => ⟨.ok sent, later (SymbolicMemory.writeData board sent), []⟩ := by
  intro sent later
  obtain ⟨command, address, data, response, extension⟩ := trans
  obtain rfl : response = .ok := fresh
  have ran := bus_run_of_decode core input board deep found target board.localTime
  rw [doTransaction, bind_run, get_run, Outcome.andThen_ok, bind_run]
  dsimp only
  rw [ran, SymbolicMemory.transport, bind_run, get_run, Outcome.andThen_ok, ite_run]
  have due : ∀ fault, Exec.require (board.localTime ≤ board.localTime + 10) fault =
      (pure () : MemM P Unit) := require_of (Nat.le_add_right _ _)
  by_cases outside : P.memSize < sent.address + BitVec.ofNat 64 data.length
  · rw [if_pos outside, if_pos outside, pure_run, Outcome.andThen_ok, bind_run, get_run,
      Outcome.andThen_ok, bind_run, due, pure_run]
    cases command <;> rfl
  · rw [if_neg outside, if_neg outside]
    cases command with
    | read =>
        rw [pure_run, Outcome.andThen_ok, bind_run, get_run, Outcome.andThen_ok, bind_run, due,
          pure_run]
        rfl
    | write =>
        have reached : (SymbolicMemory.writeData board sent).localTime = board.localTime := rfl
        dsimp only
        rw [bind_run, modify_run, Outcome.andThen_ok, pure_run]
        rw [Outcome.andThen_ok, bind_run, get_run, Outcome.andThen_ok, bind_run,
          reached, due, pure_run]
        rfl

/-- The bytes a read finds in the memory. -/
def readAnswer (board : Board P) (address : BitVec 64) (offset numBytes : Nat) :
    Payload P.clover.terms :=
  let data : Concolic P.clover.terms := ⟨_, P.clover.load board.memory offset numBytes⟩
  ⟨.read, address, data.toBytes numBytes, .ok, some data⟩

theorem read_run {address : BitVec 64} {numBytes offset : Nat}
    (placed : memoryOffset P address numBytes = some offset) :
    ∃ inner, (doTransaction (bus core input) (readRequest address numBytes)).run board =
      ⟨.ok (readAnswer board inner offset numBytes),
        { board with localTime := board.localTime + 10 }, []⟩ := by
  obtain ⟨depth, port, levels, found, target, rfl, short⟩ := of_memoryOffset placed
  have size : (List.replicate numBytes (0 : BitVec 8)).length = numBytes := List.length_replicate
  unfold readRequest
  generalize List.replicate numBytes (0 : BitVec 8) = bytes at size ⊢
  subst size
  refine ⟨address - port.start, ?_⟩
  rw [doTransaction_run core input board (by omega) found target rfl, if_neg short]
  rfl

theorem ofBytes_byteOf (value : BitVec 64) :
    (Concolic.ofBytes ((List.range 4).map fun index => Clover.byteOf index value) :
      Concolic P.clover.terms) = ⟨32, .BVC (value.setWidth 32)⟩ := by
  have word : BitVec.ofNat (8 * 4)
      (Clover.littleEndian ((List.range 4).map fun index => Clover.byteOf index value)) =
        value.setWidth (8 * 4) := by
    refine Clover.eq_of_byteOf_eq fun index inside => ?_
    rw [Clover.byteOf_littleEndian _ index (by simpa using inside) (by simp)]
    simp only [List.getElem_map, List.getElem_range, Clover.byteOf]
    apply BitVec.eq_of_getLsbD_eq
    intro bit low
    simp only [BitVec.getLsbD_extractLsb', BitVec.getLsbD_setWidth, low, decide_true, Bool.true_and]
    have short : 8 * index + bit < 8 * 4 := by omega
    simp only [short, decide_true, Bool.true_and]
  exact congrArg (fun word => (⟨32, .BVC word⟩ : Concolic P.clover.terms)) word

theorem write_run {address : BitVec 64} {offset : Nat}
    (placed : memoryOffset P address 4 = some offset) (value : BitVec 64) :
    ∃ answer, (doTransaction (bus core input) ⟨.write, address,
        (List.range 4).map fun index => Clover.byteOf index value, .ok, none⟩).run board =
      ⟨.ok answer, { board with
        memory := board.withWord offset (value.setWidth 32)
        localTime := board.localTime + 10 }, []⟩ := by
  obtain ⟨depth, port, levels, found, target, rfl, short⟩ := of_memoryOffset placed
  let sent : Payload P.clover.terms := ⟨.write, address - port.start,
    (List.range 4).map fun index => Clover.byteOf index value, .ok, none⟩
  refine ⟨sent, ?_⟩
  have written : SymbolicMemory.writeData board sent =
      { board with memory := board.withWord (address - port.start).toNat (value.setWidth 32) } := by
    rw [SymbolicMemory.writeData, Option.getD_none, ofBytes_byteOf]
    rfl
  refine (doTransaction_run core input board (by omega) found target rfl).trans ?_
  refine (if_neg short).trans ?_
  exact congrArg (fun after : Board P =>
    (⟨.ok sent, { after with localTime := board.localTime + 10 }, []⟩ : Outcome _ _ _ _)) written

/-- The bytes of a read make up the word. -/
theorem littleEndian_readAnswer (address : BitVec 64) (offset : Nat) :
    BitVec.ofNat 64 (Clover.littleEndian (readAnswer board address offset 4).data) =
      (board.word offset).setWidth 64 := by
  have word := littleEndian_toBytes (P.clover.load board.memory offset 4)
  have small := Clover.littleEndian_lt (readAnswer board address offset 4).data
  rw [readAnswer, Concolic.length_toBytes] at small
  rw [Board.word, ← word]
  apply BitVec.eq_of_toNat_eq
  rw [BitVec.toNat_setWidth, BitVec.toNat_ofNat, BitVec.toNat_ofNat, Nat.mod_eq_of_lt small]
  rfl

/-- A read of a page table entry. -/
theorem mmuLoadPte32_run {address : BitVec 64} {offset : Nat} (available : board.Available core.hartId)
    (placed : memoryOffset P address 4 = some offset) :
    ∃ log, (mmuLoadPte32 (bus core input) core address).run board =
      ⟨.ok ((board.word offset).setWidth 64), { board with localTime := board.localTime + 10 }, log⟩ := by
  obtain ⟨inner, ran⟩ := read_run core input board placed
  unfold readRequest at ran
  refine ⟨[.concretized .pageTable (readAnswer board inner offset 4).isSymbolic], ?_⟩
  rw [mmuLoadPte32, concreteLoadData, bind_run, bind_run, waitForAccessRights_run available,
    Outcome.andThen_ok, bind_run, ran, ← littleEndian_readAnswer board inner]
  rfl

/-- A write of a page table entry gives up the lock. -/
theorem mmuStorePte32_run {address : BitVec 64} {offset : Nat}
    (available : board.Available core.hartId) (placed : memoryOffset P address 4 = some offset)
    (value : BitVec 64) :
    (mmuStorePte32 (bus core input) core address value).run board =
      ⟨.ok (), { board with
        memory := board.withWord offset (value.setWidth 32)
        localTime := board.localTime + 10
        lock := none }, []⟩ := by
  obtain ⟨answer, ran⟩ :=
    write_run core input board placed value
  rw [mmuStorePte32, concreteStoreData, bind_run, waitForAccessRights_run available,
    Outcome.andThen_ok, bind_run, ran, Outcome.andThen_ok]
  rw [unlock_run (show Board.Available core.hartId { board with
    memory := board.withWord offset (value.setWidth 32)
    localTime := board.localTime + 10 } from available)]
  rfl

end Accesses

end SymexVP
