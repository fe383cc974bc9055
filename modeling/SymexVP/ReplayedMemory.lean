import SymexVP.Devices

/-!
# The memory interface in two runs

A run records where it takes the concrete part of a value and which branches it takes on
values with symbolic parts. Take a run in which no symbolic part is dropped, and a second
assignment of the symbolic variables under which every recorded branch goes the same way.
The second run then follows the first one: its memory is that of the first run evaluated
under the second assignment, and its transactions carry the values of the first run so
evaluated. This module shows it for the interface to the memory and the devices behind it.
-/

namespace SymexVP

open Exec Board MemoryInterface

/-! ## What is recorded -/

namespace Event

variable {terms : Terms}

/-- No symbolic part is dropped, but for page table entries. -/
def IsPlain : Event terms → Prop
  | .concretized .pageTable _ => True
  | .concretized _ symbolic => symbolic = false
  | _ => True

theorem not_symbolic {use : Use} {symbolic : Bool}
    (plain : (concretized use symbolic : Event terms).IsPlain) (dropped : use ≠ .pageTable) :
    symbolic = false := by
  cases use with
  | pageTable => exact absurd rfl dropped
  | _ => exact plain

/-- A recorded branch goes the same way under the assignment. -/
def GoesSameWay (other : terms.Assignment) : Event terms → Prop
  | .branch taken expression _ => terms.eval other expression = BitVec.ofBool taken
  | _ => True

instance : (event : Event terms) → Decidable event.IsPlain
  | .concretized .pageTable _ => .isTrue trivial
  | .concretized .address symbolic | .concretized .jumpBase symbolic
  | .concretized .csrSource symbolic | .concretized .fetch symbolic
  | .concretized .peripheralData symbolic => inferInstanceAs (Decidable (symbolic = false))
  | .branch _ _ _ | .interrupt _ | .hostError | .injected _ => .isTrue trivial

instance (other : terms.Assignment) : (event : Event terms) → Decidable (event.GoesSameWay other)
  | .branch taken expression _ =>
      inferInstanceAs (Decidable (terms.eval other expression = BitVec.ofBool taken))
  | .concretized _ _ | .interrupt _ | .hostError | .injected _ => .isTrue trivial

/-- What a run may record so that a run under another assignment follows it. -/
structure Replayable (other : terms.Assignment) (event : Event terms) : Prop where
  plain : event.IsPlain
  sameWay : event.GoesSameWay other

end Event

variable {P : Platform} {other : P.clover.terms.Assignment}

/-- The second board is the first one, with the bytes of its memory evaluated. -/
inductive Board.Replays (other : P.clover.terms.Assignment) : Board P → Board P → Prop
  | intro {board : Board P} {memory : P.clover.Memory}
      (bytes : P.clover.MemoryReplays other board.memory memory) :
      Board.Replays other board { board with memory := memory }

/-- The second computation follows the first one from every replayed board. -/
abbrev Board.Follows (other : P.clover.terms.Assignment) {α β : Type} (values : α → β → Prop)
    (first : MemM P α) (second : MemM P β) : Prop :=
  Sim (Board.Replays other) (Event.Replayable other) values first second

/-- The second payload carries what the first one carries, evaluated. The bytes of the buffer
are the same unless they stand for a value with a symbolic part. -/
inductive Payload.Replays (other : P.clover.terms.Assignment) :
    Payload P.clover.terms → Payload P.clover.terms → Prop
  | intro {command : Command} {address : BitVec 64} {response : Response}
      {data data' : List (BitVec 8)} {extension extension' : Option (Concolic P.clover.terms)}
      (attached : Option.Rel (Concolic.Replays other) extension extension')
      (length : data'.length = data.length)
      (plain : extension.any (·.isSymbolic) = false → data' = data) :
      Payload.Replays other ⟨command, address, data, response, extension⟩
        ⟨command, address, data', response, extension'⟩

/-- A payload as the memory interface sends it: the value to be written has all its bytes, and
nothing is attached to a read. -/
def Payload.Sendable (trans : Payload P.clover.terms) : Prop :=
  match trans.command with
  | .read => trans.extension = none
  | .write => ∀ value, trans.extension = some value → 8 * trans.data.length ≤ value.width

/-- What the target attached, and the delay. -/
def AnswerReplays (other : P.clover.terms.Assignment)
    (answer answer' : Payload P.clover.terms × Nat) : Prop :=
  Payload.Replays other answer.1 answer'.1 ∧ answer.2 = answer'.2

/-- The second socket answers as the first one. -/
def Socket.Follows (other : P.clover.terms.Assignment) (isock isock' : Socket P) : Prop :=
  ∀ (trans trans' : Payload P.clover.terms) (delay : Nat), Payload.Replays other trans trans' →
    trans.Sendable →
    Board.Follows other (AnswerReplays other) (isock trans delay) (isock' trans' delay)

theorem isSymbolic_of_attached {extension extension' : Option (Concolic P.clover.terms)}
    (attached : Option.Rel (Concolic.Replays other) extension extension') :
    extension'.any (·.isSymbolic) = extension.any (·.isSymbolic) := by
  cases attached with
  | none => rfl
  | some replays => exact replays.isSymbolic

namespace Board

section Rules

variable {α β : Type} {values : α → β → Prop}

theorem follows_get {next : Board P → MemM P α} {next' : Board P → MemM P β}
    (rest : ∀ board memory, P.clover.MemoryReplays other board.memory memory →
      Follows other values (next board) (next' { board with memory := memory })) :
    Follows other values (Exec.get >>= next) (Exec.get >>= next') :=
  Sim.get_bind fun _ _ ⟨bytes⟩ => rest _ _ bytes

theorem follows_modify {change change' : Board P → Board P}
    (changes : ∀ board memory, P.clover.MemoryReplays other board.memory memory →
      Board.Replays other (change board) (change' { board with memory := memory })) :
    Follows other (fun _ _ => True) (Exec.modify change) (Exec.modify change') :=
  Sim.modify fun _ _ ⟨bytes⟩ => changes _ _ bytes

end Rules

/-! ## Waiting and the bus lock -/

/-- Units are not compared. -/
abbrev Done : Unit → Unit → Prop := fun _ _ => True

theorem follows_waitFor (wait : P.world.State → Option (P.world.State × List Signal)) :
    Follows other Done (waitFor wait) (waitFor wait) := by
  refine follows_get fun board memory bytes => ?_
  dsimp only
  split
  · exact follows_modify fun _ _ bytes => .intro bytes
  · exact Sim.throw _

theorem follows_waitForAccessRights (hart : BitVec 32) :
    Follows other Done (waitForAccessRights hart) (waitForAccessRights hart) := by
  refine follows_get fun board memory bytes => Sim.when Iff.rfl fun _ => ?_
  exact Sim.bind (follows_waitFor _) fun _ _ _ => follows_modify fun _ _ bytes => .intro bytes

theorem follows_takeLock (hart : BitVec 32) :
    Follows other Done (takeLock hart) (takeLock hart) :=
  Sim.bind (follows_waitForAccessRights hart) fun _ _ _ =>
    follows_modify fun _ _ bytes => .intro bytes

theorem follows_unlock (hart : BitVec 32) : Follows other Done (unlock hart) (unlock hart) := by
  refine follows_modify fun board memory bytes => ?_
  by_cases own : board.isLockedBy hart
  · rw [if_pos own, if_pos (show isLockedBy { board with memory := memory } hart = true from own)]
    exact .intro bytes
  · rw [if_neg own, if_neg (show ¬isLockedBy { board with memory := memory } hart = true from own)]
    exact .intro bytes

theorem follows_inc (time : Nat) : Follows other Done (inc time) (inc time) :=
  follows_modify fun _ _ bytes => .intro bytes

theorem follows_synchronise : Follows other Done (synchronise : MemM P Unit) synchronise :=
  follows_modify fun _ _ bytes => .intro bytes

/-- A value without symbolic part has one concrete part. -/
theorem follows_getValue {width : Nat} {use : Use} (dropped : use ≠ .pageTable)
    {value value' : ConcolicValue P.clover.terms width}
    (replays : ConcolicValue.Replays other value value') :
    Follows other Eq (Board.getValue use value) (Board.getValue use value') := by
  unfold Board.getValue
  rw [replays.isSymbolic]
  refine Sim.bind (Sim.emit _) fun _ _ accepted => Sim.pure ?_
  exact (replays.concrete_eq (Event.not_symbolic accepted.plain dropped)).symm

end Board

/-! ## Transactions -/

section Interface

variable {isock isock' : Socket P} (answers : Socket.Follows other isock isock')
  {trans trans' : Payload P.clover.terms}

include answers

theorem follows_doTransaction (sent : Payload.Replays other trans trans')
    (sendable : trans.Sendable) :
    Follows other (Payload.Replays other) (doTransaction isock trans)
      (doTransaction isock' trans') := by
  refine follows_get fun board memory bytes => ?_
  refine Sim.bind (answers _ _ board.localTime sent sendable) ?_
  rintro ⟨answer, delay⟩ ⟨answer', _⟩ ⟨replays, ⟨⟩⟩
  refine follows_get fun board memory bytes => ?_
  refine Sim.bind (Sim.require Iff.rfl _) fun _ _ _ => ?_
  refine Sim.bind (follows_modify fun _ _ bytes => .intro bytes) fun _ _ _ => ?_
  obtain ⟨attached, length, plain⟩ := replays
  rename_i command address response data data' extension extension'
  cases response with
  | ok => exact Sim.pure ⟨attached, length, plain⟩
  | addressError => cases command <;> exact Sim.throw _

omit answers in
/-- A read starts with an empty buffer and nothing attached. -/
theorem replays_request (address : BitVec 64) (numBytes : Nat) :
    Payload.Replays other ⟨.read, address, List.replicate numBytes 0, .ok, none⟩
      ⟨.read, address, List.replicate numBytes 0, .ok, none⟩ :=
  .intro .none rfl fun _ => rfl

theorem follows_writeTransaction (address : BitVec 64) {data data' : Concolic P.clover.terms}
    (replays : Concolic.Replays other data data') {numBytes : Nat}
    (fits : 8 * numBytes ≤ data.width) :
    Follows other Done (writeTransaction isock address data numBytes)
      (writeTransaction isock' address data' numBytes) := by
  have sent : Payload.Replays other ⟨.write, address, data.toBytes numBytes, .ok, some data⟩
      ⟨.write, address, data'.toBytes numBytes, .ok, some data'⟩ := by
    refine .intro (.some replays) (by rw [Concolic.length_toBytes, Concolic.length_toBytes]) ?_
    exact fun plain => replays.toBytes plain numBytes
  refine Sim.bind (follows_doTransaction answers sent ?_) fun _ _ _ => Sim.pure trivial
  rintro value ⟨⟩
  rwa [Concolic.length_toBytes]

theorem follows_readTransaction (address : BitVec 64) (numBytes : Nat) :
    Follows other (Concolic.Replays other) (readTransaction isock address numBytes)
      (readTransaction isock' address numBytes) := by
  refine Sim.bind (follows_doTransaction answers (replays_request address numBytes) rfl) ?_
  rintro _ _ ⟨attached, length, plain⟩
  cases attached with
  | none =>
      rw [plain rfl]
      exact Sim.pure (.ofBytes _)
  | some replays => exact Sim.pure replays

theorem follows_concreteLoadData (core : Core) {use : Use} (dropped : use ≠ .pageTable)
    (address : BitVec 64) (numBytes : Nat) :
    Follows other Eq (concreteLoadData isock core use address numBytes)
      (concreteLoadData isock' core use address numBytes) := by
  refine Sim.bind (follows_waitForAccessRights _) fun _ _ _ => ?_
  refine Sim.bind (follows_doTransaction answers (replays_request address numBytes) rfl) ?_
  rintro _ _ ⟨attached, length, plain⟩
  dsimp only [Payload.isSymbolic]
  rw [isSymbolic_of_attached attached]
  refine Sim.bind (Sim.emit _) fun _ _ accepted => Sim.pure ?_
  exact (plain (Event.not_symbolic accepted.plain dropped)).symm

/-! ## Addresses -/

section Walkless

variable (walkless : P.mmuMem = false) (core : Core)

include walkless

omit answers in
/-- A walk stops at the first entry it would have to load. -/
theorem follows_walkLevels (vm : Mmu.VmInfo) (vaddr : BitVec 64) (type : MemoryAccessType)
    (mode : PrivilegeLevel) (levels : Nat) (base : BitVec 64) :
    Follows other Eq (Mmu.walkLevels isock core vm vaddr type mode levels base)
      (Mmu.walkLevels isock' core vm vaddr type mode levels base) := by
  cases levels with
  | zero => exact Sim.pure rfl
  | succ level =>
      refine Sim.bind (Sim.require Iff.rfl _) fun _ _ attached => ?_
      rw [walkless] at attached
      cases attached

omit answers in
theorem follows_walk (vaddr : BitVec 64) (type : MemoryAccessType) (mode : PrivilegeLevel) :
    Follows other Eq (Mmu.walk isock core vaddr type mode)
      (Mmu.walk isock' core vaddr type mode) := by
  have decoded : Follows other Eq (Mmu.decodeVmInfo core mode : MemM P Mmu.VmInfo)
      (Mmu.decodeVmInfo core mode) := by
    refine Sim.bind (Sim.require Iff.rfl _) fun _ _ _ => ?_
    exact Sim.ite Iff.rfl (fun _ => Sim.pure rfl) fun _ => Sim.throw _
  refine Sim.bind decoded ?_
  rintro vm _ rfl
  refine Sim.bind (follows_walkLevels walkless core vm vaddr type mode _ _) ?_
  rintro paddr _ rfl
  cases paddr with
  | some paddr => exact Sim.pure rfl
  | none => cases type <;> exact Sim.throw _

omit answers in
theorem follows_v2p (vaddr : BitVec 64) (type : MemoryAccessType) :
    Follows other Eq (v2p isock core vaddr type) (v2p isock' core vaddr type) := by
  refine Sim.ite Iff.rfl (fun _ => ?_) fun _ => Sim.pure rfl
  refine Sim.ite Iff.rfl (fun _ => Sim.pure rfl) fun _ => ?_
  refine Sim.bind (follows_inc _) fun _ _ _ => Sim.bind (Sim.require Iff.rfl _) fun _ _ _ => ?_
  refine follows_get fun board memory bytes => Sim.ite Iff.rfl (fun _ => Sim.pure rfl) fun _ => ?_
  refine Sim.bind (follows_walk walkless core vaddr type _) ?_
  rintro paddr _ rfl
  exact Sim.bind (follows_modify fun _ _ bytes => .intro bytes) fun _ _ _ => Sim.pure rfl

/-! ## Accesses -/

theorem follows_loadInstr (pc : BitVec 32) :
    Follows other Eq (loadInstr isock core pc) (loadInstr isock' core pc) := by
  refine Sim.bind (follows_v2p walkless core _ _) ?_
  rintro paddr _ rfl
  refine Sim.bind (follows_concreteLoadData answers core (by decide) paddr 4) ?_
  rintro bytes _ rfl
  exact Sim.pure rfl

variable {addr addr' : ConcolicValue P.clover.terms 32}
  (place : ConcolicValue.Replays other addr addr')

include place

theorem follows_symbolicStoreData {data data' : Concolic P.clover.terms}
    (replays : Concolic.Replays other data data') {numBytes : Nat}
    (fits : 8 * numBytes ≤ data.width) :
    Follows other Done (symbolicStoreData isock core addr data numBytes)
      (symbolicStoreData isock' core addr' data' numBytes) := by
  refine Sim.bind (follows_waitForAccessRights _) fun _ _ _ => ?_
  refine Sim.bind (follows_getValue (by decide) place) ?_
  rintro caddr _ rfl
  refine Sim.bind (follows_v2p walkless core _ _) ?_
  rintro paddr _ rfl
  exact Sim.bind (follows_writeTransaction answers paddr replays fits) fun _ _ _ => follows_unlock _

theorem follows_symbolicLoadData (numBytes : Nat) :
    Follows other (Concolic.Replays other) (symbolicLoadData isock core addr numBytes)
      (symbolicLoadData isock' core addr' numBytes) := by
  refine Sim.bind (follows_waitForAccessRights _) fun _ _ _ => ?_
  refine Sim.bind (follows_getValue (by decide) place) ?_
  rintro caddr _ rfl
  refine Sim.bind (follows_v2p walkless core _ _) ?_
  rintro paddr _ rfl
  exact follows_readTransaction answers paddr numBytes

section Extended

variable (lawful : P.clover.Lawful)

include lawful

theorem follows_loadSigned (numBytes : Nat) :
    Follows other (ConcolicValue.Replays other) (loadSigned isock core addr numBytes)
      (loadSigned isock' core addr' numBytes) := by
  refine Sim.bind (follows_symbolicLoadData answers walkless core place numBytes) ?_
  rintro _ _ ⟨replays⟩
  exact Sim.pure ((lawful.sext _ 32).replays replays)

theorem follows_loadUnsigned (numBytes : Nat) :
    Follows other (Concolic.Replays other) (loadUnsigned isock core addr numBytes)
      (loadUnsigned isock' core addr' numBytes) := by
  refine Sim.bind (follows_symbolicLoadData answers walkless core place numBytes) ?_
  rintro _ _ ⟨replays⟩
  refine Sim.ite Iff.rfl (fun _ => Sim.pure ?_) fun _ => Sim.pure ⟨replays⟩
  exact ⟨(lawful.zext _ 32).replays replays⟩

theorem follows_atomicLoadWord :
    Follows other (ConcolicValue.Replays other) (atomicLoadWord isock core addr)
      (atomicLoadWord isock' core addr') :=
  Sim.bind (follows_takeLock _) fun _ _ _ => follows_loadSigned answers walkless core place lawful 4

theorem follows_atomicLoadReservedWord {object object' : Nat} (same : object' = object) :
    Follows other (ConcolicValue.Replays other) (atomicLoadReservedWord isock core object addr)
      (atomicLoadReservedWord isock' core object' addr') := by
  subst same
  refine Sim.bind (follows_takeLock _) fun _ _ _ => ?_
  refine Sim.bind (follows_modify fun _ _ bytes => .intro bytes) fun _ _ _ => ?_
  exact follows_loadSigned answers walkless core place lawful 4

end Extended

section Stored

variable {value value' : ConcolicValue P.clover.terms 32}
  (replays : ConcolicValue.Replays other value value')

include replays

theorem follows_storeBytes {numBytes : Nat} (fits : 8 * numBytes ≤ 32) :
    Follows other Done (storeBytes isock core addr value numBytes)
      (storeBytes isock' core addr' value' numBytes) :=
  follows_symbolicStoreData answers walkless core place ⟨replays⟩ fits

theorem follows_atomicStoreWord :
    Follows other Done (atomicStoreWord isock core addr value)
      (atomicStoreWord isock' core addr' value') := by
  refine follows_get fun board memory bytes => Sim.bind (Sim.require Iff.rfl _) fun _ _ _ => ?_
  exact follows_storeBytes answers walkless core place replays (by decide)

theorem follows_atomicStoreConditionalWord {object object' : Nat} (same : object' = object) :
    Follows other Eq (atomicStoreConditionalWord isock core object addr value)
      (atomicStoreConditionalWord isock' core object' addr' value') := by
  subst same
  refine follows_get fun board memory bytes => Sim.ite Iff.rfl (fun _ => ?_) fun _ => Sim.pure rfl
  refine Sim.ite Iff.rfl (fun _ => ?_) fun _ => ?_
  · exact Sim.bind (follows_storeBytes answers walkless core place replays (by decide))
      fun _ _ _ => Sim.pure rfl
  · exact Sim.bind (follows_unlock _) fun _ _ _ => Sim.pure rfl

end Stored

omit place in
/-- Memory that is marked symbolic holds what the assignment of the run gives it. -/
theorem follows_makeSymbolic (input : P.clover.terms.Assignment) (addr size : BitVec 32) :
    Follows other Done (makeSymbolic isock core input addr size)
      (makeSymbolic isock' core other addr size) := by
  refine Sim.bind (Sim.emit _) fun _ _ _ => ?_
  refine follows_symbolicStoreData answers walkless core (.BVC addr) ⟨?_⟩ (le_refl _)
  exact P.clover.getSymbolicBytes_replays input other _ _

end Walkless

end Interface

/-! ## Devices -/

section Devices

variable {trans trans' : Payload P.clover.terms} (lawful : P.clover.Lawful)

/-- Concrete bytes that are handed to a device are the same in both runs. -/
theorem data_eq (sent : Payload.Replays other trans trans') (sendable : trans.Sendable)
    (plain : trans.command = .write → trans.isSymbolic = false) : trans'.data = trans.data := by
  obtain ⟨attached, length, same⟩ := sent
  rename_i command address response data data' extension extension'
  cases command with
  | read =>
      obtain rfl : extension = none := sendable
      exact same rfl
  | write => exact same (plain rfl)

include lawful in
theorem follows_symbolicMemory (sent : Payload.Replays other trans trans')
    (sendable : trans.Sendable) (delay : Nat) :
    Follows other (AnswerReplays other) (SymbolicMemory.transport trans delay)
      (SymbolicMemory.transport trans' delay) := by
  obtain ⟨attached, length, plain⟩ := sent
  rename_i command address response data data' extension extension'
  refine follows_get fun board memory bytes => ?_
  refine Sim.ite (by dsimp only; rw [length])
    (fun _ => Sim.pure ⟨.intro attached length plain, rfl⟩) fun _ => ?_
  cases command with
  | read =>
      refine Sim.pure ⟨?_, rfl⟩
      have loaded : Concolic.Replays other ⟨_, P.clover.load board.memory address.toNat data.length⟩
          ⟨_, P.clover.load memory address.toNat data.length⟩ := ⟨lawful.load_replays bytes _ _⟩
      dsimp only [SymbolicMemory.readData]
      rw [length]
      refine .intro (.some loaded) (by rw [Concolic.length_toBytes, Concolic.length_toBytes]) ?_
      exact fun plain => loaded.toBytes plain _
  | write =>
      refine Sim.bind (follows_modify fun board memory bytes => ?_) fun _ _ _ =>
        Sim.pure ⟨.intro attached length plain, rfl⟩
      dsimp only [SymbolicMemory.writeData]
      rw [length]
      cases attached with
      | none =>
          rw [plain rfl]
          exact .intro (lawful.store_replays bytes _ (.BVC _) (le_refl _))
      | some replays =>
          obtain ⟨replays⟩ := replays
          exact .intro (lawful.store_replays bytes _ replays (sendable _ rfl))

theorem follows_writeCtrl :
    Follows other Done (SymbolicCtrl.writeCtrl : MemM P Unit) SymbolicCtrl.writeCtrl := by
  refine follows_get fun board memory bytes => ?_
  refine Sim.bind (Sim.when Iff.rfl fun _ => ?_) fun _ _ _ => ?_
  · refine Sim.bind (Sim.mono (fun _ _ _ => trivial) (Sim.emit _)) fun _ _ _ => ?_
    exact follows_modify fun _ _ bytes => .intro bytes
  refine Sim.bind (Sim.when Iff.rfl fun _ => ?_) fun _ _ _ => ?_
  · exact follows_modify fun _ _ bytes => .intro bytes
  · exact follows_modify fun _ _ bytes => .intro bytes

section SameBytes

variable (sent : Payload.Replays other trans trans') (same : trans'.data = trans.data) (delay : Nat)

include sent same

theorem follows_symbolicCtrl {makes makes' : BitVec 32 → BitVec 32 → MemM P Unit}
    (marks : ∀ addr size, Follows other Done (makes addr size) (makes' addr size)) :
    Follows other (AnswerReplays other) (SymbolicCtrl.transport makes trans delay)
      (SymbolicCtrl.transport makes' trans' delay) := by
  obtain ⟨attached, length, plain⟩ := sent
  rename_i command address response data data' extension extension'
  obtain rfl : data = data' := same.symm
  have answered : ∀ data : List (BitVec 8), AnswerReplays other
      (⟨command, address, data, response, extension⟩, delay + 10)
      (⟨command, address, data, response, extension'⟩, delay + 10) :=
    fun data => ⟨.intro attached rfl fun _ => rfl, rfl⟩
  have posted : ∀ register, Follows other Done (SymbolicCtrl.postWrite makes register)
      (SymbolicCtrl.postWrite makes' register) := by
    intro register
    cases register with
    | addr => exact Sim.pure trivial
    | size => exact follows_get fun board memory bytes => marks _ _
    | ctrl => exact follows_writeCtrl
  unfold SymbolicCtrl.transport
  dsimp only
  split
  · exact Sim.throw _
  · next register found =>
      refine Sim.bind (Sim.require Iff.rfl _) fun _ _ _ => ?_
      cases command with
      | read => exact follows_get fun board memory bytes => Sim.pure (answered _)
      | write =>
          refine Sim.bind (follows_modify fun _ _ bytes => .intro bytes) fun _ _ _ => ?_
          exact Sim.bind (posted register) fun _ _ _ => Sim.pure (answered _)

theorem follows_symbolicSensor (lawful : P.clover.Lawful) (input : P.clover.terms.Assignment) :
    Follows other (AnswerReplays other) (SymbolicSensor.transport input trans delay)
      (SymbolicSensor.transport other trans' delay) := by
  obtain ⟨attached, length, plain⟩ := sent
  rename_i command address response data data' extension extension'
  obtain rfl : data = data' := same.symm
  refine follows_get fun board memory bytes => ?_
  have failed : AnswerReplays other
      (⟨command, address, data, .addressError, extension⟩, delay)
      (⟨command, address, data, .addressError, extension'⟩, delay) :=
    ⟨.intro attached rfl fun _ => rfl, rfl⟩
  refine Sim.ite Iff.rfl (fun _ => Sim.pure failed) fun _ => ?_
  cases command with
  | read =>
      refine Sim.ite Iff.rfl (fun _ => Sim.pure failed) fun served => ?_
      have bounded : board.sensor.upperBound - board.sensor.lowerBound ≠ 0 := by
        intro equal
        exact served (.inr (BitVec.le_of_eq (by grind)))
      have sampled : Concolic.Replays other ⟨32, SymbolicSensor.sample input board.sensor⟩
          ⟨32, SymbolicSensor.sample other board.sensor⟩ := by
        refine ⟨(lawful.binary .add 32).replays ?_ (.BVC _) trivial⟩
        refine (lawful.binary .urem 32).replays ?_ (.BVC _) bounded
        exact P.clover.getSymbolicWord_replays input other _
      refine Sim.bind (Sim.emit _) fun _ _ _ => ?_
      refine Sim.bind (follows_modify fun _ _ bytes => .intro bytes) fun _ _ _ => Sim.pure ?_
      exact ⟨.intro (.some sampled) (by rw [Concolic.length_toBytes, Concolic.length_toBytes])
        fun plain => sampled.toBytes plain 4, rfl⟩
  | write =>
      dsimp only
      split
      · exact Sim.pure failed
      · refine Sim.bind (follows_modify fun _ _ bytes => .intro bytes) fun _ _ _ => Sim.pure ?_
        exact ⟨.intro attached rfl fun _ => rfl, rfl⟩

theorem follows_externalTransport (device : Nat) :
    Follows other (AnswerReplays other) (externalTransport device trans delay)
      (externalTransport device trans' delay) := by
  obtain ⟨attached, length, plain⟩ := sent
  rename_i command address response data data' extension extension'
  obtain rfl : data = data' := same.symm
  refine follows_get fun board memory bytes => ?_
  dsimp only
  split
  · exact Sim.throw _
  · refine Sim.bind (follows_modify fun _ _ bytes => .intro bytes) fun _ _ _ => Sim.pure ?_
    exact ⟨.intro attached rfl fun _ => rfl, rfl⟩

end SameBytes

/-! ## The bus -/

include lawful

theorem follows_deliver {makes makes' : BitVec 32 → BitVec 32 → MemM P Unit}
    (marks : ∀ addr size, Follows other Done (makes addr size) (makes' addr size))
    (input : P.clover.terms.Assignment) {target : Target} (mute : target ≠ .uart)
    (sent : Payload.Replays other trans trans') (sendable : trans.Sendable) (delay : Nat) :
    Follows other (AnswerReplays other) (SimpleBus.deliver makes input target trans delay)
      (SimpleBus.deliver makes' other target trans' delay) := by
  have command : trans'.command = trans.command := by
    cases sent
    rfl
  have symbolic : trans'.isSymbolic = trans.isSymbolic := by
    obtain ⟨attached, -, -⟩ := sent
    exact isSymbolic_of_attached attached
  have told : Follows other
      (fun _ _ => target ≠ .memory → trans.command = .write → trans.isSymbolic = false)
      (Exec.when (target ≠ .memory ∧ trans.command = .write)
        (Exec.emit (.concretized .peripheralData trans.isSymbolic)) : MemM P Unit)
      (Exec.when (target ≠ .memory ∧ trans'.command = .write)
        (Exec.emit (.concretized .peripheralData trans'.isSymbolic))) := by
    rw [command, symbolic]
    refine Sim.ite Iff.rfl (fun _ => ?_) fun skipped => Sim.pure fun apart writes => ?_
    · exact Sim.mono (fun _ _ accepted _ _ => accepted.plain) (Sim.emit _)
    · exact absurd ⟨apart, writes⟩ skipped
  refine Sim.bind told fun _ _ plain => ?_
  cases target with
  | memory => exact follows_symbolicMemory lawful sent sendable delay
  | ctrl => exact follows_symbolicCtrl sent (data_eq sent sendable (plain nofun)) delay marks
  | sensor =>
      exact follows_symbolicSensor sent (data_eq sent sendable (plain nofun)) delay lawful input
  | uart => exact absurd rfl mute
  | external device =>
      exact follows_externalTransport sent (data_eq sent sendable (plain nofun)) delay device

end Devices

section Bus

variable (lawful : P.clover.Lawful) (walkless : P.mmuMem = false)
  (mute : ∀ port ∈ P.ports, port.target ≠ .uart) (core : Core)
  (input : P.clover.terms.Assignment)

include lawful walkless mute

/-- By induction on how deeply devices call back. -/
theorem follows_nested (depth : Nat) :
    Socket.Follows other (SimpleBus.nested core input depth : Socket P)
      (SimpleBus.nested core other depth) := by
  induction depth with
  | zero => exact fun _ _ _ _ _ => Sim.throw _
  | succ depth inductionHypothesis =>
      intro trans trans' delay sent sendable
      have marks := follows_makeSymbolic inductionHypothesis walkless core input
      unfold SimpleBus.nested SimpleBus.transport
      obtain ⟨attached, length, plain⟩ := sent
      dsimp only
      split
      · exact Sim.pure ⟨.intro attached length plain, rfl⟩
      · next port found =>
          have talks := mute port (List.mem_of_find?_eq_some found)
          refine follows_deliver lawful marks input talks ?_ ?_ delay
          · exact .intro attached length plain
          · exact sendable

theorem follows_bus : Socket.Follows other (bus core input : Socket P) (bus core other) :=
  follows_nested lawful walkless mute core input P.depth

end Bus

end SymexVP
