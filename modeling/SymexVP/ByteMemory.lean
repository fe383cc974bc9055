import SymexVP.AccessOutcomes
import SymexVP.PageTables
import SymexVP.Specification

/-!
# The byte memory of the manual

The manual's memory is a map from the hart's addresses to bytes; the simulator's is a
concolic memory behind a bus port. This module says which byte of the one belongs to an
address of the other, and that the loads and stores of the memory interface are the
little-endian accesses of the manual: a load puts the bytes together, a store replaces
exactly those of its width. An access that leaves the memory traps.
-/

namespace SymexVP

namespace Spec

open Clover (byteOf)

def LoadKind.size : LoadKind → Nat
  | .lb | .lbu => 1
  | .lh | .lhu => 2
  | .lw => 4

def StoreKind.size : StoreKind → Nat
  | .sb => 1
  | .sh => 2
  | .sw => 4

variable (s : State) (address : BitVec 32)

/-- The bytes of a half word read in memory order. -/
theorem byteOf_append {width : Nat} (high : BitVec width) (low : BitVec 8) (index : Nat) :
    byteOf index (high ++ low) = if index = 0 then low else byteOf (index - 1) high := by
  apply BitVec.eq_of_getLsbD_eq
  intro bit inside
  rw [byteOf, BitVec.getLsbD_extractLsb', BitVec.getLsbD_append]
  cases index with
  | zero => simp [inside]
  | succ index =>
      simp only [inside, decide_true, Bool.true_and, Nat.add_one_ne_zero, if_false,
        Nat.add_sub_cancel, byteOf, BitVec.getLsbD_extractLsb',
        show ¬8 * (index + 1) + bit < 8 by omega,
        show 8 * (index + 1) + bit - 8 = 8 * index + bit by omega]

theorem byteOf_loadHalf {index : Nat} (inside : index < 2) :
    byteOf index (s.loadHalf address) = s.mem (address + BitVec.ofNat 32 index) := by
  rw [State.loadHalf, byteOf_append]
  interval_cases index
  · rw [if_pos rfl]
    exact congrArg s.mem (BitVec.add_zero address).symm
  · exact Clover.Reference.byteOf_zero _

theorem byteOf_loadWord {index : Nat} (inside : index < 4) :
    byteOf index (s.loadWord address) = s.mem (address + BitVec.ofNat 32 index) := by
  rw [State.loadWord, byteOf_append, byteOf_append, byteOf_append]
  interval_cases index
  · rw [if_pos rfl]
    exact congrArg s.mem (BitVec.add_zero address).symm
  · rfl
  · rfl
  · exact Clover.Reference.byteOf_zero _

def LoadKind.signed : LoadKind → Bool
  | .lb | .lh | .lw => true
  | .lbu | .lhu => false

/-- A load extends the word its bytes make up. -/
theorem loaded_eq (kind : LoadKind) {word : BitVec (8 * kind.size)}
    (bytes : ∀ index < kind.size, byteOf index word = s.mem (address + BitVec.ofNat 32 index)) :
    loaded kind s address = if kind.signed then word.signExtend 32 else word.setWidth 32 := by
  have single : ∀ byte : BitVec (8 * 1), byteOf 0 byte = s.mem (address + BitVec.ofNat 32 0) →
      s.mem address = byte := by
    intro byte same
    rw [show address + BitVec.ofNat 32 0 = address from BitVec.add_zero address] at same
    exact same.symm.trans (Clover.Reference.byteOf_zero byte)
  have half : ∀ half : BitVec (8 * 2), (∀ index < 2, byteOf index half =
      s.mem (address + BitVec.ofNat 32 index)) → s.loadHalf address = half := fun half same =>
    Clover.eq_of_byteOf_eq fun index inside =>
      (byteOf_loadHalf s address inside).trans (same index inside).symm
  have whole : ∀ word : BitVec (8 * 4), (∀ index < 4, byteOf index word =
      s.mem (address + BitVec.ofNat 32 index)) → s.loadWord address = word := fun word same =>
    Clover.eq_of_byteOf_eq fun index inside =>
      (byteOf_loadWord s address inside).trans (same index inside).symm
  cases kind with
  | lb => exact congrArg (BitVec.signExtend 32) (single word (bytes 0 (by decide)))
  | lbu => exact congrArg (BitVec.setWidth 32) (single word (bytes 0 (by decide)))
  | lh => exact congrArg (BitVec.signExtend 32) (half word bytes)
  | lhu => exact congrArg (BitVec.setWidth 32) (half word bytes)
  | lw => exact (whole word bytes).trans (BitVec.signExtend_eq word).symm

/-- A store replaces the bytes from its address on by the low bytes of the value. -/
theorem stored_mem (kind : StoreKind) (value other : BitVec 32) :
    (stored kind s address value).mem other =
      if (other - address).toNat < kind.size then byteOf (other - address).toNat value
      else s.mem other := by
  obtain ⟨distance, rfl⟩ : ∃ distance, other = address + distance := ⟨other - address, by grind⟩
  rw [show address + distance - address = distance by grind]
  by_cases near : distance.toNat < 4
  · have small : distance = BitVec.ofNat 32 distance.toNat := by simp
    generalize distance.toNat = number at near small
    subst small
    interval_cases number <;> cases kind <;>
      simp [stored, State.storeByte, State.storeHalf, State.storeWord, StoreKind.size,
        byteOf]
  · have apart : ∀ index : Nat, index < 4 →
        address + distance ≠ address + BitVec.ofNat 32 index := by
      intro index inside same
      have equal : distance = BitVec.ofNat 32 index := by grind
      rw [equal, BitVec.toNat_ofNat] at near
      omega
    have first : address + distance ≠ address := by
      have zero := apart 0 (by decide)
      rwa [show address + BitVec.ofNat 32 0 = address from BitVec.add_zero address] at zero
    have second := apart 1 (by decide)
    have third := apart 2 (by decide)
    have fourth := apart 3 (by decide)
    have beyond : ¬distance.toNat < kind.size := by
      cases kind <;> simp only [StoreKind.size] <;> omega
    rw [if_neg beyond]
    cases kind <;>
      simp [stored, State.storeByte, State.storeHalf, State.storeWord, first, second, third, fourth]

end Spec

open Exec Board MemoryInterface Clover

variable {P : Platform} {port : Port} {address : BitVec 32} {numBytes : Nat}

/-! ## Bytes behind a port -/

/-- Where an address lies behind a port. -/
def Port.offset (port : Port) (address : BitVec 32) : Nat :=
  (address.setWidth 64 - port.start).toNat

/-- The bytes of a memory behind a port, at the addresses the hart uses. -/
def Port.bytes (port : Port) (memory : P.clover.Memory) (address : BitVec 32) : BitVec 8 :=
  (P.clover.byte memory (port.offset address)).concrete

/-- The address leads to the memory, and belongs to this port. -/
structure Port.Holds (P : Platform) (port : Port) (address : BitVec 32) : Prop where
  decoded : SimpleBus.decode P (address.setWidth 64) = some port
  target : port.target = .memory

theorem toNat_wide (address : BitVec 32) : (address.setWidth 64).toNat = address.toNat :=
  BitVec.toNat_setWidth_of_le (by decide)

namespace Port.Holds

variable (holds : port.Holds P address)

include holds

theorem start_le : port.start.toNat ≤ address.toNat := by
  have found := List.find?_some holds.decoded
  rw [SimpleBus.contains, Bool.and_eq_true, decide_eq_true_iff] at found
  exact (BitVec.le_def.mp found.1).trans (toNat_wide address).le

theorem offset_eq : port.offset address = address.toNat - port.start.toNat := by
  have start := holds.start_le
  have below := address.isLt
  rw [Port.offset, BitVec.toNat_sub, toNat_wide]
  omega

/-- The bytes of an access lie next to each other. -/
theorem offset_add {index : Nat} (whole : address.toNat + index < 2 ^ 32) :
    port.offset (address + BitVec.ofNat 32 index) = port.offset address + index := by
  have start := holds.start_le
  have sum : (address + BitVec.ofNat 32 index).toNat = address.toNat + index := by
    rw [BitVec.toNat_add, BitVec.toNat_ofNat]
    omega
  rw [holds.offset_eq, Port.offset, BitVec.toNat_sub, toNat_wide, sum]
  omega

/-- Every other address lies outside of the access. -/
theorem offset_outside {other : BitVec 32}
    (apart : numBytes ≤ (other - address).toNat) :
    port.offset other < port.offset address ∨
      port.offset address + numBytes ≤ port.offset other := by
  have start := holds.start_le
  have below := other.isLt
  have low := address.isLt
  rw [BitVec.toNat_sub] at apart
  rw [holds.offset_eq, Port.offset, BitVec.toNat_sub, toNat_wide]
  omega

end Port.Holds

/-- The value a load finds consists of the bytes from its address on. -/
theorem byteOf_load (lawful : P.clover.Lawful) (memory : P.clover.Memory)
    (holds : port.Holds P address) (whole : address.toNat + numBytes ≤ 2 ^ 32) {index : Nat}
    (inside : index < numBytes) :
    byteOf index (P.clover.load memory (port.offset address) numBytes).concrete =
      port.bytes memory (address + BitVec.ofNat 32 index) := by
  rw [lawful.load_concrete _ _ _ _ inside, Port.bytes, holds.offset_add (by omega)]

/-- A store replaces the bytes from its address on. -/
theorem bytes_store (lawful : P.clover.Lawful) (memory : P.clover.Memory)
    (holds : port.Holds P address) (whole : address.toNat + numBytes ≤ 2 ^ 32)
    (value : ConcolicValue P.clover.terms 32) (fits : 8 * numBytes ≤ 32) (other : BitVec 32) :
    port.bytes (P.clover.store memory (port.offset address) value numBytes) other =
      if (other - address).toNat < numBytes then byteOf (other - address).toNat value.concrete
      else port.bytes memory other := by
  by_cases inside : (other - address).toNat < numBytes
  · have place : port.offset other = port.offset address + (other - address).toNat := by
      have sum : other = address + BitVec.ofNat 32 (other - address).toNat := by
        rw [BitVec.ofNat_toNat, BitVec.setWidth_eq]
        grind
      calc port.offset other
          = port.offset (address + BitVec.ofNat 32 (other - address).toNat) := by rw [← sum]
        _ = port.offset address + (other - address).toNat := holds.offset_add (by omega)
    rw [if_pos inside, Port.bytes, place]
    exact lawful.store_inside _ _ _ _ _ _ fits inside
  · rw [if_neg inside, Port.bytes, Port.bytes,
      lawful.store_outside _ _ _ _ _ _ (holds.offset_outside (not_lt.mp inside))]

/-! ## Accesses -/

/-- The hart has no translation unit, or its accesses are not translated. -/
def Untranslating (P : Platform) (core : Core) (type : MemoryAccessType) : Prop :=
  P.hasMmu = true → Mmu.Bare core type

/-- The instruction traps. -/
def Fault.IsTrap (fault : Fault) : Prop := ∃ raised, fault = .trap raised

section Accesses

variable {core : Core} (input : P.clover.terms.Assignment) {board : Board P}
  {addr : ConcolicValue P.clover.terms 32} (deep : 0 < P.depth)
  (holds : port.Holds P addr.concrete) (bare : Untranslating P core .store)
  (available : board.Available core.hartId)

/-- Without translation the address is that of the bus. -/
theorem v2p_bare {isock : Socket P} {type : MemoryAccessType} (bare : Untranslating P core type)
    (va : BitVec 64) : v2p isock core va type = pure va := by
  unfold v2p Mmu.translateVirtualToPhysicalAddr
  split
  · next present => exact if_pos (bare present)
  · rfl

include deep holds bare available

omit bare available in
/-- A transaction with the memory traps, or does what its command says. -/
theorem transaction_settles {trans : Payload P.clover.terms} (fresh : trans.response = .ok)
    (leads : trans.address = addr.concrete.setWidth 64) :
    Settles Fault.IsTrap
      (fun answer after => match trans.command with
        | .read =>
            answer = SymbolicMemory.readData board
              { trans with address := trans.address - port.start } ∧
            after = { board with localTime := board.localTime + 10 }
        | .write =>
            after = { SymbolicMemory.writeData board
              { trans with address := trans.address - port.start } with
                localTime := board.localTime + 10 })
      (doTransaction (bus core input) trans) board := by
  unfold Settles
  rw [doTransaction_run core input board deep (leads ▸ holds.decoded) holds.target fresh]
  split_ifs with outside
  · cases trans.command <;> exact ⟨_, rfl⟩
  · cases trans.command
    · exact ⟨rfl, rfl⟩
    · rfl

/-- A load that does not trap returns what the memory holds, with its symbolic part. -/
theorem symbolicLoadData_memory (numBytes : Nat) :
    Settles Fault.IsTrap
      (fun data after =>
        data = ⟨_, P.clover.load board.memory (port.offset addr.concrete) numBytes⟩ ∧
          after = { board with localTime := board.localTime + 10 })
      (symbolicLoadData (bus core input) core addr numBytes) board := by
  refine Settles.bind ?_
  refine Settles.of_run (waitForAccessRights_run available) ?_
  refine Settles.bind (Settles.bind (Settles.emit (Settles.pure ?_)))
  rw [v2p_bare bare]
  refine Settles.bind (Settles.pure (Settles.bind ?_))
  refine (transaction_settles input deep holds rfl rfl).mono ?_ fun _ => id
  rintro answer _ ⟨rfl, rfl⟩
  refine Settles.pure ⟨?_, rfl⟩
  exact congrArg (fun size => (⟨_, P.clover.load board.memory (port.offset addr.concrete) size⟩ :
    Concolic P.clover.terms)) List.length_replicate

/-- A store that does not trap replaces bytes of the memory, and gives up the lock. -/
theorem symbolicStoreData_memory (data : Concolic P.clover.terms) (numBytes : Nat) :
    Settles Fault.IsTrap
      (fun _ after => after = { board with
        memory := P.clover.store board.memory (port.offset addr.concrete) data.value numBytes
        localTime := board.localTime + 10
        lock := none })
      (symbolicStoreData (bus core input) core addr data numBytes) board := by
  refine Settles.bind ?_
  refine Settles.of_run (waitForAccessRights_run available) ?_
  refine Settles.bind (Settles.bind (Settles.emit (Settles.pure ?_)))
  rw [v2p_bare bare]
  refine Settles.bind (Settles.pure (Settles.bind (Settles.bind ?_)))
  refine (transaction_settles input deep holds rfl rfl).mono ?_ fun _ => id
  rintro answer _ rfl
  refine Settles.pure (Settles.of_run (unlock_run ?_) ?_)
  · exact available
  · refine congrArg (fun size => ({ board with
      memory := P.clover.store board.memory (port.offset addr.concrete) data.value size
      localTime := board.localTime + 10
      lock := none } : Board P)) ?_
    exact data.length_toBytes numBytes

end Accesses

end SymexVP
