import SymexVP.InstructionRefinement

/-!
# Accesses refine the manual

Loads, stores and atomic memory operations compute an address from a register, check its
alignment and go through the memory interface. An aligned access does not leave the
address space, so that its bytes are those the manual names; an access that leaves the
memory traps. With the instructions that leave the memory alone this covers every word
the manual describes, except for `EBREAK`.
-/

namespace SymexVP

/-- A store changes the bytes of memory alone. -/
theorem Spec.stored_pc (kind : StoreKind) (s : State) (address value pc : BitVec 32) :
    ({ stored kind s address value with pc := pc } : State) =
      { s with pc := pc, mem := (stored kind s address value).mem } := by
  cases kind <;> rfl

/-- The address of the data an instruction loads or stores. -/
def Spec.address (s : State) : Instr → Option (BitVec 32)
  | .load _ _ rs1 imm | .store _ rs1 _ imm => some (s.read rs1 + imm)
  | .amo _ _ rs1 _ => some (s.read rs1)
  | _ => none

namespace Iss

open Exec Opcode MemoryInterface

variable {P : Platform} {port : Port} {length : BitVec 32} {s : Spec.State} {word : Instruction}
  {middle : State P} (input : P.clover.terms.Assignment)

/-! ## Alignment -/

/-- The check raises a trap, or lets an address with the alignment pass. -/
def Aligns (check : ConcolicValue P.clover.terms 32 → IssM P Unit) (alignment : Nat) : Prop :=
  ∀ (addr : ConcolicValue P.clover.terms 32) (state : State P),
    Settles Fault.IsTrap (fun _ after => after = state ∧ addr.concrete.toNat % alignment = 0)
      (check addr) state

theorem aligns_unchecked : Aligns (unchecked : _ → IssM P Unit) 1 :=
  fun _ _ => Settles.pure ⟨rfl, Nat.mod_one _⟩

theorem aligns_trapCheckAddrAlignment (alignment : Nat) (isLoad : Bool) :
    Aligns (trapCheckAddrAlignment alignment isLoad : _ → IssM P Unit) alignment := by
  intro addr state
  refine Settles.bind (Settles.bind (Settles.emit (Settles.pure ?_)))
  refine Settles.when (fun _ => ?_) fun aligned => ⟨rfl, not_not.mp aligned⟩
  exact Settles.throw ⟨_, rfl⟩

/-- An aligned access ends inside the address space. -/
theorem whole_of_aligned {address : BitVec 32} {numBytes : Nat} (divides : numBytes ∣ 2 ^ 32)
    (aligned : address.toNat % numBytes = 0) : address.toNat + numBytes ≤ 2 ^ 32 := by
  obtain ⟨places, equal⟩ := divides
  obtain ⟨place, equal'⟩ := Nat.dvd_of_mod_eq_zero aligned
  have below := address.isLt
  rw [equal, equal'] at below ⊢
  have before : place < places := Nat.lt_of_mul_lt_mul_left below
  calc numBytes * place + numBytes = numBytes * (place + 1) := (Nat.mul_succ ..).symm
    _ ≤ numBytes * places := Nat.mul_le_mul_left _ before

section Accesses

variable (entered : Entered port length s word middle) (lawful : P.clover.Lawful)

include entered lawful

/-! ## Loads and stores -/

theorem loadAddress : (P.clover.binary .add middle.hart.rs1Value middle.hart.iImm).concrete =
    s.read (Spec.rs1 word) + Spec.immI word := by
  rw [(lawful.binary .add 32).concrete _ _ trivial, entered.rs1, entered.iImm lawful]
  rfl

theorem storeAddress : (P.clover.binary .add middle.hart.rs1Value middle.hart.sImm).concrete =
    s.read (Spec.rs1 word) + Spec.immS word := by
  rw [(lawful.binary .add 32).concrete _ _ trivial, entered.rs1, entered.sImm lawful]
  rfl

/-- What the memory holds at an address is what the manual loads from there. -/
theorem load_eq_loaded (kind : Spec.LoadKind) {address : BitVec 32} (holds : port.Holds P address)
    (aligned : address.toNat % kind.size = 0) :
    Spec.loaded kind s address =
      if kind.signed then
        (P.clover.load middle.board.memory (port.offset address) kind.size).concrete.signExtend 32
      else
        (P.clover.load middle.board.memory (port.offset address)
          kind.size).concrete.setWidth 32 := by
  have divides : kind.size ∣ 2 ^ 32 := by cases kind <;> decide
  refine Spec.loaded_eq s address kind fun index inside => ?_
  rw [byteOf_load lawful _ holds (whole_of_aligned divides aligned) inside, entered.mem]

omit lawful in
/-- An access leaves the registers alone. -/
theorem attains_access (board : Board P) {mem : BitVec 32 → BitVec 8}
    (shows : port.bytes board.memory = mem) :
    Attains port middle { s with pc := s.pc + length, mem := mem } { middle with board := board } :=
  ⟨fun register _ => entered.regs register, entered.pc, shows, rfl⟩

theorem load_refines (kind : Spec.LoadKind) (signed : kind.signed = true)
    {check : ConcolicValue P.clover.terms 32 → IssM P Unit} (aligns : Aligns check kind.size)
    (holds : port.Holds P (s.read (Spec.rs1 word) + Spec.immI word)) :
    Refines port middle
      { s.write (Spec.rd word) (Spec.loaded kind s (s.read (Spec.rs1 word) + Spec.immI word)) with
        pc := s.pc + length }
      (load input check kind.size) := by
  have address := loadAddress entered lawful
  refine Settles.bind (Settles.bind (Settles.get (Settles.pure (Settles.bind ?_))))
  refine (aligns _ middle).mono ?_ fun _ => id
  rintro _ after ⟨same, aligned⟩
  rw [same]
  rw [← address] at holds ⊢
  refine Settles.bind (memory_settles (Settles.bind ?_))
  refine (symbolicLoadData_memory input entered.deep holds entered.bare entered.available _).mono ?_
    fun _ => id
  rintro _ _ ⟨rfl, rfl⟩
  refine Settles.pure (Settles.modify ?_)
  rw [Spec.State.write_pc, load_eq_loaded entered lawful kind holds aligned, if_pos signed,
    ← (lawful.sext (8 * kind.size) 32).concrete, ← entered.rd]
  let reached : Board P := { middle.board with localTime := middle.board.localTime + 10 }
  exact (attains_access entered reached entered.mem).write middle.hart.rd _

theorem loadUnsigned_refines (kind : Spec.LoadKind) (unsigned : kind.signed = false)
    {check : ConcolicValue P.clover.terms 32 → IssM P Unit} (aligns : Aligns check kind.size)
    (holds : port.Holds P (s.read (Spec.rs1 word) + Spec.immI word)) :
    Refines port middle
      { s.write (Spec.rd word) (Spec.loaded kind s (s.read (Spec.rs1 word) + Spec.immI word)) with
        pc := s.pc + length }
      (loadUnsigned input check kind.size) := by
  have address := loadAddress entered lawful
  have narrow : 8 * kind.size < 32 := by
    cases kind <;> first | decide | cases unsigned
  refine Settles.bind (Settles.bind (Settles.get (Settles.pure (Settles.bind ?_))))
  refine (aligns _ middle).mono ?_ fun _ => id
  rintro _ after ⟨same, aligned⟩
  rw [same]
  rw [← address] at holds ⊢
  refine Settles.bind (memory_settles (Settles.bind ?_))
  refine (symbolicLoadData_memory input entered.deep holds entered.bare entered.available _).mono ?_
    fun _ => id
  rintro _ _ ⟨rfl, rfl⟩
  rw [if_pos narrow]
  refine Settles.pure (Settles.modify ?_)
  rw [Spec.State.write_pc, load_eq_loaded entered lawful kind holds aligned,
    if_neg (Bool.eq_false_iff.mp unsigned), ← (lawful.zext (8 * kind.size) 32).concrete,
    ← entered.rd]
  let reached : Board P := { middle.board with localTime := middle.board.localTime + 10 }
  exact (attains_access entered reached entered.mem).write middle.hart.rd _

/-- Storing the low bytes of a register is the manual's store. -/
theorem bytes_stored (kind : Spec.StoreKind) {address : BitVec 32} (holds : port.Holds P address)
    (aligned : address.toNat % kind.size = 0) (value : ConcolicValue P.clover.terms 32) :
    port.bytes (P.clover.store middle.board.memory (port.offset address) value kind.size) =
      (Spec.stored kind s address value.concrete).mem := by
  have divides : kind.size ∣ 2 ^ 32 := by cases kind <;> decide
  have fits : 8 * kind.size ≤ 32 := by cases kind <;> decide
  funext other
  rw [bytes_store lawful _ holds (whole_of_aligned divides aligned) _ fits, Spec.stored_mem,
    entered.mem]

theorem store_refines (kind : Spec.StoreKind)
    {check : ConcolicValue P.clover.terms 32 → IssM P Unit} (aligns : Aligns check kind.size)
    (holds : port.Holds P (s.read (Spec.rs1 word) + Spec.immS word)) :
    Refines port middle
      { Spec.stored kind s (s.read (Spec.rs1 word) + Spec.immS word) (s.read (Spec.rs2 word)) with
        pc := s.pc + length }
      (store input check kind.size) := by
  have address := storeAddress entered lawful
  refine Settles.bind (Settles.bind (Settles.get (Settles.pure (Settles.bind ?_))))
  refine (aligns _ middle).mono ?_ fun _ => id
  rintro _ after ⟨same, aligned⟩
  rw [same]
  rw [← address] at holds ⊢
  refine memory_settles ?_
  refine (symbolicStoreData_memory input entered.deep holds entered.bare entered.available _ _).mono
    ?_ fun _ => id
  rintro _ _ rfl
  have shows := bytes_stored entered lawful kind holds aligned middle.hart.rs2Value
  rw [entered.rs2] at shows
  rw [Spec.stored_pc]
  exact attains_access entered _ shows

/-! ## Atomic memory operations -/

/-- The old word is read under the bus lock. -/
theorem atomicLoadWord_settles_memory (holds : port.Holds P middle.hart.rs1Value.concrete)
    (aligned : middle.hart.rs1Value.concrete.toNat % 4 = 0) :
    Settles Fault.IsTrap
      (fun data after => data.concrete = s.loadWord middle.hart.rs1Value.concrete ∧
        after = { middle with board := { middle.board with
          lock := some middle.hart.core.hartId
          localTime := middle.board.localTime + 10 } })
      (memory fun core => atomicLoadWord (bus core input) core middle.hart.rs1Value) middle := by
  refine memory_settles (Settles.bind (Settles.bind ?_))
  refine Settles.of_run (waitForAccessRights_run entered.available) ?_
  refine Settles.modify (Settles.bind ?_)
  refine (symbolicLoadData_memory input entered.deep holds entered.bare (.inr rfl) 4).mono ?_
    fun _ => id
  rintro _ _ ⟨rfl, rfl⟩
  refine Settles.pure ⟨?_, rfl⟩
  rw [(lawful.sext 32 32).concrete]
  exact (load_eq_loaded entered lawful .lw holds aligned).symm

/-- The new word is written by the hart that holds the lock, and only then `rd`. -/
theorem executeAmo_refines (kind : Spec.AmoKind) (operation : ConcolicValue P.clover.terms 32 →
      ConcolicValue P.clover.terms 32 → ConcolicValue P.clover.terms 32)
    (computes : ∀ data, (operation data middle.hart.rs2Value).concrete =
      Spec.amoResult kind data.concrete middle.hart.rs2Value.concrete)
    (holds : port.Holds P (s.read (Spec.rs1 word))) :
    Refines port middle
      { (s.storeWord (s.read (Spec.rs1 word))
          (Spec.amoResult kind (s.loadWord (s.read (Spec.rs1 word)))
            (s.read (Spec.rs2 word)))).write (Spec.rd word)
              (s.loadWord (s.read (Spec.rs1 word))) with
        pc := s.pc + length }
      (executeAmo input operation) := by
  rw [← entered.rs1] at holds
  rw [← entered.rs1, ← entered.rs2, ← entered.rd]
  refine Settles.bind ((requireIsa_refines middle).mono ?_ fun _ => id)
  intro _ after same
  rw [same]
  refine Settles.bind (Settles.bind (Settles.get (Settles.pure (Settles.bind ?_))))
  refine (aligns_trapCheckAddrAlignment 4 false _ middle).mono ?_ fun _ => id
  rintro _ after ⟨same, aligned⟩
  rw [same]
  refine Settles.bind (Settles.tryCatch
    ((atomicLoadWord_settles_memory input entered lawful holds aligned).mono ?_ fun _ => id) ?_)
  · rintro data _ ⟨old, rfl⟩
    have shows := bytes_stored entered lawful .sw holds aligned
      (operation data middle.hart.rs2Value)
    rw [computes] at shows
    rw [← old]
    refine Settles.bind (memory_settles (Settles.bind (Settles.get (Settles.bind ?_))))
    refine Settles.require (fun _ => ?_) fun free => ?_
    · refine (symbolicStoreData_memory input entered.deep holds entered.bare (.inr rfl) _ _).mono ?_
        fun _ => id
      rintro _ _ rfl
      refine Settles.modify ?_
      let stored : Board P := { middle.board with
        memory := P.clover.store middle.board.memory (port.offset middle.hart.rs1Value.concrete)
          (operation data middle.hart.rs2Value) 4
        localTime := middle.board.localTime + 10 + 10
        lock := none }
      have reached := attains_access entered stored shows
      rw [Spec.State.write_pc]
      exact reached.write middle.hart.rd data
    · exact absurd (by rw [Board.isLockedBy, beq_self_eq_true]) free
  · -- a load access fault is reported as one of a store
    intro fault isTrap _
    obtain ⟨raised, rfl⟩ := isTrap
    split
    · exact Settles.throw ⟨_, rfl⟩
    · exact Settles.throw ⟨_, rfl⟩

omit entered in
/-- The minima and maxima choose the operand the comparison does not rule out. -/
theorem chooseByComparison_concrete (operation : CompareOp) (whenTrue whenFalse : Bool)
    (a b : ConcolicValue P.clover.terms 32) :
    (chooseByComparison operation whenTrue whenFalse a b).concrete =
      if operation.apply a.concrete b.concrete = 1#1 then (if whenTrue then a else b).concrete
      else (if whenFalse then a else b).concrete := by
  rw [chooseByComparison, (lawful.select 32).concrete, (lawful.compare _ 32).concrete _ _ trivial]

theorem amo_refines (kind : Spec.AmoKind) (holds : port.Holds P (s.read (Spec.rs1 word))) :
    Refines port middle
      { (s.storeWord (s.read (Spec.rs1 word))
          (Spec.amoResult kind (s.loadWord (s.read (Spec.rs1 word)))
            (s.read (Spec.rs2 word)))).write (Spec.rd word)
              (s.loadWord (s.read (Spec.rs1 word))) with
        pc := s.pc + length }
      (execute input (Instruction.mnemonic (.amo kind 0 0 0))) := by
  have computes : ∀ (operation : BinaryOp) (data : ConcolicValue P.clover.terms 32),
      operation.Defined data.concrete middle.hart.rs2Value.concrete →
      (P.clover.binary operation data middle.hart.rs2Value).concrete =
        operation.apply data.concrete middle.hart.rs2Value.concrete := fun operation data =>
    (lawful.binary operation 32).concrete data _
  have chooses := fun operation whenTrue whenFalse (data : ConcolicValue P.clover.terms 32) =>
    chooseByComparison_concrete lawful operation whenTrue whenFalse data middle.hart.rs2Value
  cases kind with
  | swap => exact executeAmo_refines input entered lawful .swap (fun _ b => b) (fun _ => rfl) holds
  | add =>
      exact executeAmo_refines input entered lawful .add (fun a b => P.clover.binary .add a b)
        (fun data => computes .add data trivial) holds
  | xor =>
      exact executeAmo_refines input entered lawful .xor (fun a b => P.clover.binary .bxor a b)
        (fun data => computes .bxor data trivial) holds
  | and =>
      exact executeAmo_refines input entered lawful .and (fun a b => P.clover.binary .band a b)
        (fun data => computes .band data trivial) holds
  | or =>
      exact executeAmo_refines input entered lawful .or (fun a b => P.clover.binary .bor a b)
        (fun data => computes .bor data trivial) holds
  | min =>
      exact executeAmo_refines input entered lawful .min (chooseByComparison .sge false true)
        (fun data => (chooses .sge false true data).trans (Spec.amoResult_min _ _)) holds
  | max =>
      exact executeAmo_refines input entered lawful .max (chooseByComparison .sge true false)
        (fun data => (chooses .sge true false data).trans (Spec.amoResult_max _ _)) holds
  | minu =>
      exact executeAmo_refines input entered lawful .minu (chooseByComparison .uge false true)
        (fun data => (chooses .uge false true data).trans (Spec.amoResult_minu _ _)) holds
  | maxu =>
      exact executeAmo_refines input entered lawful .maxu (chooseByComparison .uge true false)
        (fun data => (chooses .uge true false data).trans (Spec.amoResult_maxu _ _)) holds

/-! ## Every instruction -/

theorem execute_refines {i : Spec.Instr} (encodes : Spec.Encodes word i) (returns : i ≠ .ebreak)
    (holds : ∀ address ∈ Spec.address s i, port.Holds P address) :
    ∃ t, Spec.execute length s i = some t ∧
      Refines port middle t (execute input (Instruction.mnemonic i)) := by
  cases encodes with
  | lui => exact ⟨_, rfl, compute_refines entered entered.uImm⟩
  | auipc =>
      refine ⟨_, rfl, compute_refines entered ?_⟩
      rw [(lawful.binary .add 32).concrete _ _ trivial, entered.uImm, ConcolicValue.BVC_concrete,
        entered.lastPc]
      rfl
  | jal => exact ⟨_, rfl, jal_refines entered⟩
  | jalr => exact ⟨_, rfl, jalr_refines entered⟩
  | @branch kind =>
      refine ⟨_, rfl, ?_⟩
      cases kind <;> exact branch_refines entered lawful _
  | @load kind =>
      have inside := holds _ rfl
      refine ⟨_, rfl, ?_⟩
      cases kind with
      | lb => exact load_refines input entered lawful .lb rfl aligns_unchecked inside
      | lh =>
          exact load_refines input entered lawful .lh rfl
            (aligns_trapCheckAddrAlignment 2 true) inside
      | lw =>
          exact load_refines input entered lawful .lw rfl
            (aligns_trapCheckAddrAlignment 4 true) inside
      | lbu => exact loadUnsigned_refines input entered lawful .lbu rfl aligns_unchecked inside
      | lhu =>
          exact loadUnsigned_refines input entered lawful .lhu rfl
            (aligns_trapCheckAddrAlignment 2 true) inside
  | @store kind =>
      have inside := holds _ rfl
      refine ⟨_, rfl, ?_⟩
      cases kind with
      | sb => exact store_refines input entered lawful .sb aligns_unchecked inside
      | sh =>
          exact store_refines input entered lawful .sh
            (aligns_trapCheckAddrAlignment 2 false) inside
      | sw =>
          exact store_refines input entered lawful .sw
            (aligns_trapCheckAddrAlignment 4 false) inside
  | @opImm kind =>
      refine ⟨_, rfl, ?_⟩
      cases kind <;> exact immediate_refines entered input lawful _
  | @shift kind major minor =>
      have short := Spec.getLsbD_of_shiftKind minor
      refine ⟨_, rfl, ?_⟩
      cases kind <;> exact shift_refines entered input lawful _ short
  | @op kind =>
      refine ⟨_, rfl, ?_⟩
      cases kind <;> exact op_refines entered input lawful _
  | @amo kind =>
      refine ⟨_, rfl, ?_⟩
      cases kind <;> exact amo_refines input entered lawful _ (holds _ rfl)
  | ebreak => exact absurd rfl returns

end Accesses

end Iss

end SymexVP
