import SymexVP.Dispatch

/-!
# How a memory access can fail

The trap an access raises says too little about what went wrong: a page that is not
mapped and a transaction the bus refuses are reported by the same few causes, and the
address of a refused transaction has passed through the translation unit and the bus.
Here the failures are told apart, for every access and down to the page walks and the
callbacks of the control device, without looking at what is reported. A trap is then
exactly the report of a failure.
-/

namespace SymexVP

open Exec Board MemoryInterface

variable {P : Platform}

/-- What goes wrong at an access. -/
inductive AccessFault
  /-- The address fails the alignment check of an instruction. -/
  | misaligned (isLoad : Bool) (addr : BitVec 32)
  /-- A page walk finds no page that permits the access. -/
  | unmapped (type : MemoryAccessType) (vaddr : BitVec 64)
  /-- A transaction with a physical address is answered with an error. -/
  | refused (command : Command) (paddr : BitVec 64)

/-- The address a target sees: the bus subtracts the start of the port. -/
def SimpleBus.localAddress (P : Platform) (address : BitVec 64) : BitVec 64 :=
  match SimpleBus.decode P address with
  | some port => address - port.start
  | none => address

/-- The trap that reports a failure. -/
def AccessFault.trap (P : Platform) : AccessFault → SimulationTrap
  | .misaligned true addr => ⟨.loadAddrMisaligned, addr.toNat⟩
  | .misaligned false addr => ⟨.storeAmoAddrMisaligned, addr.toNat⟩
  | .unmapped .fetch vaddr => ⟨.instrPageFault, vaddr.toNat⟩
  | .unmapped .load vaddr => ⟨.loadPageFault, vaddr.toNat⟩
  | .unmapped .store vaddr => ⟨.storeAmoPageFault, vaddr.toNat⟩
  | .refused .read paddr => ⟨.loadPageFault, (SimpleBus.localAddress P paddr).toNat⟩
  | .refused .write paddr => ⟨.storeAmoPageFault, (SimpleBus.localAddress P paddr).toNat⟩

/-- A fault that the step handles. -/
def IsTrap (fault : Fault) : Prop := ∃ raised, fault = .trap raised

/-- A computation whose traps are the reports of these failures. -/
abbrev FailsAs {σ ω α : Type} (P : Platform) (body : Exec Fault σ ω α) (state : σ)
    (fails : AccessFault → Prop) : Prop :=
  Blames (fun fault => .trap (AccessFault.trap P fault)) IsTrap body state fails

theorem failsAs_throw {σ ω α : Type} (fault : AccessFault) (state : σ) :
    FailsAs P (Exec.throw (.trap (fault.trap P)) : Exec Fault σ ω α) state (· = fault) :=
  Blames.throw fault

theorem failsAs_throw_bind {σ ω α β : Type} (fault : AccessFault) (next : α → Exec Fault σ ω β)
    (state : σ) :
    FailsAs P (Exec.throw (.trap (fault.trap P)) >>= next) state (· = fault) :=
  Blames.throw_bind fault next

/-- The computation never traps. -/
abbrev Calm {σ ω α : Type} (body : Exec Fault σ ω α) : Prop :=
  Meets (fun _ => True) (fun _ => True) (fun fault => ¬IsTrap fault) body

namespace Board

theorem calm_waitFor (wait : P.world.State → Option (P.world.State × List Signal)) :
    Calm (waitFor wait : MemM P Unit) := by
  refine Meets.bind Meets.get fun board _ => ?_
  split
  · exact Meets.modify fun _ _ => trivial
  · exact Meets.throw nofun

theorem calm_waitForAccessRights (hart : BitVec 32) :
    Calm (waitForAccessRights hart : MemM P Unit) := by
  refine Meets.bind Meets.get fun board _ => Meets.when fun _ => ?_
  exact Meets.bind (calm_waitFor _) fun _ _ => Meets.modify fun _ _ => trivial

theorem calm_takeLock (hart : BitVec 32) : Calm (takeLock hart : MemM P Unit) :=
  Meets.bind (calm_waitForAccessRights hart) fun _ _ => Meets.modify fun _ _ => trivial

theorem calm_unlock (hart : BitVec 32) : Calm (unlock hart : MemM P Unit) :=
  Meets.modify fun _ _ => trivial

end Board

/-! ## Transactions

What fails inside a transaction, in a call back of the target, is a parameter here. -/

/-- How a transaction can fail before it is answered. -/
abbrev Inside (P : Platform) := Payload P.clover.terms → Nat → Board P → AccessFault → Prop

/-- A socket that answers with the payload it was given, at the local address, and traps only
as described. -/
structure Socket.Routes (isock : Socket P) (inside : Inside P) : Prop where
  fails : ∀ trans delay board, FailsAs P (isock trans delay) board (inside trans delay board)
  answers : ∀ trans delay board answer,
    ((isock trans delay).run board).result = .ok answer →
      answer.1.command = trans.command ∧
        answer.1.address = SimpleBus.localAddress P trans.address

/-- The socket answers a transaction, in time, with an error. -/
def Refused (isock : Socket P) (trans : Payload P.clover.terms) (board : Board P) : Prop :=
  ∃ answer delay, ((isock trans board.localTime).run board).result = .ok (answer, delay) ∧
    ((isock trans board.localTime).run board).state.localTime ≤ delay ∧
    answer.response = .addressError

section Interface

variable (isock : Socket P) (inside : Inside P) (core : Core)

def TransactionFails (trans : Payload P.clover.terms) (board : Board P) (fault : AccessFault) :
    Prop :=
  inside trans board.localTime board fault ∨
    Refused isock trans board ∧ fault = .refused trans.command trans.address

/-- `concrete_load_data` fails. -/
def LoadDataFails (address : BitVec 64) (numBytes : Nat) : Board P → AccessFault → Prop :=
  After (waitForAccessRights core.hartId) fun _ =>
    TransactionFails isock inside ⟨.read, address, List.replicate numBytes 0, .ok, none⟩

/-- `concrete_store_data` fails. -/
def StoreDataFails (address : BitVec 64) (bytes : List (BitVec 8)) :
    Board P → AccessFault → Prop :=
  After (waitForAccessRights core.hartId) fun _ =>
    TransactionFails isock inside ⟨.write, address, bytes, .ok, none⟩

/-- A walk fails: it is left without a page, or an entry cannot be read or updated. -/
def WalkFails (vm : Mmu.VmInfo) (vaddr : BitVec 64) (type : MemoryAccessType)
    (mode : PrivilegeLevel) : Nat → BitVec 64 → Board P → AccessFault → Prop
  | 0, _, _, fault => fault = .unmapped type vaddr
  | level + 1, base, board, fault =>
      let ptshift := level * vm.idxbits
      let vpnField := (vaddr >>> (12 + ptshift)) &&& ((1#64 <<< vm.idxbits) - 1)
      let ptePaddr := base + vpnField * vm.ptesize
      P.mmuMem = true ∧
        (LoadDataFails isock inside core ptePaddr 4 board fault ∨
          After (mmuLoadPte32 isock core ptePaddr) (fun pte board fault =>
            let ppn := pte >>> 10
            let mask := (1#64 <<< ptshift) - 1
            let ad := Mmu.accessFlags type
            if !Mmu.pteV pte || (!Mmu.pteR pte && Mmu.pteW pte) then fault = .unmapped type vaddr
            else if !Mmu.pteR pte && !Mmu.pteX pte then
              WalkFails vm vaddr type mode level (ppn <<< 12) board fault
            else if !Mmu.leafPermits core type mode pte then fault = .unmapped type vaddr
            else if ppn &&& mask != 0 then fault = .unmapped type vaddr
            else if pte &&& ad != ad && P.pageFaultOnAD then fault = .unmapped type vaddr
            else pte &&& ad ≠ ad ∧
              StoreDataFails isock inside core ptePaddr
                ((List.range 4).map fun index => Clover.byteOf index (pte ||| ad)) board fault)
            board fault)

/-- A translation fails: it needs a walk, and the walk fails. -/
def TranslationFails (vaddr : BitVec 64) (type : MemoryAccessType) (board : Board P)
    (fault : AccessFault) : Prop :=
  let mode := Mmu.effectiveMode core type
  let vpn := vaddr >>> 12
  P.hasMmu = true ∧ Satp.mode.get core.satp = 1 ∧ (mode = userMode ∨ mode = supervisorMode) ∧
    (board.tlb mode type (vpn.toNat % 256)).vpn ≠ vpn ∧
    WalkFails isock inside core ⟨2, 10, 4, (Satp.ppn.get core.satp).setWidth 64 <<< 12⟩ vaddr type
      mode 2 ((Satp.ppn.get core.satp).setWidth 64 <<< 12)
      { board with localTime := board.localTime + 30 } fault

/-- `load_instr` fails. -/
def FetchFails (pc : BitVec 32) (board : Board P) (fault : AccessFault) : Prop :=
  TranslationFails isock inside core (pc.setWidth 64) .fetch board fault ∨
    After (v2p isock core (pc.setWidth 64) .fetch)
      (fun paddr => LoadDataFails isock inside core paddr 4) board fault

/-- `symbolic_store_data` fails. -/
def StoreFails (addr : BitVec 32) (data : Concolic P.clover.terms) (numBytes : Nat) :
    Board P → AccessFault → Prop :=
  After (waitForAccessRights core.hartId) fun _ board fault =>
    TranslationFails isock inside core (addr.setWidth 64) .store board fault ∨
      After (v2p isock core (addr.setWidth 64) .store)
        (fun paddr => TransactionFails isock inside
          ⟨.write, paddr, data.toBytes numBytes, .ok, some data⟩) board fault

/-- `symbolic_load_data` fails. -/
def LoadFails (addr : BitVec 32) (numBytes : Nat) : Board P → AccessFault → Prop :=
  After (waitForAccessRights core.hartId) fun _ board fault =>
    TranslationFails isock inside core (addr.setWidth 64) .store board fault ∨
      After (v2p isock core (addr.setWidth 64) .store)
        (fun paddr => TransactionFails isock inside
          ⟨.read, paddr, List.replicate numBytes 0, .ok, none⟩) board fault

end Interface

section Reports

variable {isock : Socket P} {inside : Inside P} (routes : isock.Routes inside) (core : Core)

include routes

theorem doTransaction_failsAs (trans : Payload P.clover.terms) (board : Board P) :
    FailsAs P (doTransaction isock trans) board (TransactionFails isock inside trans board) := by
  let later (answer : Payload P.clover.terms × Nat) (after : Board P) (fault : AccessFault) : Prop :=
    after.localTime ≤ answer.2 ∧ answer.1.response = .addressError ∧
      fault = .refused trans.command trans.address
  have parts : FailsAs P (doTransaction isock trans) board fun fault =>
      inside trans board.localTime board fault ∨
        After (isock trans board.localTime) later board fault := by
    refine Blames.get_bind (Blames.bind (routes.fails _ _ _) fun ⟨answer, delay⟩ answered => ?_)
    obtain ⟨command, address⟩ := routes.answers _ _ _ _ answered
    refine Blames.get_bind (Blames.require_bind nofun fun _ => Blames.modify_bind ?_)
    dsimp only at command address ⊢
    rw [command, address]
    cases answer.response with
    | ok => exact Blames.mono (fun _ => (false_iff _).mpr fun both => nomatch both.1) (Blames.pure _)
    | addressError =>
        cases trans.command with
        | read =>
            refine Blames.mono (fun _ => (and_iff_right rfl).symm) ?_
            exact failsAs_throw (.refused .read trans.address) _
        | write =>
            refine Blames.mono (fun _ => (and_iff_right rfl).symm) ?_
            exact failsAs_throw (.refused .write trans.address) _
  refine parts.mono fun fault => or_congr_right ?_
  constructor
  · rintro ⟨⟨answer, delay⟩, answered, early, refused, same⟩
    exact ⟨⟨answer, delay, answered, early, refused⟩, same⟩
  · rintro ⟨⟨answer, delay, answered, early, refused⟩, same⟩
    exact ⟨⟨answer, delay⟩, answered, early, refused, same⟩

theorem concreteLoadData_failsAs (use : Use) (address : BitVec 64) (numBytes : Nat)
    (board : Board P) :
    FailsAs P (concreteLoadData isock core use address numBytes) board
      (LoadDataFails isock inside core address numBytes board) := by
  refine Blames.calm_bind (calm_waitForAccessRights _) fun _ _ => ?_
  refine Blames.bind_calm (doTransaction_failsAs routes _ _) fun trans => ?_
  exact Meets.bind (Meets.emit _) fun _ _ => Meets.pure trivial

theorem concreteStoreData_failsAs (address : BitVec 64) (bytes : List (BitVec 8))
    (board : Board P) :
    FailsAs P (concreteStoreData isock core address bytes) board
      (StoreDataFails isock inside core address bytes board) := by
  refine Blames.calm_bind (calm_waitForAccessRights _) fun _ _ => ?_
  exact Blames.bind_calm (doTransaction_failsAs routes _ _) fun _ => calm_unlock _

theorem mmuLoadPte32_failsAs (address : BitVec 64) (board : Board P) :
    FailsAs P (mmuLoadPte32 isock core address) board
      (LoadDataFails isock inside core address 4 board) :=
  Blames.bind_calm (concreteLoadData_failsAs routes core _ _ _ _) fun _ => Meets.pure trivial

omit routes in
/-- A walk that is left without a page is reported by the type of the access. -/
theorem unmapped_failsAs (vaddr : BitVec 64) (type : MemoryAccessType) (board : Board P) :
    FailsAs P (match type with
      | .fetch => raiseTrap .instrPageFault vaddr.toNat
      | .load => raiseTrap .loadPageFault vaddr.toNat
      | .store => raiseTrap .storeAmoPageFault vaddr.toNat : MemM P (BitVec 64)) board
      (· = .unmapped type vaddr) := by
  cases type with
  | fetch => exact failsAs_throw (.unmapped .fetch vaddr) board
  | load => exact failsAs_throw (.unmapped .load vaddr) board
  | store => exact failsAs_throw (.unmapped .store vaddr) board

/-- The induction is on the levels left to walk, with the end of `walk` behind them. -/
theorem walkLevels_failsAs (vm : Mmu.VmInfo) (vaddr : BitVec 64) (type : MemoryAccessType)
    (mode : PrivilegeLevel) (levels : Nat) (base : BitVec 64) (board : Board P) :
    FailsAs P (do
        match ← Mmu.walkLevels isock core vm vaddr type mode levels base with
        | some paddr => pure paddr
        | none =>
            match type with
            | .fetch => raiseTrap .instrPageFault vaddr.toNat
            | .load => raiseTrap .loadPageFault vaddr.toNat
            | .store => raiseTrap .storeAmoPageFault vaddr.toNat) board
      (WalkFails isock inside core vm vaddr type mode levels base board) := by
  induction levels generalizing base board with
  | zero => exact Blames.pure_bind (unmapped_failsAs vaddr type board)
  | succ level inductionHypothesis =>
      refine Blames.assoc (Blames.require_bind nofun fun _ => ?_)
      refine Blames.assoc (Blames.bind (mmuLoadPte32_failsAs routes core _ _) fun pte _ => ?_)
      have stop := unmapped_failsAs vaddr type (P := P)
      refine Blames.ite_bind (fun _ => Blames.pure_bind (stop _)) fun _ => ?_
      refine Blames.ite_bind (fun _ => inductionHypothesis _ _) fun _ => ?_
      refine Blames.ite_bind (fun _ => Blames.pure_bind (stop _)) fun _ => ?_
      refine Blames.ite_bind (fun _ => Blames.pure_bind (stop _)) fun _ => ?_
      refine Blames.ite_bind (fun _ => Blames.pure_bind (stop _)) fun _ => Blames.assoc ?_
      refine Blames.bind_calm (Blames.when fun _ => ?_) fun _ => Meets.pure trivial
      exact concreteStoreData_failsAs routes core _ _ _

omit routes in
/-- With two levels of ten bits and pages of twelve every address is within reach. -/
theorem checkVaddrExtension_eq_true (vaddr ptbase : BitVec 64) :
    Mmu.checkVaddrExtension vaddr ⟨2, 10, 4, ptbase⟩ = true := by
  have bit : ∀ bits : BitVec 64, bits &&& 1 = 0 ∨ bits &&& 1 = 1 := by
    intro bits
    have low := Nat.and_one_is_mod bits.toNat
    have one : (1 : BitVec 64).toNat = 1 := rfl
    have zero : (0 : BitVec 64).toNat = 0 := rfl
    rw [BitVec.toNat_eq, BitVec.toNat_eq, BitVec.toNat_and, one, zero]
    omega
  simp only [Mmu.checkVaddrExtension, Bool.or_eq_true, beq_iff_eq]
  exact bit (vaddr >>> 31)

theorem walk_failsAs (vaddr : BitVec 64) (type : MemoryAccessType) (mode : PrivilegeLevel)
    (board : Board P) :
    FailsAs P (Mmu.walk isock core vaddr type mode) board fun fault =>
      mode ≤ supervisorMode ∧ Satp.mode.get core.satp = 1 ∧
        WalkFails isock inside core ⟨2, 10, 4, (Satp.ppn.get core.satp).setWidth 64 <<< 12⟩ vaddr
          type mode 2 ((Satp.ppn.get core.satp).setWidth 64 <<< 12) board fault := by
  refine Blames.assoc (Blames.require_bind nofun fun _ => ?_)
  by_cases selected : Satp.mode.get core.satp = 1
  · rw [if_pos selected]
    refine Blames.mono (fun _ => (and_iff_right selected).symm) (Blames.pure_bind ?_)
    rw [checkVaddrExtension_eq_true, if_pos rfl]
    exact walkLevels_failsAs routes core _ vaddr type mode 2 _ board
  · rw [if_neg selected]
    refine Blames.mono (fun _ => (false_iff _).mpr fun both => selected both.1) (Blames.nothing ?_)
    intro state _
    exact ⟨trivial, fun _ _ => trivial, by rintro _ ⟨⟩ ⟨_, ⟨⟩⟩⟩

theorem v2p_failsAs (vaddr : BitVec 64) (type : MemoryAccessType) (board : Board P) :
    FailsAs P (v2p isock core vaddr type) board
      (TranslationFails isock inside core vaddr type board) := by
  by_cases present : P.hasMmu = true
  swap
  · rw [v2p, if_neg present]
    exact Blames.mono (fun _ => (false_iff _).mpr fun both => present both.1) (Blames.pure _)
  rw [v2p, if_pos present, Mmu.translateVirtualToPhysicalAddr]
  by_cases bare : Satp.mode.get core.satp = 0 ∨ Mmu.effectiveMode core type = machineMode
  · rw [if_pos bare]
    refine Blames.mono (fun fault => (false_iff _).mpr ?_) (Blames.pure _)
    rintro ⟨-, paged, level, -⟩
    obtain off | machine := bare
    · rw [off] at paged
      cases paged
    · rw [machine] at level
      revert level
      decide
  rw [if_neg bare]
  refine Blames.modify_bind (Blames.mono (fun fault => ?_) (Blames.require_bind nofun fun valid =>
    Blames.get_bind (Blames.ite (fun _ => Blames.pure _) fun _ =>
      Blames.bind_calm (walk_failsAs routes core _ _ _ _) fun _ => ?_)))
  · constructor
    · rintro ⟨level, missed⟩
      split at missed
      · exact missed.elim
      · next other => exact ⟨present, missed.2.1, level, other, missed.2.2⟩
    · rintro ⟨-, paged, level, other, walked⟩
      refine ⟨level, ?_⟩
      rw [if_neg other]
      refine ⟨?_, paged, walked⟩
      obtain user | supervisor := level
      · rw [user]
        decide
      · rw [supervisor]
        decide
  · exact Meets.bind (Meets.modify fun _ _ => trivial) fun _ _ => Meets.pure trivial

theorem loadInstr_failsAs (pc : BitVec 32) (board : Board P) :
    FailsAs P (loadInstr isock core pc) board (FetchFails isock inside core pc board) := by
  refine Blames.bind (v2p_failsAs routes core _ _ _) fun paddr _ => ?_
  exact Blames.bind_calm (concreteLoadData_failsAs routes core _ _ _ _) fun _ => Meets.pure trivial

theorem symbolicStoreData_failsAs (addr : ConcolicValue P.clover.terms 32)
    (data : Concolic P.clover.terms) (numBytes : Nat) (board : Board P) :
    FailsAs P (symbolicStoreData isock core addr data numBytes) board
      (StoreFails isock inside core addr.concrete data numBytes board) := by
  refine Blames.calm_bind (calm_waitForAccessRights _) fun _ _ => ?_
  refine Blames.assoc (Blames.emit_bind (Blames.pure_bind ?_))
  refine Blames.bind (v2p_failsAs routes core _ _ _) fun paddr _ => ?_
  refine Blames.bind_calm (Blames.bind_calm (doTransaction_failsAs routes _ _) fun _ => ?_)
    fun _ => calm_unlock _
  exact Meets.pure trivial

theorem symbolicLoadData_failsAs (addr : ConcolicValue P.clover.terms 32) (numBytes : Nat)
    (board : Board P) :
    FailsAs P (symbolicLoadData isock core addr numBytes) board
      (LoadFails isock inside core addr.concrete numBytes board) := by
  refine Blames.calm_bind (calm_waitForAccessRights _) fun _ _ => ?_
  refine Blames.assoc (Blames.emit_bind (Blames.pure_bind ?_))
  refine Blames.bind (v2p_failsAs routes core _ _ _) fun paddr _ => ?_
  refine Blames.bind_calm (doTransaction_failsAs routes _ _) fun trans => ?_
  split <;> exact Meets.pure trivial

theorem loadSigned_failsAs (addr : ConcolicValue P.clover.terms 32) (numBytes : Nat)
    (board : Board P) :
    FailsAs P (MemoryInterface.loadSigned isock core addr numBytes) board
      (LoadFails isock inside core addr.concrete numBytes board) :=
  Blames.bind_calm (symbolicLoadData_failsAs routes core _ _ _) fun _ => Meets.pure trivial

theorem loadUnsigned_failsAs (addr : ConcolicValue P.clover.terms 32) (numBytes : Nat)
    (board : Board P) :
    FailsAs P (MemoryInterface.loadUnsigned isock core addr numBytes) board
      (LoadFails isock inside core addr.concrete numBytes board) :=
  Blames.bind_calm (symbolicLoadData_failsAs routes core _ _ _) fun _ =>
    Meets.ite (fun _ => Meets.pure trivial) fun _ => Meets.pure trivial

theorem atomicLoadWord_failsAs (addr : ConcolicValue P.clover.terms 32) (board : Board P) :
    FailsAs P (atomicLoadWord isock core addr) board
      (After (takeLock core.hartId)
        (fun _ => LoadFails isock inside core addr.concrete 4) board) :=
  Blames.calm_bind (calm_takeLock _) fun _ _ => loadSigned_failsAs routes core _ _ _

theorem atomicStoreWord_failsAs (addr value : ConcolicValue P.clover.terms 32) (board : Board P) :
    FailsAs P (atomicStoreWord isock core addr value) board fun fault =>
      board.isLockedBy core.hartId = true ∧
        StoreFails isock inside core addr.concrete ⟨32, value⟩ 4 board fault :=
  Blames.get_bind (Blames.require_bind nofun fun _ =>
    symbolicStoreData_failsAs routes core _ _ _ _)

theorem atomicLoadReservedWord_failsAs (object : Nat) (addr : ConcolicValue P.clover.terms 32)
    (board : Board P) :
    FailsAs P (atomicLoadReservedWord isock core object addr) board
      (After (takeLock core.hartId) (fun _ board =>
        LoadFails isock inside core addr.concrete 4 { board with lrAddr := some object }) board) :=
  Blames.calm_bind (calm_takeLock _) fun _ _ =>
    Blames.modify_bind (loadSigned_failsAs routes core _ _ _)

theorem atomicStoreConditionalWord_failsAs (object : Nat)
    (addr value : ConcolicValue P.clover.terms 32) (board : Board P) :
    FailsAs P (atomicStoreConditionalWord isock core object addr value) board fun fault =>
      board.isLockedBy core.hartId = true ∧ board.lrAddr = some object ∧
        StoreFails isock inside core addr.concrete ⟨32, value⟩ 4 board fault := by
  refine Blames.get_bind (Blames.mono (fun fault => ?_) (Blames.ite (fun _ => Blames.ite (fun _ =>
    Blames.bind_calm (symbolicStoreData_failsAs routes core _ _ _ _) fun _ => Meets.pure trivial)
    fun _ => Blames.nothing ?_) fun _ => Blames.pure _))
  · split_ifs <;> tauto
  · exact Meets.bind (calm_unlock _) fun _ _ => Meets.pure trivial

end Reports

/-! ## The bus -/

/-- A transaction with the control device fails: it writes the size register, and the call back
that marks the memory range symbolic fails. -/
def CtrlFails (fails : BitVec 32 → BitVec 32 → Board P → AccessFault → Prop)
    (trans : Payload P.clover.terms) (board : Board P) (fault : AccessFault) : Prop :=
  let address := trans.address.toNat
  let size := writeBytes board.ctrl.size (address - 4) trans.data
  trans.command = .write ∧ SymbolicCtrl.route address = some .size ∧
    address - 4 + trans.data.length ≤ 4 ∧
    fails board.ctrl.addr size { board with ctrl := { board.ctrl with size := size } } fault

/-- How a transaction fails inside the bus, with callbacks nested at most `depth` deep. -/
def CallbackFails (core : Core) (input : P.clover.terms.Assignment) : (depth : Nat) → Inside P
  | 0 => fun _ _ _ _ => False
  | depth + 1 => fun trans _ board fault =>
      ∃ port, SimpleBus.decode P trans.address = some port ∧ port.target = .ctrl ∧
        CtrlFails (fun addr size =>
            StoreFails (SimpleBus.nested core input depth) (CallbackFails core input depth) core addr
              ⟨8 * size.toNat,
                P.clover.getSymbolicBytes input (Injection.memory addr).name size.toNat⟩
              size.toNat)
          { trans with address := trans.address - port.start } board fault

/-- The answer is the payload itself, as far as it decides what is reported. -/
def Echoes (trans : Payload P.clover.terms) (answer : Payload P.clover.terms × Nat) : Prop :=
  answer.1.command = trans.command ∧ answer.1.address = trans.address

/-- A device that echoes the payload and never traps. -/
abbrev Echoing (trans : Payload P.clover.terms) (body : MemM P (Payload P.clover.terms × Nat)) :
    Prop :=
  Meets (fun _ => True) (Echoes trans) (fun fault => ¬IsTrap fault) body

theorem calm_modify (change : Board P → Board P) : Calm (Exec.modify change : MemM P Unit) :=
  Meets.modify fun _ _ => trivial

theorem calm_get : Calm (Exec.get : MemM P (Board P)) := Meets.get

theorem echoing_symbolicMemory (trans : Payload P.clover.terms) (delay : Nat) :
    Echoing trans (SymbolicMemory.transport trans delay : MemM P _) := by
  obtain ⟨command, address, data, response, extension⟩ := trans
  refine Meets.bind calm_get fun board _ => Meets.ite (fun _ => Meets.pure ⟨rfl, rfl⟩) fun _ => ?_
  cases command with
  | read => exact Meets.pure ⟨rfl, rfl⟩
  | write => exact Meets.bind (calm_modify _) fun _ _ => Meets.pure ⟨rfl, rfl⟩

theorem echoing_symbolicSensor (input : P.clover.terms.Assignment)
    (trans : Payload P.clover.terms) (delay : Nat) :
    Echoing trans (SymbolicSensor.transport input trans delay) := by
  obtain ⟨command, address, data, response, extension⟩ := trans
  refine Meets.bind calm_get fun board _ => Meets.ite (fun _ => Meets.pure ⟨rfl, rfl⟩) fun _ => ?_
  cases command with
  | read =>
      refine Meets.ite (fun _ => Meets.pure ⟨rfl, rfl⟩) fun _ => ?_
      refine Meets.bind (Meets.emit _) fun _ _ => ?_
      exact Meets.bind (calm_modify _) fun _ _ => Meets.pure ⟨rfl, rfl⟩
  | write =>
      dsimp only
      split
      · exact Meets.pure ⟨rfl, rfl⟩
      · exact Meets.bind (calm_modify _) fun _ _ => Meets.pure ⟨rfl, rfl⟩

theorem echoing_symbolicUart (trans : Payload P.clover.terms) (delay : Nat) :
    Echoing trans (SymbolicUart.transport trans delay : MemM P _) := by
  obtain ⟨command, address, data, response, extension⟩ := trans
  unfold SymbolicUart.transport
  dsimp only
  split
  · exact Meets.throw nofun
  · refine Meets.bind (Meets.require nofun) fun _ _ => Meets.bind calm_get fun board _ => ?_
    cases command with
    | read =>
        refine Meets.bind (calm_modify _) fun _ _ => ?_
        exact Meets.bind (calm_modify _) fun _ _ => Meets.pure ⟨rfl, rfl⟩
    | write =>
        refine Meets.bind (calm_modify _) fun _ _ => ?_
        exact Meets.bind (calm_modify _) fun _ _ => Meets.pure ⟨rfl, rfl⟩

theorem echoing_externalTransport (device : Nat) (trans : Payload P.clover.terms) (delay : Nat) :
    Echoing trans (externalTransport device trans delay : MemM P _) := by
  refine Meets.bind calm_get fun board _ => ?_
  split
  · exact Meets.throw nofun
  · exact Meets.bind (calm_modify _) fun _ _ => Meets.pure ⟨rfl, rfl⟩

theorem calm_writeCtrl : Calm (SymbolicCtrl.writeCtrl : MemM P Unit) := by
  refine Meets.bind calm_get fun board _ => Meets.bind (Meets.when fun _ => ?_) fun _ _ => ?_
  · exact Meets.bind (Meets.emit _) fun _ _ => calm_modify _
  · exact Meets.bind (Meets.when fun _ => calm_modify _) fun _ _ => calm_modify _

theorem echoes_symbolicCtrl {makeSymbolic : BitVec 32 → BitVec 32 → MemM P Unit}
    (trans : Payload P.clover.terms) (delay : Nat) :
    Meets (fun _ => True) (Echoes trans) (fun _ => True)
      (SymbolicCtrl.transport makeSymbolic trans delay) := by
  have any : ∀ {α : Type} (body : MemM P α),
      Meets (fun _ => True) (fun _ => True) (fun _ => True) body :=
    fun _ _ _ => ⟨trivial, fun _ _ => trivial, fun _ _ => trivial⟩
  obtain ⟨command, address, data, response, extension⟩ := trans
  unfold SymbolicCtrl.transport
  split
  · exact Meets.throw trivial
  · refine Meets.bind (Meets.require trivial) fun _ _ => ?_
    cases command with
    | read => exact Meets.bind (any _) fun _ _ => Meets.pure ⟨rfl, rfl⟩
    | write =>
        refine Meets.bind (any _) fun _ _ => Meets.bind (any _) fun _ _ => ?_
        exact Meets.pure ⟨rfl, rfl⟩

/-- A transaction with the control device traps as its callback does. -/
theorem symbolicCtrl_failsAs {makeSymbolic : BitVec 32 → BitVec 32 → MemM P Unit}
    {fails : BitVec 32 → BitVec 32 → Board P → AccessFault → Prop}
    (callback : ∀ addr size board,
      FailsAs P (makeSymbolic addr size) board (fails addr size board))
    (trans : Payload P.clover.terms) (delay : Nat) (board : Board P) :
    FailsAs P (SymbolicCtrl.transport makeSymbolic trans delay) board
      (CtrlFails fails trans board) := by
  obtain ⟨command, address, data, response, extension⟩ := trans
  unfold SymbolicCtrl.transport CtrlFails
  dsimp only
  cases routed : SymbolicCtrl.route address.toNat with
  | none =>
      refine Blames.mono (fun _ => (false_iff _).mpr ?_) (Blames.nothing (Meets.throw nofun))
      rintro ⟨-, impossible, -⟩
      cases impossible
  | some register =>
      cases command with
      | read =>
          refine Blames.mono (fun fault => ?_) (Blames.require_bind nofun fun _ =>
            Blames.get_bind (Blames.pure _))
          simp
      | write =>
          cases register with
          | addr =>
              refine Blames.mono (fun fault => ?_) (Blames.require_bind nofun fun _ =>
                Blames.modify_bind (Blames.bind_calm (Blames.pure ()) fun _ => Meets.pure trivial))
              simp
          | ctrl =>
              refine Blames.mono (fun fault => ?_) (Blames.require_bind nofun fun _ =>
                Blames.modify_bind (Blames.bind_calm (Blames.nothing calm_writeCtrl) fun _ =>
                  Meets.pure trivial))
              simp
          | size =>
              refine Blames.mono (fun fault => ?_) (Blames.require_bind nofun fun _ =>
                Blames.modify_bind (Blames.bind_calm (Blames.get_bind (callback _ _ _)) fun _ =>
                  Meets.pure trivial))
              simp only [true_and]
              rfl

theorem deliver_failsAs {makeSymbolic : BitVec 32 → BitVec 32 → MemM P Unit}
    {fails : BitVec 32 → BitVec 32 → Board P → AccessFault → Prop}
    (callback : ∀ addr size board,
      FailsAs P (makeSymbolic addr size) board (fails addr size board))
    (input : P.clover.terms.Assignment) (target : Target) (trans : Payload P.clover.terms)
    (delay : Nat) (board : Board P) :
    FailsAs P (SimpleBus.deliver makeSymbolic input target trans delay) board fun fault =>
      target = .ctrl ∧ CtrlFails fails trans board fault := by
  have told : ∀ body : MemM P (Payload P.clover.terms × Nat), ∀ {fails : AccessFault → Prop},
      FailsAs P body board fails → FailsAs P (do
        Exec.when (target ≠ .memory ∧ trans.command = .write)
          (Exec.emit (.concretized .peripheralData trans.isSymbolic))
        body) board fails := by
    intro body fails blames
    unfold Exec.when
    split <;> exact blames
  have plain : target ≠ .ctrl → ∀ {body : MemM P (Payload P.clover.terms × Nat)},
      Echoing trans body → FailsAs P body board fun fault =>
        target = .ctrl ∧ CtrlFails fails trans board fault := by
    intro other body echoing
    refine Blames.mono (fun fault => (false_iff _).mpr fun both => other both.1) (Blames.nothing ?_)
    exact Meets.mono (fun _ _ => trivial) (fun _ calm => calm) echoing
  refine told _ ?_
  cases target with
  | ctrl =>
      refine Blames.mono (fun fault => ?_) (symbolicCtrl_failsAs callback trans delay board)
      simp only [true_and]
  | memory => exact plain (by decide) (echoing_symbolicMemory trans delay)
  | sensor => exact plain (by decide) (echoing_symbolicSensor input trans delay)
  | uart => exact plain (by decide) (echoing_symbolicUart trans delay)
  | external device => exact plain nofun (echoing_externalTransport device trans delay)

theorem echoes_deliver {makeSymbolic : BitVec 32 → BitVec 32 → MemM P Unit}
    (input : P.clover.terms.Assignment) (target : Target) (trans : Payload P.clover.terms)
    (delay : Nat) :
    Meets (fun _ => True) (Echoes trans) (fun _ => True)
      (SimpleBus.deliver makeSymbolic input target trans delay) := by
  have plain : ∀ body : MemM P (Payload P.clover.terms × Nat), Echoing trans body →
      Meets (fun _ => True) (Echoes trans) (fun _ => True) body :=
    fun _ echoing => Meets.mono (fun _ echo => echo) (fun _ _ => trivial) echoing
  refine Meets.bind (Meets.when fun _ => Meets.emit _) fun _ _ => ?_
  cases target with
  | ctrl => exact echoes_symbolicCtrl trans delay
  | memory => exact plain _ (echoing_symbolicMemory trans delay)
  | sensor => exact plain _ (echoing_symbolicSensor input trans delay)
  | uart => exact plain _ (echoing_symbolicUart trans delay)
  | external device => exact plain _ (echoing_externalTransport device trans delay)

/-- The bus routes as described, however deeply its callbacks nest. -/
theorem routes_nested (core : Core) (input : P.clover.terms.Assignment) (depth : Nat) :
    (SimpleBus.nested core input depth : Socket P).Routes (CallbackFails core input depth) := by
  induction depth with
  | zero =>
      refine ⟨fun trans delay board => Blames.nothing (Meets.throw nofun), ?_⟩
      rintro trans delay board answer ⟨⟩
  | succ depth inductionHypothesis =>
      have callback : ∀ addr size board, FailsAs P
          (makeSymbolic (SimpleBus.nested core input depth) core input addr size) board
          (StoreFails (SimpleBus.nested core input depth) (CallbackFails core input depth) core addr
            ⟨8 * size.toNat,
              P.clover.getSymbolicBytes input (Injection.memory addr).name size.toNat⟩
            size.toNat board) := fun addr size board =>
        Blames.emit_bind (symbolicStoreData_failsAs inductionHypothesis core _ _ _ _)
      constructor
      · intro trans delay board
        show FailsAs P (SimpleBus.transport _ input trans delay) board _
        unfold SimpleBus.transport
        cases found : SimpleBus.decode P trans.address with
        | none =>
            refine Blames.mono (fun fault => (false_iff _).mpr ?_) (Blames.pure _)
            rintro ⟨port, impossible, -⟩
            rw [found] at impossible
            cases impossible
        | some port =>
            refine Blames.mono (fun fault => ?_) (deliver_failsAs callback input port.target _ _ _)
            constructor
            · intro failed
              exact ⟨port, found, failed⟩
            · rintro ⟨other, same, failed⟩
              rw [found] at same
              cases same
              exact failed
      · intro trans delay board answer answered
        change ((SimpleBus.transport _ input trans delay).run board).result = _ at answered
        unfold SimpleBus.transport at answered
        cases found : SimpleBus.decode P trans.address with
        | none =>
            rw [found] at answered
            cases answered
            simp only [SimpleBus.localAddress, found, and_self]
        | some port =>
            simp only [found] at answered
            simp only [SimpleBus.localAddress, found]
            exact (echoes_deliver input port.target _ delay board trivial).2.1 answer answered

theorem routes_bus (core : Core) (input : P.clover.terms.Assignment) :
    (bus core input : Socket P).Routes (CallbackFails core input P.depth) :=
  routes_nested core input P.depth

namespace Iss

theorem memory_failsAs {α : Type} {body : Core → MemM P α} {state : State P}
    {fails : AccessFault → Prop} (blames : FailsAs P (body state.hart.core) state.board fails) :
    FailsAs P (memory body) state fails := blames

theorem calm_getHart : Calm (getHart : IssM P (Hart P.clover.terms)) :=
  Meets.bind Meets.get fun _ _ => Meets.pure trivial

theorem calm_modifyHart (change : Hart P.clover.terms → Hart P.clover.terms) :
    Calm (modifyHart change : IssM P Unit) := Meets.modify fun _ _ => trivial

end Iss

end SymexVP
