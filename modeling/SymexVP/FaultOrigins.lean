import SymexVP.Iss

/-!
# Where faults come from

A fault that leaves a step was thrown by one particular function. The memory
interface, the translation unit and the devices throw traps, failed assertions and
two kinds of runtime error, each with its own text; everything else is thrown by the
hart. Knowing the origin of a fault by its text is what tells an unimplemented
opcode from a device that was addressed wrongly.

A trap reports an address. It fits in 32 bits as long as no page is ever translated,
which is so on a platform whose translation unit has no access to page tables: a walk
fails on its first level, and the translation cache stays empty.
-/

namespace SymexVP

open Exec Board MemoryInterface

variable {P : Platform}

/-- A number that fits in 32 bits, on a platform without page walks. -/
def Fits (P : Platform) (number : Nat) : Prop := P.mmuMem = false → number < 2 ^ 32

theorem Fits.of_lt {number : Nat} (bounded : number < 2 ^ 32) : Fits P number := fun _ => bounded

theorem fits_setWidth (word : BitVec 32) : Fits P (word.setWidth 64).toNat := by
  refine Fits.of_lt ?_
  rw [BitVec.toNat_setWidth_of_le (by decide)]
  exact word.isLt

/-- The assertions in the memory interface, the translation unit and the devices. -/
def boardAssertions : List String :=
  ["mem", "mode == 0 || mode == 1", "prv <= SupervisorMode",
    "bus_lock->is_locked(iss.get_hart_id())", "local_delay >= quantum_keeper.get_local_time()",
    "local_addr + len <= mem.size()", "len + (addr % 4) <= 4"]

/-- What the memory interface and everything behind it can throw. -/
def Fault.FromBoard (P : Platform) : Fault → Prop
  | .runtimeError message => ∃ text : String,
      message = "unknown Sv (satp) mode " ++ text ∨
        message = "SymbolicCTRL unable to route address " ++ text ∨
        message = "access of unmapped address (local TLM router): " ++
          "name=SymbolicUART, addr=0x" ++ text
  | .badLexicalCast => False
  | .trap raised => Fits P raised.mtval
  | .assertion text => text ∈ boardAssertions
  | .blocked | .stackOverflow | .deviceError => True

/-- Texts with different first letters, or a different ninth letter, are different. -/
theorem Fault.FromBoard.ne_runtimeError {fault : Fault} (known : fault.FromBoard P)
    {text : String} (other : text.toList[0]? ≠ some 'S') (third : text.toList[0]? ≠ some 'a')
    (another : text.toList[8]? ≠ some 'S') : fault ≠ .runtimeError text := by
  rintro rfl
  obtain ⟨detail, rfl | rfl | rfl⟩ := known
  · exact another (by simp)
  · exact other (by simp)
  · exact third (by simp)

/-- The translation cache is empty on a platform without page walks. -/
def Untranslated (board : Board P) : Prop :=
  P.mmuMem = false → ∀ mode type index, (board.tlb mode type index).vpn = -1

/-- The contract of a function behind the memory interface. -/
abbrev BoardMeets {α : Type} (returns : α → Prop) (body : MemM P α) : Prop :=
  Meets Untranslated returns (Fault.FromBoard P) body

namespace Board

theorem meets_waitFor {faults : Fault → Prop} (known : faults .blocked)
    (wait : P.world.State → Option (P.world.State × List Signal)) :
    Meets Untranslated (fun _ => True) faults (waitFor wait : MemM P Unit) := by
  refine Meets.bind Meets.get fun board _ => ?_
  split
  · exact Meets.modify fun _ holds => holds
  · exact Meets.throw known

theorem meets_waitForAccessRights (hart : BitVec 32) :
    BoardMeets (fun _ => True) (waitForAccessRights hart : MemM P Unit) := by
  refine Meets.bind Meets.get fun board _ => Meets.when fun _ => ?_
  exact Meets.bind (meets_waitFor trivial _) fun _ _ => Meets.modify fun _ holds => holds

theorem meets_takeLock (hart : BitVec 32) :
    BoardMeets (fun _ => True) (takeLock hart : MemM P Unit) :=
  Meets.bind (meets_waitForAccessRights hart) fun _ _ => Meets.modify fun _ holds => holds

theorem meets_unlock {faults : Fault → Prop} (hart : BitVec 32) :
    Meets Untranslated (fun _ => True) faults (unlock hart : MemM P Unit) := by
  refine Meets.modify fun board holds => ?_
  split <;> exact holds

theorem meets_getValue {width : Nat} (use : Use) (value : ConcolicValue P.clover.terms width) :
    BoardMeets (fun _ => True) (getValue use value : MemM P (BitVec width)) :=
  Meets.bind (Meets.emit _) fun _ _ => Meets.pure trivial

end Board

/-- A socket that keeps addresses small, and whose faults are known. -/
def Socket.Known (isock : Socket P) : Prop :=
  ∀ trans delay, Fits P trans.address.toNat →
    BoardMeets (fun answer => Fits P answer.1.address.toNat) (isock trans delay)

/-- A page number has fewer bits than the mark of an empty entry. -/
theorem pageNumber_ne (vaddr : BitVec 64) : vaddr >>> 12 ≠ -1 := by
  intro same
  have top := congrArg (BitVec.getLsbD · 63) same
  simp at top

section Interface

variable {isock : Socket P} (known : isock.Known) (core : Core)

include known

theorem meets_doTransaction {trans : Payload P.clover.terms} (fits : Fits P trans.address.toNat) :
    BoardMeets (fun _ => True) (doTransaction isock trans) := by
  refine Meets.bind Meets.get fun before _ => ?_
  refine Meets.bind (known trans _ fits) fun ⟨answer, delay⟩ small => ?_
  refine Meets.bind Meets.get fun after _ => ?_
  refine Meets.bind (Meets.require (by simp [Fault.FromBoard, boardAssertions])) fun _ _ => ?_
  refine Meets.bind (Meets.modify fun _ holds => holds) fun _ _ => ?_
  split
  · exact Meets.pure trivial
  · exact Meets.throw small
  · exact Meets.throw small

theorem meets_writeTransaction {address : BitVec 64} (fits : Fits P address.toNat)
    (data : Concolic P.clover.terms) (numBytes : Nat) :
    BoardMeets (fun _ => True) (writeTransaction isock address data numBytes) :=
  Meets.bind (meets_doTransaction known fits) fun _ _ => Meets.pure trivial

theorem meets_readTransaction {address : BitVec 64} (fits : Fits P address.toNat)
    (numBytes : Nat) : BoardMeets (fun _ => True) (readTransaction isock address numBytes) := by
  refine Meets.bind (meets_doTransaction known fits) fun trans _ => ?_
  split <;> exact Meets.pure trivial

theorem meets_concreteLoadData (use : Use) {address : BitVec 64} (fits : Fits P address.toNat)
    (numBytes : Nat) :
    BoardMeets (fun _ => True) (concreteLoadData isock core use address numBytes) := by
  refine Meets.bind (meets_waitForAccessRights _) fun _ _ => ?_
  refine Meets.bind (meets_doTransaction known fits) fun trans _ => ?_
  exact Meets.bind (Meets.emit _) fun _ _ => Meets.pure trivial

theorem meets_mmuStorePte32 {address : BitVec 64} (fits : Fits P address.toNat)
    (value : BitVec 64) : BoardMeets (fun _ => True) (mmuStorePte32 isock core address value) := by
  refine Meets.bind (meets_waitForAccessRights _) fun _ _ => ?_
  exact Meets.bind (meets_doTransaction known fits) fun _ _ => meets_unlock _

/-- A walk that finds a page has access to page tables. -/
theorem meets_walkLevels (vm : Mmu.VmInfo) (vaddr : BitVec 64) (type : MemoryAccessType)
    (mode : PrivilegeLevel) (levels : Nat) (base : BitVec 64) :
    BoardMeets (fun found => found.isSome → P.mmuMem = true)
      (Mmu.walkLevels isock core vm vaddr type mode levels base) := by
  induction levels generalizing base with
  | zero => exact Meets.pure nofun
  | succ level inductionHypothesis =>
      refine Meets.bind (Meets.require (by simp [Fault.FromBoard, boardAssertions]))
        fun _ walks => ?_
      have fits : ∀ number, Fits P number := fun _ absent => absurd walks (by simp [absent])
      have loaded : ∀ address, BoardMeets (fun _ => True) (mmuLoadPte32 isock core address) :=
        fun address => Meets.bind (meets_concreteLoadData known core _ (fits _) _) fun _ _ =>
          Meets.pure trivial
      refine Meets.bind (loaded _) fun pte _ => ?_
      have stop : BoardMeets (fun found => found.isSome → P.mmuMem = true)
          (pure none : MemM P (Option (BitVec 64))) := Meets.pure nofun
      refine Meets.ite (fun _ => stop) fun _ => ?_
      refine Meets.ite (fun _ => inductionHypothesis _) fun _ => ?_
      refine Meets.ite (fun _ => stop) fun _ => Meets.ite (fun _ => stop) fun _ => ?_
      refine Meets.ite (fun _ => stop) fun _ => ?_
      refine Meets.bind (Meets.when fun _ => ?_) fun _ _ => Meets.pure fun _ => walks
      exact meets_mmuStorePte32 known core (fits _) _

theorem meets_walk {vaddr : BitVec 64} (fits : Fits P vaddr.toNat) (type : MemoryAccessType)
    (mode : PrivilegeLevel) :
    BoardMeets (fun _ => P.mmuMem = true) (Mmu.walk isock core vaddr type mode) := by
  have decoded : BoardMeets (fun _ => True) (Mmu.decodeVmInfo core mode : MemM P Mmu.VmInfo) := by
    refine Meets.bind (Meets.require (by simp [Fault.FromBoard, boardAssertions])) fun _ _ => ?_
    exact Meets.ite (fun _ => Meets.pure trivial) fun _ => Meets.throw ⟨_, .inl rfl⟩
  refine Meets.bind decoded fun vm _ => ?_
  refine Meets.bind (meets_walkLevels known core _ _ _ _ _ _) fun found walks => ?_
  cases found with
  | some paddr => exact Meets.pure (walks rfl)
  | none => cases type <;> exact Meets.throw fits

theorem meets_v2p {vaddr : BitVec 64} (fits : Fits P vaddr.toNat) (type : MemoryAccessType) :
    BoardMeets (fun paddr => Fits P paddr.toNat) (v2p isock core vaddr type) := by
  have plain : BoardMeets (fun paddr => Fits P paddr.toNat) (pure vaddr : MemM P (BitVec 64)) :=
    Meets.pure fits
  refine Meets.ite (fun _ => Meets.ite (fun _ => plain) fun _ => ?_) fun _ => plain
  refine Meets.bind (Meets.modify fun _ holds => holds) fun _ _ => ?_
  refine Meets.bind (Meets.require (by simp [Fault.FromBoard, boardAssertions])) fun _ _ => ?_
  refine Meets.bind Meets.get fun board empty => ?_
  refine Meets.ite (fun hit => Meets.pure fun absent => ?_) fun _ => ?_
  · exact absurd (hit.symm.trans (empty absent _ _ _)) (pageNumber_ne vaddr)
  · refine Meets.bind (meets_walk known core fits _ _) fun paddr walks => ?_
    refine Meets.bind (Meets.modify fun _ _ absent => ?_) fun _ _ => Meets.pure fun absent => ?_
    · exact absurd walks (by simp [absent])
    · exact absurd walks (by simp [absent])

theorem meets_loadInstr (pc : BitVec 32) :
    BoardMeets (fun _ => True) (loadInstr isock core pc) := by
  refine Meets.bind (meets_v2p known core (fits_setWidth pc) _) fun paddr fits => ?_
  exact Meets.bind (meets_concreteLoadData known core _ fits _) fun _ _ => Meets.pure trivial

theorem meets_symbolicStoreData (addr : ConcolicValue P.clover.terms 32)
    (data : Concolic P.clover.terms) (numBytes : Nat) :
    BoardMeets (fun _ => True) (symbolicStoreData isock core addr data numBytes) := by
  refine Meets.bind (meets_waitForAccessRights _) fun _ _ => ?_
  refine Meets.bind (meets_getValue _ _) fun caddr _ => ?_
  refine Meets.bind (meets_v2p known core (fits_setWidth caddr) _) fun paddr fits => ?_
  exact Meets.bind (meets_writeTransaction known fits _ _) fun _ _ => meets_unlock _

theorem meets_symbolicLoadData (addr : ConcolicValue P.clover.terms 32) (numBytes : Nat) :
    BoardMeets (fun _ => True) (symbolicLoadData isock core addr numBytes) := by
  refine Meets.bind (meets_waitForAccessRights _) fun _ _ => ?_
  refine Meets.bind (meets_getValue _ _) fun caddr _ => ?_
  refine Meets.bind (meets_v2p known core (fits_setWidth caddr) _) fun paddr fits => ?_
  exact meets_readTransaction known fits _

theorem meets_loadSigned (addr : ConcolicValue P.clover.terms 32) (numBytes : Nat) :
    BoardMeets (fun _ => True) (MemoryInterface.loadSigned isock core addr numBytes) :=
  Meets.bind (meets_symbolicLoadData known core _ _) fun _ _ => Meets.pure trivial

theorem meets_loadUnsigned (addr : ConcolicValue P.clover.terms 32) (numBytes : Nat) :
    BoardMeets (fun _ => True) (MemoryInterface.loadUnsigned isock core addr numBytes) :=
  Meets.bind (meets_symbolicLoadData known core _ _) fun _ _ =>
    Meets.ite (fun _ => Meets.pure trivial) fun _ => Meets.pure trivial

theorem meets_storeBytes (addr value : ConcolicValue P.clover.terms 32) (numBytes : Nat) :
    BoardMeets (fun _ => True) (storeBytes isock core addr value numBytes) :=
  meets_symbolicStoreData known core addr _ numBytes

theorem meets_atomicLoadWord (addr : ConcolicValue P.clover.terms 32) :
    BoardMeets (fun _ => True) (atomicLoadWord isock core addr) :=
  Meets.bind (meets_takeLock _) fun _ _ => meets_loadSigned known core _ _

theorem meets_atomicStoreWord (addr value : ConcolicValue P.clover.terms 32) :
    BoardMeets (fun _ => True) (atomicStoreWord isock core addr value) := by
  refine Meets.bind Meets.get fun board _ => ?_
  refine Meets.bind (Meets.require (by simp [Fault.FromBoard, boardAssertions])) fun _ _ => ?_
  exact meets_storeBytes known core _ _ _

theorem meets_atomicLoadReservedWord (object : Nat) (addr : ConcolicValue P.clover.terms 32) :
    BoardMeets (fun _ => True) (atomicLoadReservedWord isock core object addr) := by
  refine Meets.bind (meets_takeLock _) fun _ _ => ?_
  refine Meets.bind (Meets.modify fun _ holds => holds) fun _ _ => meets_loadSigned known core _ _

theorem meets_atomicStoreConditionalWord (object : Nat)
    (addr value : ConcolicValue P.clover.terms 32) :
    BoardMeets (fun _ => True) (atomicStoreConditionalWord isock core object addr value) := by
  refine Meets.bind Meets.get fun board _ => Meets.ite (fun _ => ?_) fun _ => Meets.pure trivial
  refine Meets.ite (fun _ => ?_) fun _ => ?_
  · exact Meets.bind (meets_storeBytes known core _ _ _) fun _ _ => Meets.pure trivial
  · exact Meets.bind (meets_unlock _) fun _ _ => Meets.pure trivial

end Interface

/-! ## Devices -/

/-- The contract of a device: the address is handed back as it came. -/
abbrev Answers (address : BitVec 64) (body : MemM P (Payload P.clover.terms × Nat)) : Prop :=
  BoardMeets (fun answer => answer.1.address = address) body

theorem meets_symbolicMemory (trans : Payload P.clover.terms) (delay : Nat) :
    Answers trans.address (SymbolicMemory.transport trans delay : MemM P _) := by
  refine Meets.bind Meets.get fun board _ => Meets.ite (fun _ => Meets.pure rfl) fun _ => ?_
  cases trans.command with
  | read => exact Meets.pure rfl
  | write => exact Meets.bind (Meets.modify fun _ holds => holds) fun _ _ => Meets.pure rfl

theorem meets_writeCtrl : BoardMeets (fun _ => True) (SymbolicCtrl.writeCtrl : MemM P Unit) := by
  have update : ∀ change : Board P → Board P, (∀ board, (change board).tlb = board.tlb) →
      BoardMeets (fun _ => True) (Exec.modify change : MemM P Unit) := by
    intro change same
    refine Meets.modify fun board holds => ?_
    simpa only [Untranslated, same] using holds
  refine Meets.bind Meets.get fun board _ => Meets.bind (Meets.when fun _ => ?_) fun _ _ => ?_
  · exact Meets.bind (Meets.emit _) fun _ _ => update _ fun _ => rfl
  · refine Meets.bind (Meets.when fun _ => update _ fun _ => rfl) fun _ _ => ?_
    exact update _ fun _ => rfl

theorem meets_symbolicCtrl {makeSymbolic : BitVec 32 → BitVec 32 → MemM P Unit}
    (callback : ∀ addr size, BoardMeets (fun _ => True) (makeSymbolic addr size))
    (trans : Payload P.clover.terms) (delay : Nat) :
    Answers trans.address (SymbolicCtrl.transport makeSymbolic trans delay) := by
  unfold SymbolicCtrl.transport
  split
  · exact Meets.throw ⟨_, .inr (.inl rfl)⟩
  · next register routed =>
      refine Meets.bind (Meets.require (by simp [Fault.FromBoard, boardAssertions])) fun _ _ => ?_
      cases trans.command with
      | read => exact Meets.bind Meets.get fun _ _ => Meets.pure rfl
      | write =>
          have called : BoardMeets (fun _ => True)
              (SymbolicCtrl.postWrite makeSymbolic register) := by
            cases register with
            | addr => exact Meets.pure trivial
            | size => exact Meets.bind Meets.get fun board _ => callback _ _
            | ctrl => exact meets_writeCtrl
          refine Meets.bind (Meets.modify fun _ holds => holds) fun _ _ => ?_
          exact Meets.bind called fun _ _ => Meets.pure rfl

theorem meets_symbolicSensor (input : P.clover.terms.Assignment)
    (trans : Payload P.clover.terms) (delay : Nat) :
    Answers trans.address (SymbolicSensor.transport input trans delay) := by
  refine Meets.bind Meets.get fun board _ => Meets.ite (fun _ => Meets.pure rfl) fun _ => ?_
  cases trans.command with
  | read =>
      refine Meets.ite (fun _ => Meets.pure rfl) fun _ => Meets.bind (Meets.emit _) fun _ _ => ?_
      exact Meets.bind (Meets.modify fun _ holds => holds) fun _ _ => Meets.pure rfl
  | write =>
      dsimp only
      split
      · exact Meets.pure rfl
      · exact Meets.bind (Meets.modify fun _ holds => holds) fun _ _ => Meets.pure rfl

theorem meets_symbolicUart (trans : Payload P.clover.terms) (delay : Nat) :
    Answers trans.address (SymbolicUart.transport trans delay : MemM P _) := by
  unfold SymbolicUart.transport
  dsimp only
  split
  · exact Meets.throw ⟨_, .inr (.inr rfl)⟩
  · next register found =>
      refine Meets.bind (Meets.require (by simp [Fault.FromBoard, boardAssertions]))
        fun _ _ => Meets.bind Meets.get fun board _ => ?_
      cases trans.command with
      | read =>
          refine Meets.bind (Meets.modify fun _ holds => holds) fun _ _ => ?_
          exact Meets.bind (Meets.modify fun _ holds => holds) fun _ _ => Meets.pure rfl
      | write =>
          refine Meets.bind (Meets.modify fun _ holds => holds) fun _ _ => ?_
          exact Meets.bind (Meets.modify fun _ holds => holds) fun _ _ => Meets.pure rfl

theorem meets_deliver {makeSymbolic : BitVec 32 → BitVec 32 → MemM P Unit}
    (callback : ∀ addr size, BoardMeets (fun _ => True) (makeSymbolic addr size))
    (input : P.clover.terms.Assignment) (target : Target) (trans : Payload P.clover.terms)
    (delay : Nat) :
    Answers trans.address (SimpleBus.deliver makeSymbolic input target trans delay) := by
  refine Meets.bind (Meets.when fun _ => Meets.emit _) fun _ _ => ?_
  cases target with
  | memory => exact meets_symbolicMemory trans delay
  | ctrl => exact meets_symbolicCtrl callback trans delay
  | sensor => exact meets_symbolicSensor input trans delay
  | uart => exact meets_symbolicUart trans delay
  | external device =>
      refine Meets.bind Meets.get fun board _ => ?_
      split
      · exact Meets.throw trivial
      · exact Meets.bind (Meets.modify fun _ holds => holds) fun _ _ => Meets.pure rfl

/-- A port's local address is not larger than the global one. -/
theorem fits_local {port : Port} {address : BitVec 64} (inside : SimpleBus.contains port address)
    (fits : Fits P address.toNat) : Fits P (address - port.start).toNat := by
  intro absent
  have above : port.start ≤ address := by
    simp only [SimpleBus.contains, Bool.and_eq_true, decide_eq_true_eq] at inside
    exact inside.1
  rw [BitVec.toNat_sub_of_le above]
  exact lt_of_le_of_lt (Nat.sub_le _ _) (fits absent)

/-- Callbacks nest, but every level throws the same faults. -/
theorem known_nested (core : Core) (input : P.clover.terms.Assignment) (depth : Nat) :
    Socket.Known (SimpleBus.nested core input depth : Socket P) := by
  induction depth with
  | zero => exact fun _ _ _ => Meets.throw trivial
  | succ depth inductionHypothesis =>
      intro trans delay fits
      show BoardMeets _ (SimpleBus.transport _ input trans delay)
      unfold SimpleBus.transport
      split
      · exact Meets.pure fits
      · next port found =>
          have inside := List.find?_some found
          refine Meets.mono (fun answer same => ?_) (fun _ thrown => thrown) (meets_deliver
            (fun addr size => Meets.bind (Meets.emit _) fun _ _ =>
              meets_symbolicStoreData inductionHypothesis core _ _ _) _ _ _ _)
          rw [same]
          exact fits_local inside fits

theorem known_bus (core : Core) (input : P.clover.terms.Assignment) :
    Socket.Known (bus core input : Socket P) := known_nested core input P.depth

end SymexVP
