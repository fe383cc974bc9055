import SymexVP.Board

/-!
# The memory interface of a hart

`CombinedMemoryInterface` and the translation unit `GenericMMU`. Every access ends in
a transaction on the bus, which is a parameter here: the bus leads to devices, and a
device may call back into this interface to mark memory symbolic. The interface
reads four fields of the hart and never writes to it.
-/

namespace SymexVP

open Board

/-- `b_transport`: a payload and a delay in, the same two out. -/
abbrev Socket (P : Platform) :=
  Payload P.clover.terms → Nat → MemM P (Payload P.clover.terms × Nat)

/-- What the memory interface reads of the hart that owns it. -/
structure Core where
  satp : BitVec 32
  mstatus : BitVec 32
  prv : PrivilegeLevel
  hartId : BitVec 32

variable {P : Platform}

namespace MemoryInterface

/-! ## Transactions -/

/-- `_do_transaction` on a payload: threads the local time through the bus and raises a trap
for an error response, with whatever address the payload holds by then. -/
def doTransaction (isock : Socket P) (trans : Payload P.clover.terms) :
    MemM P (Payload P.clover.terms) := do
  let before ← Exec.get
  let (trans, localDelay) ← isock trans before.localTime
  let after ← Exec.get
  Exec.require (after.localTime ≤ localDelay)
    (.assertion "local_delay >= quantum_keeper.get_local_time()")
  Exec.modify fun board => { board with localTime := localDelay }
  match trans.response, trans.command with
  | .ok, _ => pure trans
  | .addressError, .read => raiseTrap .loadPageFault trans.address.toNat
  | .addressError, .write => raiseTrap .storeAmoPageFault trans.address.toNat

/-- `_do_transaction` of concolic data with the write command. -/
def writeTransaction (isock : Socket P) (address : BitVec 64) (data : Concolic P.clover.terms)
    (numBytes : Nat) : MemM P Unit := do
  let _ ← doTransaction isock ⟨.write, address, data.toBytes numBytes, .ok, some data⟩
  pure ()

/-- `_do_transaction` of concolic data with the read command: the value is the one the target
attached, or else a constant made of the bytes it placed in the buffer. -/
def readTransaction (isock : Socket P) (address : BitVec 64) (numBytes : Nat) :
    MemM P (Concolic P.clover.terms) := do
  let trans ← doTransaction isock ⟨.read, address, List.replicate numBytes 0, .ok, none⟩
  match trans.extension with
  | some data => pure data
  | none => pure (Concolic.ofBytes trans.data)

/-- `concrete_load_data`: the bytes of the buffer, whether or not they stand for a value with
a symbolic part. No data memory access range is configured. -/
def concreteLoadData (isock : Socket P) (core : Core) (use : Use) (address : BitVec 64)
    (numBytes : Nat) : MemM P (List (BitVec 8)) := do
  waitForAccessRights core.hartId
  let trans ← doTransaction isock ⟨.read, address, List.replicate numBytes 0, .ok, none⟩
  Exec.emit (.concretized use trans.isSymbolic)
  pure trans.data

/-- `concrete_store_data`. -/
def concreteStoreData (isock : Socket P) (core : Core) (address : BitVec 64)
    (bytes : List (BitVec 8)) : MemM P Unit := do
  waitForAccessRights core.hartId
  let _ ← doTransaction isock ⟨.write, address, bytes, .ok, none⟩
  unlock core.hartId

/-- `mmu_load_pte32`. -/
def mmuLoadPte32 (isock : Socket P) (core : Core) (address : BitVec 64) :
    MemM P (BitVec 64) := do
  let bytes ← concreteLoadData isock core .pageTable address 4
  pure (BitVec.ofNat 64 (Clover.littleEndian bytes))

/-- `mmu_store_pte32`; the entry is cut to 32 bits. -/
def mmuStorePte32 (isock : Socket P) (core : Core) (address value : BitVec 64) : MemM P Unit :=
  concreteStoreData isock core address
    ((List.range 4).map fun index => Clover.byteOf index value)

end MemoryInterface

/-! ## Address translation -/

namespace Mmu

open MemoryInterface

/-- The flags of a page table entry. -/
def pteV (pte : BitVec 64) : Bool := pte.getLsbD 0
def pteR (pte : BitVec 64) : Bool := pte.getLsbD 1
def pteW (pte : BitVec 64) : Bool := pte.getLsbD 2
def pteX (pte : BitVec 64) : Bool := pte.getLsbD 3
def pteU (pte : BitVec 64) : Bool := pte.getLsbD 4

/-- `vm_info`. -/
structure VmInfo where
  levels : Nat
  idxbits : Nat
  ptesize : BitVec 64
  ptbase : BitVec 64

/-- `decode_vm_info`. The `mode` field has one bit here, so that of the modes the source lists
only Sv32 can be selected. -/
def decodeVmInfo (core : Core) (mode : PrivilegeLevel) : MemM P VmInfo := do
  Exec.require (mode ≤ supervisorMode) (.assertion "prv <= SupervisorMode")
  let selected := Satp.mode.get core.satp
  if selected = 1 then
    pure ⟨2, 10, 4, (Satp.ppn.get core.satp).setWidth 64 <<< 12⟩
  else
    Exec.throw (.runtimeError ("unknown Sv (satp) mode " ++ toString selected.toNat))

/-- `check_vaddr_extension`, with `xlen = 32`. -/
def checkVaddrExtension (vaddr : BitVec 64) (vm : VmInfo) : Bool :=
  let highbit := vm.idxbits * vm.levels + 12 - 1
  let extMask : BitVec 64 := (1#64 <<< (32 - highbit)) - 1
  let bits := (vaddr >>> highbit) &&& extMask
  bits == 0 || bits == extMask

/-- The permission checks of `walk` on a leaf entry: the access type, then the user bit. -/
def leafPermits (core : Core) (type : MemoryAccessType) (mode : PrivilegeLevel)
    (pte : BitVec 64) : Bool :=
  let sMode := mode == supervisorMode
  let sum := core.mstatus.getLsbD Mstatus.sum.lo
  let mxr := core.mstatus.getLsbD Mstatus.mxr.lo
  !(type == .fetch && !pteX pte) &&
  !(type == .load && !pteR pte && !(mxr && pteX pte)) &&
  !(type == .store && !(pteR pte && pteW pte)) &&
  (if pteU pte then !(sMode && (type == .fetch || !sum)) else sMode)

/-- The accessed flag, and for a store the dirty flag. -/
def accessFlags (type : MemoryAccessType) : BitVec 64 :=
  (1 <<< 6) ||| (if type = .store then 1 <<< 7 else 0)

/-- The loop of `walk` from `level` downwards; `none` when it is left by `break`. -/
def walkLevels (isock : Socket P) (core : Core) (vm : VmInfo) (vaddr : BitVec 64)
    (type : MemoryAccessType) (mode : PrivilegeLevel) : Nat → BitVec 64 →
    MemM P (Option (BitVec 64))
  | 0, _ => pure none
  | level + 1, base => do
      let ptshift := level * vm.idxbits
      let vpnField := (vaddr >>> (12 + ptshift)) &&& ((1#64 <<< vm.idxbits) - 1)
      let ptePaddr := base + vpnField * vm.ptesize
      Exec.require (P.mmuMem = true) (.assertion "mem")
      let pte ← mmuLoadPte32 isock core ptePaddr
      let ppn := pte >>> 10
      let mask := (1#64 <<< ptshift) - 1
      let ad := accessFlags type
      if !pteV pte || (!pteR pte && pteW pte) then pure none
      else if !pteR pte && !pteX pte then
        walkLevels isock core vm vaddr type mode level (ppn <<< 12)
      else if !leafPermits core type mode pte then pure none
      else if ppn &&& mask != 0 then pure none
      else if pte &&& ad != ad && P.pageFaultOnAD then pure none
      else do
        Exec.when (pte &&& ad ≠ ad) (mmuStorePte32 isock core ptePaddr (pte ||| ad))
        pure (some ((((ppn &&& ~~~mask) ||| ((vaddr >>> 12) &&& mask)) <<< 12) |||
          (vaddr &&& 0xfff)))

/-- `walk`. -/
def walk (isock : Socket P) (core : Core) (vaddr : BitVec 64) (type : MemoryAccessType)
    (mode : PrivilegeLevel) : MemM P (BitVec 64) := do
  let vm ← decodeVmInfo core mode
  let levels := if checkVaddrExtension vaddr vm then vm.levels else 0
  match ← walkLevels isock core vm vaddr type mode levels vm.ptbase with
  | some paddr => pure paddr
  | none =>
      match type with
      | .fetch => raiseTrap .instrPageFault vaddr.toNat
      | .load => raiseTrap .loadPageFault vaddr.toNat
      | .store => raiseTrap .storeAmoPageFault vaddr.toNat

/-- The privilege level whose view an access takes. -/
def effectiveMode (core : Core) (type : MemoryAccessType) : PrivilegeLevel :=
  if type ≠ .fetch ∧ core.mstatus.getLsbD Mstatus.mprv.lo then Mstatus.mpp.get core.mstatus
  else core.prv

/-- `~PGMASK` as the source computes it: an unsigned 32-bit number, widened with zeros. -/
def pageNumberMask : BitVec 64 := (~~~0xfff#32).setWidth 64

/-- `translate_virtual_to_physical_addr`. -/
def translateVirtualToPhysicalAddr (isock : Socket P) (core : Core) (vaddr : BitVec 64)
    (type : MemoryAccessType) : MemM P (BitVec 64) := do
  let mode := effectiveMode core type
  if Satp.mode.get core.satp = 0 ∨ mode = machineMode then pure vaddr
  else do
    inc 30
    Exec.require (mode = 0 ∨ mode = 1) (.assertion "mode == 0 || mode == 1")
    let board ← Exec.get
    let vpn := vaddr >>> 12
    let index := vpn.toNat % 256
    let entry := board.tlb mode type index
    if entry.vpn = vpn then pure (entry.ppn ||| (vaddr &&& 0xfff))
    else do
      let paddr ← walk isock core vaddr type mode
      Exec.modify fun board =>
        { board with
          tlb := fun mode' type' index' =>
            if mode' = mode ∧ type' = type ∧ index' = index then ⟨paddr &&& pageNumberMask, vpn⟩
            else board.tlb mode' type' index' }
      pure paddr

end Mmu

namespace MemoryInterface

/-- `v2p`. -/
def v2p (isock : Socket P) (core : Core) (vaddr : BitVec 64) (type : MemoryAccessType) :
    MemM P (BitVec 64) :=
  if P.hasMmu then Mmu.translateVirtualToPhysicalAddr isock core vaddr type else pure vaddr

/-! ## Loads and stores -/

/-- `load_instr`. -/
def loadInstr (isock : Socket P) (core : Core) (pc : BitVec 32) : MemM P (BitVec 32) := do
  let paddr ← v2p isock core (pc.setWidth 64) .fetch
  let bytes ← concreteLoadData isock core .fetch paddr 4
  pure (BitVec.ofNat 32 (Clover.littleEndian bytes))

/-- `symbolic_store_data`. -/
def symbolicStoreData (isock : Socket P) (core : Core) (addr : ConcolicValue P.clover.terms 32)
    (data : Concolic P.clover.terms) (numBytes : Nat) : MemM P Unit := do
  waitForAccessRights core.hartId
  let caddr ← getValue .address addr
  let paddr ← v2p isock core (caddr.setWidth 64) .store
  writeTransaction isock paddr data numBytes
  unlock core.hartId

/-- `symbolic_load_data`; it too asks for a translation with the access type `STORE`. -/
def symbolicLoadData (isock : Socket P) (core : Core) (addr : ConcolicValue P.clover.terms 32)
    (numBytes : Nat) : MemM P (Concolic P.clover.terms) := do
  waitForAccessRights core.hartId
  let caddr ← getValue .address addr
  let paddr ← v2p isock core (caddr.setWidth 64) .store
  readTransaction isock paddr numBytes

/-- `load_word`, `load_half` and `load_byte`: the loaded value, sign-extended. -/
def loadSigned (isock : Socket P) (core : Core) (addr : ConcolicValue P.clover.terms 32)
    (numBytes : Nat) : MemM P (ConcolicValue P.clover.terms 32) := do
  let data ← symbolicLoadData isock core addr numBytes
  pure (P.clover.sext 32 data.value)

/-- `load_uhalf` and `load_ubyte`: the loaded value, zero-extended if it is narrow. -/
def loadUnsigned (isock : Socket P) (core : Core) (addr : ConcolicValue P.clover.terms 32)
    (numBytes : Nat) : MemM P (Concolic P.clover.terms) := do
  let data ← symbolicLoadData isock core addr numBytes
  if data.width < 32 then pure ⟨32, P.clover.zext 32 data.value⟩ else pure data

def loadWord (isock : Socket P) (core : Core) (addr : ConcolicValue P.clover.terms 32) :
    MemM P (ConcolicValue P.clover.terms 32) := loadSigned isock core addr 4

/-- `store_word`, `store_half` and `store_byte`: the whole register is handed over, with the
number of bytes to store. -/
def storeBytes (isock : Socket P) (core : Core) (addr value : ConcolicValue P.clover.terms 32)
    (numBytes : Nat) : MemM P Unit :=
  symbolicStoreData isock core addr ⟨32, value⟩ numBytes

def storeWord (isock : Socket P) (core : Core) (addr value : ConcolicValue P.clover.terms 32) :
    MemM P Unit := storeBytes isock core addr value 4

/-! ## Atomic accesses -/

/-- `atomic_load_word`. -/
def atomicLoadWord (isock : Socket P) (core : Core) (addr : ConcolicValue P.clover.terms 32) :
    MemM P (ConcolicValue P.clover.terms 32) := do
  takeLock core.hartId
  loadWord isock core addr

/-- `atomic_store_word`. -/
def atomicStoreWord (isock : Socket P) (core : Core)
    (addr value : ConcolicValue P.clover.terms 32) : MemM P Unit := do
  let board ← Exec.get
  Exec.require (board.isLockedBy core.hartId = true)
    (.assertion "bus_lock->is_locked(iss.get_hart_id())")
  storeWord isock core addr value

/-- `atomic_load_reserved_word`; `object` identifies the value the register points to. -/
def atomicLoadReservedWord (isock : Socket P) (core : Core) (object : Nat)
    (addr : ConcolicValue P.clover.terms 32) : MemM P (ConcolicValue P.clover.terms 32) := do
  takeLock core.hartId
  Exec.modify fun board => { board with lrAddr := some object }
  loadWord isock core addr

/-- `atomic_store_conditional_word`; the two addresses are compared as objects. -/
def atomicStoreConditionalWord (isock : Socket P) (core : Core) (object : Nat)
    (addr value : ConcolicValue P.clover.terms 32) : MemM P Bool := do
  let board ← Exec.get
  if board.isLockedBy core.hartId then
    if board.lrAddr = some object then do
      storeWord isock core addr value
      pure true
    else do
      unlock core.hartId
      pure false
  else pure false

/-- `ISS::make_symbolic`. -/
def makeSymbolic (isock : Socket P) (core : Core) (input : P.clover.terms.Assignment)
    (addr size : BitVec 32) : MemM P Unit := do
  Exec.emit (.injected (.memory addr))
  let value := P.clover.getSymbolicBytes input (Injection.memory addr).name size.toNat
  symbolicStoreData isock core (.BVC addr) ⟨8 * size.toNat, value⟩ size.toNat

end MemoryInterface

end SymexVP
