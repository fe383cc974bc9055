import SymexVP.Clover
import SymexVP.Exec

/-!
# Loading the image of a program

`GenericElfLoader` maps a file of 32 bits and copies the segments of its program headers
that start in a memory into it, the bytes of the file first and zeros for the rest. The
memory is the one of concolic bytes. A platform with several memories calls
`load_executable_image` once for each, so that segments that start elsewhere are skipped.
-/

namespace SymexVP.ElfLoader

open Exec

/-- The fields of a program header that are looked at. -/
structure Elf32Phdr where
  pType : BitVec 32
  pOffset : BitVec 32
  pVaddr : BitVec 32
  pPaddr : BitVec 32
  pFilesz : BitVec 32
  pMemsz : BitVec 32
  deriving DecidableEq, Repr

/-- A mapped file: its program headers, and the bytes from where it is mapped on. -/
structure ElfFile where
  phdrs : List Elf32Phdr
  data : Nat → BitVec 8

def PT_LOAD : BitVec 32 := 1

inductive Fault
  | assertion (text : String)
  deriving DecidableEq, Repr

/-- A byte of the memory is written. -/
inductive Event
  | store (address : Nat)
  deriving DecidableEq, Repr

abbrev LoaderM (clover : Clover) := Exec Fault clover.Memory Event

variable {clover : Clover}

/-! ## The memory -/

/-- `memory.store` of one byte. -/
def store (address : BitVec 64) (byte : BitVec 8) : LoaderM clover Unit := do
  Exec.modify fun memory => clover.store memory address.toNat (ConcolicValue.BVC byte) 1
  Exec.emit (.store address.toNat)

/-- What is left of the loops of `load_data` and `load_zero`. -/
def storeEach (byteAt : Nat → BitVec 8) (dst : BitVec 64) : Nat → Nat → LoaderM clover Unit
  | _, 0 => pure ()
  | i, remaining + 1 => do
      store (dst + BitVec.ofNat 64 i) (byteAt i)
      storeEach byteAt dst (i + 1) remaining

def loadData (src : Nat → BitVec 8) (dst : BitVec 64) (n : Nat) : LoaderM clover Unit :=
  storeEach src dst 0 n

def loadZero (dst : BitVec 64) (n : Nat) : LoaderM clover Unit := storeEach (fun _ => 0) dst 0 n

/-! ## The loader -/

def getLoadSections (elf : ElfFile) : List Elf32Phdr :=
  elf.phdrs.filter fun p => p.pType = PT_LOAD ∧ ¬(p.pFilesz = 0 ∧ p.pMemsz = 0)

section Loader

variable (elf : ElfFile) (size offset : BitVec 32) (useVaddr : Bool)

/-- The address of a segment in one of the two modes. -/
def addr (p : Elf32Phdr) : BitVec 32 := if useVaddr then p.pVaddr else p.pPaddr

/-- One round of `load_executable_image`. -/
def loadSection (p : Elf32Phdr) : LoaderM clover Unit := do
  let addr := addr useVaddr p
  if ¬(offset ≤ addr ∧ addr < offset + size) then pure () else do
    Exec.require (offset ≤ addr) (.assertion "Offset overlaps into section")
    Exec.require (addr + p.pMemsz < offset + size)
      (.assertion "Section does not fit in target memory")
    let idx := addr - offset
    loadData (fun i => elf.data (p.pOffset.toNat + i)) (idx.setWidth 64) p.pFilesz.toNat
    Exec.require (p.pFilesz ≤ p.pMemsz) (.assertion "p->p_memsz >= p->p_filesz")
    loadZero ((idx + p.pFilesz).setWidth 64) (p.pMemsz - p.pFilesz).toNat

def loadSections : List Elf32Phdr → LoaderM clover Unit
  | [] => pure ()
  | p :: rest => do
      loadSection elf size offset useVaddr p
      loadSections rest

def loadExecutableImage : LoaderM clover Unit :=
  loadSections elf size offset useVaddr (getLoadSections elf)

end Loader

/-! ## What the memory holds -/

/-- The byte at an address has this value, under every assignment. -/
def Holds (memory : clover.Memory) (address : Nat) (value : BitVec 8) : Prop :=
  (clover.byte memory address).concrete = value ∧
    ∀ assignment, (clover.byte memory address).under assignment = value

/-- So many bytes from `start` on have been replaced, and no others. -/
structure Placed (byteAt : Nat → BitVec 8) (start count : Nat) (before after : clover.Memory) :
    Prop where
  inside : ∀ k < count, Holds after (start + k) (byteAt k)
  outside : ∀ address, address < start ∨ start + count ≤ address →
    clover.byte after address = clover.byte before address

section Placed

variable {before middle after : clover.Memory} {byteAt byteAt' : Nat → BitVec 8}
  {start count count' : Nat}

theorem Holds.congr {address : Nat} {value : BitVec 8} (holds : Holds before address value)
    (same : clover.byte after address = clover.byte before address) :
    Holds after address value := by
  unfold Holds
  rw [same]
  exact holds

theorem placed_nothing (memory : clover.Memory) (byteAt : Nat → BitVec 8) (start : Nat) :
    Placed byteAt start 0 memory memory where
  inside _ less := absurd less (Nat.not_lt_zero _)
  outside _ _ := rfl

theorem placed_store (lawful : clover.Lawful) (memory : clover.Memory) (address : Nat)
    (byteAt : Nat → BitVec 8) :
    Placed byteAt address 1 memory
      (clover.store memory address (ConcolicValue.BVC (byteAt 0)) 1) where
  inside k less := by
    obtain rfl : k = 0 := by omega
    have low : Clover.byteOf 0 (byteAt 0) = byteAt 0 := by simp [Clover.byteOf]
    constructor
    · rw [lawful.store_inside _ _ _ _ _ _ le_rfl less, ConcolicValue.BVC_concrete, low]
    · intro assignment
      rw [lawful.store_under _ _ _ _ _ _ _ le_rfl less, ConcolicValue.under_BVC, low]
  outside other apart := lawful.store_outside _ _ _ _ _ _ apart

theorem Placed.congr (placed : Placed byteAt start count before after)
    (same : ∀ k < count, byteAt k = byteAt' k) : Placed byteAt' start count before after where
  inside k less := same k less ▸ placed.inside k less
  outside := placed.outside

/-- Bytes placed behind others extend them. -/
theorem Placed.append (first : Placed byteAt start count before middle)
    (second : Placed (fun k => byteAt (count + k)) (start + count) count' middle after) :
    Placed byteAt start (count + count') before after where
  inside k less := by
    by_cases early : k < count
    · exact (first.inside k early).congr (second.outside _ (.inl (by omega)))
    · have late := second.inside (k - count) (by omega)
      rw [Nat.add_assoc, Nat.add_sub_cancel' (Nat.le_of_not_lt early)] at late
      exact late
  outside address apart := by
    rw [second.outside address (by omega), first.outside address (by omega)]

end Placed

/-- A loop over bytes that stay below the end of the address space places them. -/
theorem placed_storeEach (lawful : clover.Lawful) (byteAt : Nat → BitVec 8) (dst : BitVec 64)
    (i remaining : Nat) (fits : dst.toNat + i + remaining ≤ 2 ^ 64) (before : clover.Memory) :
    ∃ after log, Returns (storeEach byteAt dst i remaining) before () after log ∧
      Placed (fun k => byteAt (i + k)) (dst.toNat + i) remaining before after ∧
      ∀ address, .store address ∈ log →
        dst.toNat + i ≤ address ∧ address < dst.toNat + i + remaining := by
  induction remaining generalizing i before with
  | zero => exact ⟨before, [], rfl, placed_nothing _ _ _, nofun⟩
  | succ remaining inductionHypothesis =>
      have address : (dst + BitVec.ofNat 64 i).toNat = dst.toNat + i := by
        rw [BitVec.toNat_add, BitVec.toNat_ofNat, Nat.add_mod_mod]
        exact Nat.mod_eq_of_lt (by omega)
      obtain ⟨after, log, returned, placed, written⟩ :=
        inductionHypothesis (i + 1) (by omega)
          (clover.store before (dst.toNat + i) (ConcolicValue.BVC (byteAt i)) 1)
      refine ⟨after, .store (dst.toNat + i) :: log, ?_, ?_, ?_⟩
      · refine returns_bind_iff.mpr ⟨(), _, [.store (dst.toNat + i)], log, ?_, returned, rfl⟩
        rw [← address]
        rfl
      · have head := placed_store lawful before (dst.toNat + i) (fun k => byteAt (i + k))
        rw [Nat.add_comm remaining 1]
        refine head.append ?_
        simpa only [Nat.add_assoc, Nat.add_zero] using placed
      · intro other member
        rcases List.mem_cons.mp member with same | later
        · cases same
          omega
        · have bounds := written other later
          omega

/-- The loops return in any case. -/
theorem returns_storeEach (byteAt : Nat → BitVec 8) (dst : BitVec 64) (i remaining : Nat)
    (before : clover.Memory) :
    ∃ after log, Returns (storeEach byteAt dst i remaining) before () after log := by
  induction remaining generalizing i before with
  | zero => exact ⟨before, [], rfl⟩
  | succ remaining inductionHypothesis =>
      obtain ⟨after, log, returned⟩ := inductionHypothesis (i + 1) _
      exact ⟨after, _, returns_bind_iff.mpr ⟨(), _, _, log, rfl, returned, rfl⟩⟩

end SymexVP.ElfLoader
