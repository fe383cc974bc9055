import SymexVP.PageTables

/-!
# Page walks

The walk computes with 64-bit numbers and masks what the translation of the privileged
specification says in terms of fields. Over page tables in the symbolic memory the
two agree: the walk follows the same entries to the same leaf, grants the same
accesses with the same physical addresses, and leaves the leaf marked as the
specification asks for. When the walk may not mark entries, an access that would have
to mark the leaf faults.
-/

namespace SymexVP

open Exec Board MemoryInterface

variable {P : Platform}

/-! ## Fields and masks -/

/-- The kind of access in the words of the specification. -/
def MemoryAccessType.access : MemoryAccessType → Sv32.Access
  | .fetch => .fetch
  | .load => .load
  | .store => .store

/-- The page fault an access ends in. -/
def MemoryAccessType.pageFault : MemoryAccessType → ExceptionCode
  | .fetch => .instrPageFault
  | .load => .loadPageFault
  | .store => .storeAmoPageFault

/-- The rights of an access in some mode. -/
def Core.rights (core : Core) (mode : PrivilegeLevel) : Sv32.Rights where
  supervisor := mode == supervisorMode
  sum := core.mstatus.getLsbD Mstatus.sum.lo
  mxr := core.mstatus.getLsbD Mstatus.mxr.lo

/-- The page of the first page table. -/
def Core.rootPage (core : Core) : BitVec 22 := (Satp.ppn.get core.satp).setWidth 22

section Bits

variable (entry : BitVec 32)

theorem pteV_eq : Mmu.pteV (entry.setWidth 64) = Sv32.valid entry := by
  simp [Mmu.pteV, Sv32.valid]

theorem pteR_eq : Mmu.pteR (entry.setWidth 64) = Sv32.readable entry := by
  simp [Mmu.pteR, Sv32.readable]

theorem pteW_eq : Mmu.pteW (entry.setWidth 64) = Sv32.writable entry := by
  simp [Mmu.pteW, Sv32.writable]

theorem pteX_eq : Mmu.pteX (entry.setWidth 64) = Sv32.executable entry := by
  simp [Mmu.pteX, Sv32.executable]

theorem pteU_eq : Mmu.pteU (entry.setWidth 64) = Sv32.user entry := by
  simp [Mmu.pteU, Sv32.user]

/-- For an entry that is not malformed the walk asks for what the specification does. -/
theorem leafPermits_eq {core : Core} {type : MemoryAccessType} {mode : PrivilegeLevel}
    (formed : Sv32.malformed entry = false) :
    Mmu.leafPermits core type mode (entry.setWidth 64) =
      Sv32.permits (core.rights mode) type.access entry := by
  unfold Mmu.leafPermits Sv32.permits Core.rights
  unfold Sv32.malformed at formed
  rw [pteX_eq, pteR_eq, pteW_eq, pteU_eq]
  generalize (mode == supervisorMode) = supervisor
  generalize core.mstatus.getLsbD Mstatus.sum.lo = sum
  generalize core.mstatus.getLsbD Mstatus.mxr.lo = mxr
  generalize Sv32.valid entry = valid at formed
  generalize Sv32.readable entry = readable at formed ⊢
  generalize Sv32.writable entry = writable at formed ⊢
  generalize Sv32.executable entry = executable
  generalize Sv32.user entry = user
  revert formed
  cases type <;> revert valid readable writable executable user supervisor sum mxr <;> decide

theorem accessFlags_eq (type : MemoryAccessType) :
    Mmu.accessFlags type = (Sv32.flags type.access).setWidth 64 := by
  cases type <;> rfl

/-- Whether flags are set can be told from the widened entry. -/
theorem widened_and_eq_iff (flags : BitVec 32) :
    entry.setWidth 64 &&& flags.setWidth 64 = flags.setWidth 64 ↔ entry &&& flags = flags := by
  rw [← BitVec.setWidth_and]
  constructor
  · intro same
    have narrow := congrArg (BitVec.setWidth 32) same
    simpa using narrow
  · intro same
    rw [same]

/-- The address of an entry: the walk adds and multiplies, the specification concatenates. -/
theorem entryAddress_eq (page : BitVec 22) (level : Nat) (va : BitVec 32) :
    (page.setWidth 64 <<< 12) +
        (((va.setWidth 64 >>> (12 + level * 10)) &&& ((1#64 <<< 10) - 1)) * 4) =
      (Sv32.entryAddress page (Sv32.index level va)).setWidth 64 := by
  have index : ((va.setWidth 64 >>> (12 + level * 10)) &&& ((1#64 <<< 10) - 1)) =
      (Sv32.index level va).setWidth 64 := by
    apply BitVec.eq_of_toNat_eq
    have mask : ((1#64 <<< 10) - 1).toNat = 2 ^ 10 - 1 := by decide
    have small := va.isLt
    rw [BitVec.toNat_and, mask, Nat.and_two_pow_sub_one_eq_mod, BitVec.toNat_ushiftRight,
      BitVec.toNat_setWidth, BitVec.toNat_setWidth, Sv32.index, BitVec.extractLsb'_toNat,
      Nat.mod_eq_of_lt (show va.toNat < 2 ^ 64 by omega), Nat.mul_comm 10 level]
    omega
  rw [index]
  generalize Sv32.index level va = index
  apply BitVec.eq_of_toNat_eq
  have pageBound := page.isLt
  have indexBound := index.isLt
  rw [Sv32.entryAddress, BitVec.toNat_add, BitVec.toNat_mul, BitVec.toNat_shiftLeft,
    BitVec.toNat_setWidth, BitVec.toNat_setWidth, BitVec.toNat_setWidth, BitVec.toNat_append,
    BitVec.toNat_append, Nat.shiftLeft_eq, Nat.shiftLeft_eq, Nat.shiftLeft_eq]
  have inner : page.toNat * 2 ^ 10 ||| index.toNat = page.toNat * 2 ^ 10 + index.toNat := by
    rw [Nat.mul_comm, Nat.two_pow_add_eq_or_of_lt indexBound]
  have four : (4 : BitVec 64).toNat = 4 := rfl
  have zero : (0#2).toNat = 0 := rfl
  rw [inner, four, zero, Nat.or_zero]
  omega

/-- The walk masks the low bits of the page number off and fills them up with the address; the
specification puts a prefix of the page number in front of the rest of the address. -/
theorem physical_eq {level : Nat} (low : level < 2) (va : BitVec 32) :
    let ppn := entry.setWidth 64 >>> 10
    let mask := (1#64 <<< (level * 10)) - 1#64
    (((ppn &&& ~~~mask) ||| ((va.setWidth 64 >>> 12) &&& mask)) <<< 12) |||
        (va.setWidth 64 &&& 0xfff#64) =
      (Sv32.physical level entry va).setWidth 64 := by
  have offset : ∀ index, (0xfff#64).getLsbD index = decide (index < 12) :=
    fun index => BitFields.getLsbD_lowMask 12 index (by decide)
  have prefixed : ∀ index, ((1#64 <<< (level * 10)) - 1#64).getLsbD index =
      decide (index < level * 10) :=
    fun index => BitFields.getLsbD_lowMask (level * 10) index (by omega)
  dsimp only
  generalize 0xfff#64 = offsets at offset ⊢
  generalize (1#64 <<< (level * 10)) - 1#64 = mask at prefixed ⊢
  apply BitVec.eq_of_getLsbD_eq
  intro index inside
  obtain rfl | rfl : level = 0 ∨ level = 1 := by omega
  all_goals
    simp only [Sv32.physical, Sv32.pageNumber, BitVec.getLsbD_append, BitVec.getLsbD_or,
      BitVec.getLsbD_and, BitVec.getLsbD_not, BitVec.getLsbD_shiftLeft, BitVec.getLsbD_ushiftRight,
      BitVec.getLsbD_setWidth, BitVec.getLsbD_extractLsb', offset, prefixed]
    grind

/-- Both test the same bits of the page number. -/
theorem isAligned_eq {level : Nat} (low : level < 2) :
    (entry.setWidth 64 >>> 10 &&& ((1#64 <<< (level * 10)) - 1#64) != 0#64) =
      !Sv32.isAligned level entry := by
  have prefixed : ∀ index, ((1#64 <<< (level * 10)) - 1#64).getLsbD index =
      decide (index < level * 10) :=
    fun index => BitFields.getLsbD_lowMask (level * 10) index (by omega)
  generalize (1#64 <<< (level * 10)) - 1#64 = mask at prefixed ⊢
  have same : entry.setWidth 64 >>> 10 &&& mask = 0#64 ↔
      (Sv32.pageNumber entry).extractLsb' 0 (10 * level) = 0#(10 * level) := by
    constructor
    · intro clear
      apply BitVec.eq_of_getLsbD_eq
      intro index inside
      have bit := congrArg (·.getLsbD index) clear
      simp only [Sv32.pageNumber, BitVec.getLsbD_and, BitVec.getLsbD_ushiftRight,
        BitVec.getLsbD_setWidth, BitVec.getLsbD_extractLsb', BitVec.getLsbD_zero, prefixed] at bit ⊢
      grind
    · intro clear
      apply BitVec.eq_of_getLsbD_eq
      intro index inside
      have bit := congrArg (·.getLsbD index) clear
      simp only [Sv32.pageNumber, BitVec.getLsbD_and, BitVec.getLsbD_ushiftRight,
        BitVec.getLsbD_setWidth, BitVec.getLsbD_extractLsb', BitVec.getLsbD_zero, prefixed] at bit ⊢
      grind
  rw [Sv32.isAligned, bne, Bool.not_inj_iff, Bool.eq_iff_iff, beq_iff_eq, beq_iff_eq]
  exact same

theorem pageNumber_eq : entry.setWidth 64 >>> 10 = (Sv32.pageNumber entry).setWidth 64 := by
  apply BitVec.eq_of_getLsbD_eq
  intro index inside
  simp only [Sv32.pageNumber, BitVec.getLsbD_ushiftRight, BitVec.getLsbD_setWidth,
    BitVec.getLsbD_extractLsb']
  grind

theorem marked_eq (type : MemoryAccessType) :
    (entry.setWidth 64 ||| Mmu.accessFlags type).setWidth 32 = Sv32.marked entry type.access := by
  rw [accessFlags_eq, ← BitVec.setWidth_or, Sv32.marked]
  simp

end Bits

/-! ## What a walk returns and what it leaves behind -/

/-- The flags an access asks for are set already. -/
def isMarked (type : MemoryAccessType) (entry : BitVec 32) : Bool :=
  entry &&& Sv32.flags type.access == Sv32.flags type.access

/-- The physical address a walk returns, unless it leaves the marking to the software. -/
def walkAddress (P : Platform) (type : MemoryAccessType) : Sv32.Result → Option (BitVec 34)
  | .granted physical _ entry =>
      if P.pageFaultOnAD && !isMarked type entry then none else some physical
  | .missing | .fault => none

/-- The board after a walk, apart from the time it took. -/
def Board.walked (board : Board P) (type : MemoryAccessType) : Sv32.Result → Board P
  | .granted _ address entry =>
      if P.pageFaultOnAD || isMarked type entry then board
      else
        match memoryOffset P (address.setWidth 64) 4 with
        | some offset =>
            { board with
              memory := board.withWord offset (Sv32.marked entry type.access)
              lock := none }
        | none => board
  | .missing | .fault => board

/-- What the specification says of an access, over the page tables in the memory. -/
def Board.translation (board : Board P) (core : Core) (mode : PrivilegeLevel)
    (type : MemoryAccessType) (va : BitVec 32) : Sv32.Result :=
  Sv32.translate board.entries core.rootPage (core.rights mode) type.access va

section Walk

variable {board : Board P} {core : Core} (input : P.clover.terms.Assignment)

theorem walked_localTime (type : MemoryAccessType) (result : Sv32.Result) (earlier time : Nat) :
    { ({ board with localTime := earlier } : Board P).walked type result with localTime := time } =
      { board.walked type result with localTime := time } := by
  unfold Board.walked
  cases result with
  | missing => rfl
  | fault => rfl
  | granted physical address entry =>
      dsimp only
      split
      · rfl
      · split <;> rfl

/-- The leaf: what the walk does with an entry that is neither malformed nor a pointer. -/
theorem leaf_run (type : MemoryAccessType) (mode : PrivilegeLevel) (va : BitVec 32)
    {level offset : Nat} (low : level < 2) {address : BitVec 34}
    (available : board.Available core.hartId)
    (placed : memoryOffset P (address.setWidth 64) 4 = some offset) {entry : BitVec 32}
    (formed : Sv32.malformed entry = false) :
    let pte := entry.setWidth 64
    let ppn := pte >>> 10
    let mask := (1#64 <<< (level * 10)) - 1#64
    let ad := Mmu.accessFlags type
    let result := Sv32.check (core.rights mode) type.access va (.leaf level address entry)
    ∃ time, (if !Mmu.leafPermits core type mode pte then pure none
      else if ppn &&& mask != 0#64 then pure none
      else if pte &&& ad != ad && P.pageFaultOnAD then pure none
      else do
        Exec.when (pte &&& ad ≠ ad)
          (mmuStorePte32 (bus core input) core (address.setWidth 64) (pte ||| ad))
        pure (some ((((ppn &&& ~~~mask) ||| ((va.setWidth 64 >>> 12) &&& mask)) <<< 12) |||
          (va.setWidth 64 &&& 0xfff#64))) : MemM P (Option (BitVec 64))).run board =
      ⟨.ok ((walkAddress P type result).map (·.setWidth 64)),
        { board.walked type result with localTime := time }, []⟩ := by
  intro pte ppn mask ad result
  have flags : (pte &&& ad = ad) ↔ isMarked type entry = true := by
    rw [isMarked, beq_iff_eq, ← widened_and_eq_iff, ← accessFlags_eq]
  rw [leafPermits_eq entry formed, show (ppn &&& mask != 0#64) = !Sv32.isAligned level entry from
    isAligned_eq entry low, physical_eq entry low va]
  by_cases granted : Sv32.permits (core.rights mode) type.access entry = true ∧
      Sv32.isAligned level entry = true
  · obtain ⟨permitted, aligned⟩ := granted
    have answer : result = .granted (Sv32.physical level entry va) address entry := by
      simp only [result, Sv32.check, permitted, aligned, Bool.and_true, if_true]
    rw [answer, permitted, aligned]
    by_cases set : isMarked type entry = true
    · refine ⟨board.localTime, ?_⟩
      have same : pte &&& ad = ad := flags.mpr set
      simp only [Exec.when, same, walkAddress, Board.walked, set, bne_self_eq_false, ne_eq,
        not_true_eq_false, if_false, Bool.false_and, Bool.and_false, Bool.not_true, Bool.or_true,
        if_true, Bool.false_eq_true, Option.map_some]
      rfl
    · have unset : ¬pte &&& ad = ad := fun same => set (flags.mp same)
      have differs : (pte &&& ad != ad) = true := bne_iff_ne.mpr unset
      rw [Bool.not_eq_true] at set
      cases software : P.pageFaultOnAD with
      | true =>
          refine ⟨board.localTime, ?_⟩
          simp only [differs, software, walkAddress, Board.walked, set, Bool.not_true, if_false,
            Bool.true_and, Bool.true_or, if_true, Bool.false_eq_true, Bool.not_false,
            Option.map_none]
          rfl
      | false =>
          refine ⟨board.localTime + 10, ?_⟩
          simp only [differs, software, walkAddress, Board.walked, set, placed, Bool.not_true,
            if_false, Bool.and_false, Bool.or_false, Bool.false_eq_true, Exec.when, ne_eq, unset,
            not_false_eq_true, if_true, Bool.false_and, Option.map_some]
          rw [bind_run, mmuStorePte32_run core input board available placed, marked_eq]
          rfl
  · have answer : result = .fault := by
      have refused : ¬(Sv32.permits (core.rights mode) type.access entry &&
          Sv32.isAligned level entry) = true := by simpa using granted
      simp only [result, Sv32.check, if_neg refused]
    refine ⟨board.localTime, ?_⟩
    rw [answer]
    by_cases permitted : Sv32.permits (core.rights mode) type.access entry = true
    · have crooked : Sv32.isAligned level entry = false := by simpa [permitted] using granted
      rw [permitted, crooked]
      rfl
    · rw [Bool.not_eq_true] at permitted
      rw [permitted]
      rfl

theorem checkVaddrExtension_eq (va : BitVec 32) (ptbase : BitVec 64) :
    Mmu.checkVaddrExtension (va.setWidth 64) ⟨2, 10, 4, ptbase⟩ = true := by
  unfold Mmu.checkVaddrExtension
  have bit : va.setWidth 64 >>> (10 * 2 + 12 - 1) &&& ((1#64 <<< (32 - (10 * 2 + 12 - 1))) - 1) =
      (va.extractLsb' 31 1).setWidth 64 := by
    apply BitVec.eq_of_toNat_eq
    have small := va.isLt
    rw [BitVec.toNat_and, show ((1#64 <<< (32 - (10 * 2 + 12 - 1))) - 1).toNat = 2 ^ 1 - 1 from rfl,
      Nat.and_two_pow_sub_one_eq_mod, BitVec.toNat_ushiftRight, BitVec.toNat_setWidth,
      BitVec.toNat_setWidth, BitVec.extractLsb'_toNat, Nat.mod_eq_of_lt (show va.toNat < 2 ^ 64 by omega)]
    omega
  dsimp only
  rw [bit]
  obtain zero | one := BitVec.eq_zero_or_eq_one (va.extractLsb' 31 1)
  · rw [zero]
    decide
  · rw [one]
    decide

variable (attached : P.mmuMem = true)

include attached

/-- The walk from some level downwards does what the search and the check of the leaf say. -/
theorem walkLevels_run (ptbase : BitVec 64) (va : BitVec 32) (type : MemoryAccessType)
    (mode : PrivilegeLevel) (level : Nat) (low : level ≤ 2) (page : BitVec 22) (board : Board P)
    (available : board.Available core.hartId)
    (present : Sv32.check (core.rights mode) type.access va
      (Sv32.search board.entries va level page) ≠ .missing) :
    let result := Sv32.check (core.rights mode) type.access va
      (Sv32.search board.entries va level page)
    ∃ time log, (Mmu.walkLevels (bus core input) core ⟨2, 10, 4, ptbase⟩ (va.setWidth 64) type mode
        level (page.setWidth 64 <<< 12)).run board =
      ⟨.ok ((walkAddress P type result).map (·.setWidth 64)),
        { board.walked type result with localTime := time }, log⟩ := by
  induction level generalizing page board with
  | zero => exact ⟨board.localTime, [], rfl⟩
  | succ level inductionHypothesis =>
      intro result
      let address := Sv32.entryAddress page (Sv32.index level va)
      have entries : board.entries address =
          (memoryOffset P (address.setWidth 64) 4).map board.word := rfl
      cases placed : memoryOffset P (address.setWidth 64) 4 with
      | none =>
          refine absurd ?_ present
          rw [Sv32.search]
          rw [show board.entries (Sv32.entryAddress page (Sv32.index level va)) = none by
            rw [entries, placed]; rfl]
          rfl
      | some offset =>
          let entry := board.word offset
          have found : board.entries (Sv32.entryAddress page (Sv32.index level va)) = some entry := by
            rw [entries, placed]
            rfl
          have searched : Sv32.search board.entries va (level + 1) page =
              if Sv32.malformed entry then .fault
              else if Sv32.isPointer entry then
                Sv32.search board.entries va level (Sv32.pageNumber entry)
              else .leaf level address entry := by
            rw [Sv32.search]
            rw [found]
          obtain ⟨read, loaded⟩ := mmuLoadPte32_run core input board available placed
          let after : Board P := { board with localTime := board.localTime + 10 }
          have checks : (!Mmu.pteV (entry.setWidth 64) ||
              (!Mmu.pteR (entry.setWidth 64) && Mmu.pteW (entry.setWidth 64))) =
                Sv32.malformed entry := by
            rw [pteV_eq, pteR_eq, pteW_eq, Sv32.malformed]
          have points : (!Mmu.pteR (entry.setWidth 64) && !Mmu.pteX (entry.setWidth 64)) =
              Sv32.isPointer entry := by
            rw [pteR_eq, pteX_eq, Sv32.isPointer]
          rw [Mmu.walkLevels]
          dsimp only
          rw [bind_run, require_of attached, pure_run, Outcome.andThen_ok, bind_run,
            show page.setWidth 64 <<< 12 + ((va.setWidth 64 >>> (12 + level * 10)) &&&
                ((1#64 <<< 10) - 1)) * 4 = address.setWidth 64 from entryAddress_eq page level va,
            loaded, Outcome.andThen_ok, checks, points]
          cases formed : Sv32.malformed entry with
          | true =>
              have answer : result = .fault := by
                simp only [result, searched, formed, if_true, Sv32.check]
              refine ⟨after.localTime, [] ++ (read ++ []), ?_⟩
              rw [answer]
              rfl
          | false =>
              cases pointer : Sv32.isPointer entry with
              | true =>
                  have next : Sv32.search board.entries va (level + 1) page =
                      Sv32.search after.entries va level (Sv32.pageNumber entry) := by
                    rw [searched, formed, pointer]
                    rfl
                  rw [next] at present
                  obtain ⟨time, log, ran⟩ := inductionHypothesis (by omega) (Sv32.pageNumber entry)
                    after available present
                  refine ⟨time, [] ++ (read ++ log), ?_⟩
                  rw [pageNumber_eq]
                  rw [if_neg Bool.false_ne_true, if_pos rfl, ran]
                  simp only [result, next]
                  exact congrArg (Outcome.mk _ · _) (walked_localTime type _ _ time)
              | false =>
                  have leaf : Sv32.search board.entries va (level + 1) page =
                      .leaf level address entry := by
                    rw [searched, formed, pointer]
                    rfl
                  obtain ⟨time, ran⟩ := leaf_run input type mode va (show level < 2 by omega)
                    (show after.Available core.hartId from available) placed formed
                  refine ⟨time, [] ++ (read ++ []), ?_⟩
                  rw [if_neg Bool.false_ne_true, if_neg Bool.false_ne_true]
                  simp only [result, leaf]
                  erw [ran]
                  exact congrArg (Outcome.mk _ · _) (walked_localTime type _ _ time)

omit attached in
theorem ptbase_eq (core : Core) :
    (Satp.ppn.get core.satp).setWidth 64 <<< 12 = core.rootPage.setWidth 64 <<< 12 := by
  have slice : Satp.ppn.get core.satp = (core.satp.extractLsb' 0 22).setWidth 32 :=
    BitFields.getField_eq_extract 0 22 core.satp (by decide)
  rw [Core.rootPage, slice]
  congr 1
  apply BitVec.eq_of_getLsbD_eq
  intro index inside
  simp only [BitVec.getLsbD_setWidth, BitVec.getLsbD_extractLsb']
  grind

/-- A walk that first has to wait for the bus goes on as one that has it. -/
theorem walkLevels_admitted {admitted : Board P} (admits : board.Admits core.hartId admitted)
    (vm : Mmu.VmInfo) (vaddr : BitVec 64) (type : MemoryAccessType) (mode : PrivilegeLevel)
    (level : Nat) (base : BitVec 64) :
    (Mmu.walkLevels (bus core input) core vm vaddr type mode (level + 1) base).run board =
      (Mmu.walkLevels (bus core input) core vm vaddr type mode (level + 1) base).run admitted := by
  have loads : ∀ address, (mmuLoadPte32 (bus core input) core address).run board =
      (mmuLoadPte32 (bus core input) core address).run admitted := by
    intro address
    rw [mmuLoadPte32, bind_run, bind_run, concreteLoadData]
    rw [admits.run_eq]
  rw [Mmu.walkLevels]
  dsimp only
  rw [require_of attached, bind_run, bind_run, pure_run, pure_run, Outcome.andThen_ok,
    Outcome.andThen_ok, bind_run, bind_run, loads]

/-- How a walk ends: with the physical address, or with the page fault of the access. -/
def walkResult (P : Platform) (type : MemoryAccessType) (va : BitVec 32) (result : Sv32.Result) :
    Except Fault (BitVec 64) :=
  match walkAddress P type result with
  | some physical => .ok (physical.setWidth 64)
  | none => .error (.trap ⟨type.pageFault, va.toNat⟩)

theorem walk_run {admitted : Board P} (admits : board.Admits core.hartId admitted)
    (paged : Satp.mode.get core.satp = 1) {mode : PrivilegeLevel} (low : mode ≤ supervisorMode)
    {type : MemoryAccessType} {va : BitVec 32}
    (present : board.translation core mode type va ≠ .missing) :
    ∃ time log, (Mmu.walk (bus core input) core (va.setWidth 64) type mode).run board =
      ⟨walkResult P type va (board.translation core mode type va),
        { admitted.walked type (board.translation core mode type va) with localTime := time },
        log⟩ := by
  have same : board.translation core mode type va = admitted.translation core mode type va := by
    unfold Board.translation Board.entries Board.word
    rw [admits.memory]
  rw [same] at present ⊢
  obtain ⟨time, log, ran⟩ := walkLevels_run input attached
    ((Satp.ppn.get core.satp).setWidth 64 <<< 12) va type mode 2 (Nat.le_refl 2) core.rootPage
    admitted admits.available present
  refine ⟨time, [] ++ (log ++ []), ?_⟩
  have levels : (if Mmu.checkVaddrExtension (va.setWidth 64)
      ⟨2, 10, 4, (Satp.ppn.get core.satp).setWidth 64 <<< 12⟩ then 2 else 0) = 2 :=
    if_pos (checkVaddrExtension_eq va _)
  rw [← ptbase_eq core] at ran
  unfold Mmu.walk Mmu.decodeVmInfo
  rw [bind_run, bind_run, require_of low, pure_run, Outcome.andThen_ok]
  dsimp only
  rw [if_pos paged, pure_run, Outcome.andThen_ok]
  dsimp only
  rw [levels, bind_run, walkLevels_admitted input attached admits, ran, Outcome.andThen_ok, walkResult]
  unfold Board.translation Sv32.translate
  have number : (va.setWidth 64).toNat = va.toNat := by
    rw [BitVec.toNat_setWidth, Nat.mod_eq_of_lt (Nat.lt_trans va.isLt (by decide))]
  rw [number]
  generalize walkAddress P type _ = found
  cases found with
  | some physical => rfl
  | none => cases type <;> rfl

/-- A walk that never gets the bus never returns, and leaves the board as it was. -/
theorem walk_run_of_blocked (paged : Satp.mode.get core.satp = 1) {mode : PrivilegeLevel}
    (low : mode ≤ supervisorMode)
    (blocked : ((waitForAccessRights core.hartId).run board).result ≠ .ok ()) (va : BitVec 32)
    (type : MemoryAccessType) :
    ∃ log, (Mmu.walk (bus core input) core (va.setWidth 64) type mode).run board =
      ⟨.error .blocked, board, log⟩ := by
  have levels : (if Mmu.checkVaddrExtension (va.setWidth 64)
      ⟨2, 10, 4, (Satp.ppn.get core.satp).setWidth 64 <<< 12⟩ then 2 else 0) = 2 :=
    if_pos (checkVaddrExtension_eq va _)
  have loads : ∀ address, (mmuLoadPte32 (bus core input) core address).run board =
      ⟨.error .blocked, board, []⟩ := by
    intro address
    rw [mmuLoadPte32, bind_run, concreteLoadData, bind_run,
      waitForAccessRights_run_of_blocked blocked, Outcome.andThen_error, Outcome.andThen_error]
  refine ⟨[], ?_⟩
  unfold Mmu.walk Mmu.decodeVmInfo
  rw [bind_run, bind_run, require_of low, pure_run, Outcome.andThen_ok]
  dsimp only
  rw [if_pos paged, pure_run, Outcome.andThen_ok]
  dsimp only
  rw [levels, bind_run, Mmu.walkLevels]
  dsimp only
  rw [bind_run, require_of attached, pure_run, Outcome.andThen_ok, bind_run, loads]
  rfl

end Walk

/-! ## The walk implements the specification -/

/-- The memory after some bytes of it were replaced by a word. -/
structure Board.OnlyWrites (board after : Board P) (offset : Nat) (word : BitVec 32) : Prop where
  inside : after.word offset = word
  outside : ∀ other, other < offset ∨ offset + 4 ≤ other →
    P.clover.byte after.memory other = P.clover.byte board.memory other

/-- What the specification asks of a walk: the physical address and the marked leaf, or the page
fault and the memory as it was. -/
def Implements (type : MemoryAccessType) (va : BitVec 32) (board : Board P)
    (outcome : Outcome Fault (Board P) (Event P.clover.terms) (BitVec 64)) : Sv32.Result → Prop
  | .missing => False
  | .fault =>
      outcome.result = .error (.trap ⟨type.pageFault, va.toNat⟩) ∧
        outcome.state.memory = board.memory
  | .granted physical address entry =>
      outcome.result = .ok (physical.setWidth 64) ∧
        ∃ offset, memoryOffset P (address.setWidth 64) 4 = some offset ∧
          board.word offset = entry ∧
          board.OnlyWrites outcome.state offset (Sv32.marked entry type.access)

variable {board : Board P} {core : Core}

/-- A granted translation rests on an entry of the memory. -/
theorem placed_of_granted {mode : PrivilegeLevel} {type : MemoryAccessType} {va : BitVec 32}
    {physical address : BitVec 34} {entry : BitVec 32}
    (granted : board.translation core mode type va = .granted physical address entry) :
    ∃ offset, memoryOffset P (address.setWidth 64) 4 = some offset ∧ board.word offset = entry := by
  obtain ⟨level, found, -⟩ := Sv32.leaf_of_granted granted
  exact Option.map_eq_some_iff.mp (Sv32.entry_of_search found)

/-- A walk over page tables in the memory does what the specification says. -/
theorem walk_implements_sv32 (lawful : P.clover.Lawful) (attached : P.mmuMem = true)
    (hardware : P.pageFaultOnAD = false) (input : P.clover.terms.Assignment) (core : Core)
    (paged : Satp.mode.get core.satp = 1) {mode : PrivilegeLevel}
    (low : mode = userMode ∨ mode = supervisorMode) (type : MemoryAccessType) (va : BitVec 32)
    (board : Board P) (granted : ((waitForAccessRights core.hartId).run board).result = .ok ())
    (present : board.translation core mode type va ≠ .missing) :
    Implements type va board ((Mmu.walk (bus core input) core (va.setWidth 64) type mode).run board)
      (board.translation core mode type va) := by
  obtain ⟨admitted, admits⟩ := exists_admits granted
  have below : mode ≤ supervisorMode := by
    obtain rfl | rfl := low <;> decide
  obtain ⟨time, log, ran⟩ := walk_run input attached admits paged below present
  rw [ran]
  cases answer : board.translation core mode type va with
  | missing => exact present answer
  | fault => exact ⟨rfl, admits.memory⟩
  | granted physical address entry =>
      obtain ⟨offset, placed, stored⟩ := placed_of_granted answer
      have address' : walkAddress P type (.granted physical address entry) = some physical := by
        simp [walkAddress, hardware]
      refine ⟨by rw [walkResult, address'], offset, placed, stored, ?_⟩
      cases set : isMarked type entry with
      | true =>
          have same : Sv32.marked entry type.access = entry := by
            rw [isMarked, beq_iff_eq] at set
            rw [Sv32.marked, ← set]
            exact Sv32.or_and_self entry _
          have kept : (admitted.walked type (.granted physical address entry)).memory =
              board.memory := by
            simp only [Board.walked, set, Bool.or_true, if_true, admits.memory]
          refine ⟨?_, fun other _ => ?_⟩
          · exact (congrArg (fun memory => (P.clover.load memory offset 4).concrete) kept).trans
              (stored.trans same.symm)
          · exact congrArg (P.clover.byte · other) kept
      | false =>
          have written : (admitted.walked type (.granted physical address entry)).memory =
              board.withWord offset (Sv32.marked entry type.access) := by
            simp only [Board.walked, set, hardware, placed, Bool.or_false, Bool.false_eq_true,
              if_false, Board.withWord, admits.memory]
          refine ⟨?_, fun other outside => ?_⟩
          · exact (congrArg (fun memory => (P.clover.load memory offset 4).concrete) written).trans
              (word_withWord lawful)
          · exact (congrArg (P.clover.byte · other) written).trans (byte_withWord lawful outside)

/-! ## A board to try page tables on -/

/-- The simulator's platform, with the memory interface handed to the translation unit. -/
def pagedPlatform : Platform := { Iss.tryoutPlatform with mmuMem := true }

/-- A memory of words at the given addresses, with zeros between them. -/
def wordMemory (words : List (Nat × BitVec 32)) : pagedPlatform.clover.Memory := fun address =>
  .BVC (Clover.byteOf (address % 4) ((words.lookup (4 * (address / 4))).getD 0))

/-- A board after reset with these words in its memory. -/
def pagedBoard (words : List (Nat × BitVec 32)) : Board pagedPlatform :=
  Iss.initialBoard (wordMemory words) [] ()

/-- A hart whose root page table is in page one. -/
def pagedCore (prv : PrivilegeLevel) (mstatus : BitVec 32) : Core := ⟨0x80000001, mstatus, prv, 0⟩

/-- Every symbolic variable is zero. -/
def pagedInput : pagedPlatform.clover.terms.Assignment := fun _ => 0

/-- Two levels lead from the address `0x401000` to the page with number five. -/
def pagedWords : List (Nat × BitVec 32) := [(0x1004, 0x801), (0x2004, 0x1417)]

/-- A store of the user marks the leaf. -/
theorem walk_implements_sv32_userStore :
    Implements .store 0x401234 (pagedBoard pagedWords)
      ((Mmu.walk (bus (pagedCore userMode 0) pagedInput) (pagedCore userMode 0)
        ((0x401234 : BitVec 32).setWidth 64) .store userMode).run (pagedBoard pagedWords))
      (.granted 0x5234 0x2004 0x1417) := by
  have answer : (pagedBoard pagedWords).translation (pagedCore userMode 0) userMode .store 0x401234 =
      .granted 0x5234 0x2004 0x1417 := by decide +kernel
  have implements := walk_implements_sv32 Clover.reference_lawful rfl rfl pagedInput
    (pagedCore userMode 0) (by decide +kernel) (.inl rfl) .store 0x401234 (pagedBoard pagedWords) rfl
    (by rw [answer]; nofun)
  rwa [answer] at implements

end SymexVP
