import SymexVP.AccessOutcomes
import SymexVP.PageWalks

/-!
# The translation cache

A translation that misses the cache is a page walk, and a walk that returns is kept
under the mode, the type of access and the page. Between two flushes, while the page
tables stay as they are but for flags that are set, a cached translation goes back to
a leaf that once granted this type of access in this mode. What has changed since then
are the bits that widen the rights, and the cache does not ask for them. Of the physical
page it has kept 20 bits only.
-/

namespace SymexVP

open Exec Board MemoryInterface

variable {P : Platform}

/-! ## One translation -/

/-- The board a walk starts from: a translation takes its time first. -/
def Board.later (board : Board P) : Board P := { board with localTime := board.localTime + 30 }

/-- The place of a page in a bank of the cache. -/
def cacheIndex (va : BitVec 32) : Nat := (va.setWidth 64 >>> 12 : BitVec 64).toNat % 256

/-- The page of an address is cached for accesses of a type in a mode. -/
def Board.Cached (board : Board P) (mode : PrivilegeLevel) (type : MemoryAccessType)
    (va : BitVec 32) : Prop :=
  (board.tlb mode type (cacheIndex va)).vpn = va.setWidth 64 >>> 12

instance (board : Board P) (mode : PrivilegeLevel) (type : MemoryAccessType) (va : BitVec 32) :
    Decidable (board.Cached mode type va) := inferInstanceAs (Decidable (_ = _))

/-- The board with a translation put into the cache. -/
def Board.caching (board : Board P) (mode : PrivilegeLevel) (type : MemoryAccessType)
    (va : BitVec 32) (paddr : BitVec 64) : Board P :=
  { board with
    tlb := fun mode' type' index' =>
      if mode' = mode ∧ type' = type ∧ index' = cacheIndex va then
        ⟨paddr &&& Mmu.pageNumberMask, va.setWidth 64 >>> 12⟩
      else board.tlb mode' type' index' }

section Translation

variable {isock : Socket P} {core : Core} {type : MemoryAccessType} {va : BitVec 32}
  {board : Board P}

theorem translate_of_bare (bare : Mmu.Bare core type) :
    (Mmu.translateVirtualToPhysicalAddr isock core (va.setWidth 64) type).run board =
      ⟨.ok (va.setWidth 64), board, []⟩ := by
  unfold Mmu.Bare at bare
  rw [Mmu.translateVirtualToPhysicalAddr]
  dsimp only
  rw [if_pos bare]
  rfl

variable (paged : ¬Mmu.Bare core type)

include paged

/-- Modes other than the user's and the supervisor's are refused. -/
theorem translate_of_high (high : ¬(Mmu.effectiveMode core type = 0 ∨ Mmu.effectiveMode core type = 1)) :
    (Mmu.translateVirtualToPhysicalAddr isock core (va.setWidth 64) type).run board =
      ⟨.error (.assertion "mode == 0 || mode == 1"), board.later, []⟩ := by
  unfold Mmu.Bare at paged
  rw [Mmu.translateVirtualToPhysicalAddr]
  dsimp only
  rw [if_neg paged, bind_run, inc, modify_run, Outcome.andThen_ok, require_of_not high, bind_run]
  rfl

variable (low : Mmu.effectiveMode core type = 0 ∨ Mmu.effectiveMode core type = 1)

include low

theorem translate_of_cached (cached : board.Cached (Mmu.effectiveMode core type) type va) :
    (Mmu.translateVirtualToPhysicalAddr isock core (va.setWidth 64) type).run board =
      ⟨.ok ((board.tlb (Mmu.effectiveMode core type) type (cacheIndex va)).ppn |||
        (va.setWidth 64 &&& 0xfff#64)), board.later, []⟩ := by
  unfold Mmu.Bare at paged
  unfold Board.Cached cacheIndex at cached
  rw [Mmu.translateVirtualToPhysicalAddr]
  dsimp only
  rw [if_neg paged, bind_run, inc, modify_run, Outcome.andThen_ok, require_of low, bind_run, pure_run,
    Outcome.andThen_ok, bind_run, get_run, Outcome.andThen_ok]
  dsimp only
  rw [ite_run, if_pos cached]
  rfl

theorem translate_of_not_cached (missed : ¬board.Cached (Mmu.effectiveMode core type) type va) :
    (Mmu.translateVirtualToPhysicalAddr isock core (va.setWidth 64) type).run board =
      (Mmu.walk isock core (va.setWidth 64) type (Mmu.effectiveMode core type) >>= fun paddr => do
        Exec.modify fun board => board.caching (Mmu.effectiveMode core type) type va paddr
        pure paddr).run board.later := by
  unfold Mmu.Bare at paged
  unfold Board.Cached cacheIndex at missed
  rw [Mmu.translateVirtualToPhysicalAddr]
  dsimp only
  rw [if_neg paged, bind_run, inc, modify_run, Outcome.andThen_ok, require_of low, bind_run, pure_run,
    Outcome.andThen_ok, bind_run, get_run, Outcome.andThen_ok]
  dsimp only
  rw [ite_run, if_neg missed]
  rfl

/-- A translation that misses the cache returns what the walk returns. -/
theorem translate_result_of_not_cached
    (missed : ¬board.Cached (Mmu.effectiveMode core type) type va) :
    ((Mmu.translateVirtualToPhysicalAddr isock core (va.setWidth 64) type).run board).result =
      ((Mmu.walk isock core (va.setWidth 64) type (Mmu.effectiveMode core type)).run
        board.later).result := by
  rw [translate_of_not_cached paged low missed, bind_run]
  generalize (Mmu.walk isock core (va.setWidth 64) type (Mmu.effectiveMode core type)).run
    board.later = outcome
  obtain ⟨result, after, log⟩ := outcome
  cases result <;> rfl

end Translation

/-! ## What the cache keeps of a physical address -/

/-- Addresses of one page differ in their offset only. -/
theorem shifted_eq_iff (va other : BitVec 32) :
    (va.setWidth 64 >>> 12 : BitVec 64) = other.setWidth 64 >>> 12 ↔
      Sv32.virtualPage va = Sv32.virtualPage other := by
  have shifted : ∀ va : BitVec 32,
      (va.setWidth 64 >>> 12 : BitVec 64) = (Sv32.virtualPage va).setWidth 64 := by
    intro va
    apply BitVec.eq_of_getLsbD_eq
    intro index inside
    simp only [Sv32.virtualPage, BitVec.getLsbD_ushiftRight, BitVec.getLsbD_setWidth,
      BitVec.getLsbD_extractLsb']
    grind
  rw [shifted, shifted]
  constructor
  · intro same
    have narrow := congrArg (BitVec.setWidth 20) same
    simpa using narrow
  · intro same
    rw [same]

/-- The cached part of a physical page number. -/
def cachedFrame (frame : BitVec 22) : BitVec 64 := (frame.setWidth 20 ++ 0#12).setWidth 64

/-- Masking a physical address keeps 20 bits of its page number. -/
theorem and_pageNumberMask (frame : BitVec 22) (offset : BitVec 12) :
    (frame ++ offset : BitVec 34).setWidth 64 &&& Mmu.pageNumberMask = cachedFrame frame := by
  have mask : ∀ index, Mmu.pageNumberMask.getLsbD index =
      decide (12 ≤ index ∧ index < 32) := by
    intro index
    by_cases inside : index < 64
    · have bits : ∀ index : Fin 64, Mmu.pageNumberMask.getLsbD index =
          decide (12 ≤ index.val ∧ index.val < 32) := by decide
      exact bits ⟨index, inside⟩
    · rw [BitVec.getLsbD_of_ge _ _ (Nat.le_of_not_lt inside)]
      grind
  apply BitVec.eq_of_getLsbD_eq
  intro index inside
  rw [BitVec.getLsbD_and, mask]
  simp only [cachedFrame, BitVec.getLsbD_append, BitVec.getLsbD_setWidth]
  grind

/-- What a hit makes of it. -/
theorem cachedFrame_or (frame : BitVec 22) (va : BitVec 32) :
    cachedFrame frame ||| (va.setWidth 64 &&& 0xfff#64) =
      (frame.setWidth 20 ++ va.extractLsb' 0 12).setWidth 64 := by
  have offset : ∀ index, (0xfff#64).getLsbD index = decide (index < 12) :=
    fun index => BitFields.getLsbD_lowMask 12 index (by decide)
  generalize 0xfff#64 = offsets at offset ⊢
  apply BitVec.eq_of_getLsbD_eq
  intro index inside
  simp only [cachedFrame, BitVec.getLsbD_or, BitVec.getLsbD_and, BitVec.getLsbD_append,
    BitVec.getLsbD_setWidth, BitVec.getLsbD_extractLsb', offset]
  grind

/-- A hit returns the physical address if its page number fits into 20 bits, and only then. -/
theorem cached_eq_physical_iff (level : Nat) (entry va : BitVec 32) :
    (((Sv32.frame level entry (Sv32.virtualPage va)).setWidth 20 ++ va.extractLsb' 0 12 :
        BitVec 32).setWidth 64 : BitVec 64) = (Sv32.physical level entry va).setWidth 64 ↔
      (Sv32.pageNumber entry).toNat < 2 ^ 20 := by
  have high : ∀ index, 20 ≤ index → (Sv32.frame level entry (Sv32.virtualPage va)).getLsbD index =
      (Sv32.pageNumber entry).getLsbD index := by
    intro index large
    cases level with
    | zero => rfl
    | succ level =>
        rw [Sv32.frame]
        · simp only [BitVec.getLsbD_append, BitVec.getLsbD_extractLsb']
          grind
        · exact Nat.succ_ne_zero level
  have small : (Sv32.pageNumber entry).toNat < 2 ^ 20 ↔
      ∀ index, 20 ≤ index → (Sv32.pageNumber entry).getLsbD index = false := by
    constructor
    · intro below index large
      rw [BitVec.getLsbD]
      exact Nat.testBit_lt_two_pow (Nat.lt_of_lt_of_le below (Nat.pow_le_pow_right (by decide) large))
    · intro clear
      refine Nat.lt_pow_two_of_testBit _ fun index large => ?_
      exact clear index large
  rw [small, Sv32.physical_eq_append]
  generalize Sv32.frame level entry (Sv32.virtualPage va) = frame at high ⊢
  constructor
  · intro same index large
    rw [← high index large]
    by_cases inside : index < 22
    · have bit := congrArg (·.getLsbD (index + 12)) same
      simp only [BitVec.getLsbD_append, BitVec.getLsbD_setWidth, BitVec.getLsbD_extractLsb'] at bit
      grind
    · exact BitVec.getLsbD_of_ge _ _ (Nat.le_of_not_lt inside)
  · intro clear
    apply BitVec.eq_of_getLsbD_eq
    intro index inside
    have bit := clear (index - 12)
    simp only [BitVec.getLsbD_append, BitVec.getLsbD_setWidth, BitVec.getLsbD_extractLsb']
    grind

/-! ## Between two flushes -/

/-- The page tables from a root on lead where they have led before; the flags of a leaf may have
been set. -/
def TablesKept (root : BitVec 22) (before after : Board P) : Prop :=
  ∀ va, (Sv32.search before.entries va 2 root).Kept (Sv32.search after.entries va 2 root)

/-- The boards between two flushes of the cache, while the tables of one root stay as they are.
Translations are those of harts that are `allowed` and find their entries in the memory;
everything else leaves the cache alone. -/
inductive SinceFlush (input : P.clover.terms.Assignment) (allowed : Core → Prop)
    (root : BitVec 22) : Board P → Prop
  | flushed {board : Board P} (empty : ∀ mode type index, board.tlb mode type index = ⟨-1, -1⟩) :
      SinceFlush input allowed root board
  | translated {board : Board P} (earlier : SinceFlush input allowed root board) {core : Core}
      (may : allowed core) (type : MemoryAccessType) (va : BitVec 32)
      (present : board.translation core (Mmu.effectiveMode core type) type va ≠ .missing)
      (kept : TablesKept root board ((Mmu.translateVirtualToPhysicalAddr (bus core input) core
        (va.setWidth 64) type).run board).state) :
      SinceFlush input allowed root ((Mmu.translateVirtualToPhysicalAddr (bus core input) core
        (va.setWidth 64) type).run board).state
  | elsewhere {board after : Board P} (earlier : SinceFlush input allowed root board)
      (tlb : after.tlb = board.tlb) (kept : TablesKept root board after) :
      SinceFlush input allowed root after

/-- What a cached page number goes back to: a leaf that has granted this type of access to
someone in this mode, whose rights were among the `past` ones. -/
inductive GoesBack (P : Platform) (past : Sv32.Rights → Prop) (root : BitVec 22)
    (tables : BitVec 34 → Option (BitVec 32)) (mode : PrivilegeLevel) (type : MemoryAccessType)
    (va : BitVec 32) : BitVec 64 → Prop
  | intro {rights : Sv32.Rights} {level : Nat} {address : BitVec 34} {entry : BitVec 32}
      (known : past rights) (who : rights.supervisor = (mode == supervisorMode))
      (found : Sv32.search tables va 2 root = .leaf level address entry)
      (permitted : Sv32.permits rights type.access entry = true)
      (aligned : Sv32.isAligned level entry = true)
      (marked : P.pageFaultOnAD = true → isMarked type entry = true) :
      GoesBack P past root tables mode type va
        (cachedFrame (Sv32.frame level entry (Sv32.virtualPage va)))

/-- Whatever is cached goes back to a leaf. -/
def CacheSound (past : Sv32.Rights → Prop) (root : BitVec 22) (board : Board P) : Prop :=
  ∀ mode type va, board.Cached mode type va →
    GoesBack P past root board.entries mode type va (board.tlb mode type (cacheIndex va)).ppn

section Cache

variable {past : Sv32.Rights → Prop} {root : BitVec 22} {board after : Board P}
  {mode : PrivilegeLevel} {type : MemoryAccessType} {va : BitVec 32} {ppn : BitVec 64}

/-- A leaf that gained flags grants what it has granted. -/
theorem GoesBack.kept (kept : TablesKept root board after)
    (before : GoesBack P past root board.entries mode type va ppn) :
    GoesBack P past root after.entries mode type va ppn := by
  obtain @⟨rights, level, address, entry, known, who, found, permitted, aligned, marked⟩ := before
  have same := kept va
  rw [found] at same
  generalize later : Sv32.search after.entries va 2 root = reached at same
  cases same with
  | leaf _ _ gains =>
      rw [← gains.frame]
      refine .intro known who later ?_ ?_ fun software => ?_
      · rwa [gains.permits]
      · rwa [gains.isAligned]
      · have set := marked software
        rw [isMarked, beq_iff_eq] at set ⊢
        exact gains.and_flags set

/-- All addresses of a page go back to the same leaf. -/
theorem GoesBack.congr {tables : BitVec 34 → Option (BitVec 32)} {other : BitVec 32}
    (same : Sv32.virtualPage va = Sv32.virtualPage other)
    (back : GoesBack P past root tables mode type va ppn) :
    GoesBack P past root tables mode type other ppn := by
  obtain ⟨known, who, found, permitted, aligned, marked⟩ := back
  rw [same]
  exact .intro known who ((Sv32.search_congr same.symm _ (Nat.le_refl 2) root).trans found)
    permitted aligned marked

theorem CacheSound.kept (sound : CacheSound past root board) (tlb : after.tlb = board.tlb)
    (kept : TablesKept root board after) : CacheSound past root after := by
  intro mode type va cached
  unfold Board.Cached at cached
  rw [tlb] at cached ⊢
  exact (sound mode type va cached).kept kept

/-- Putting a page into the cache that goes back to a leaf keeps the cache sound. -/
theorem CacheSound.caching (sound : CacheSound past root board) {level : Nat}
    {entry : BitVec 32}
    (back : GoesBack P past root board.entries mode type va
      (cachedFrame (Sv32.frame level entry (Sv32.virtualPage va)))) :
    CacheSound past root
      (board.caching mode type va ((Sv32.physical level entry va).setWidth 64)) := by
  intro mode' type' va' cached
  unfold Board.Cached at cached
  by_cases place : mode' = mode ∧ type' = type ∧ cacheIndex va' = cacheIndex va
  · have put : (board.caching mode type va ((Sv32.physical level entry va).setWidth 64)).tlb
        mode' type' (cacheIndex va') =
          ⟨(Sv32.physical level entry va).setWidth 64 &&& Mmu.pageNumberMask,
            va.setWidth 64 >>> 12⟩ := if_pos place
    rw [put] at cached ⊢
    obtain ⟨rfl, rfl, -⟩ := place
    rw [Sv32.physical_eq_append, and_pageNumberMask]
    exact GoesBack.congr ((shifted_eq_iff va va').mp cached) back
  · have other : (board.caching mode type va ((Sv32.physical level entry va).setWidth 64)).tlb
        mode' type' (cacheIndex va') = board.tlb mode' type' (cacheIndex va') := if_neg place
    rw [other] at cached ⊢
    exact sound mode' type' va' cached

theorem walked_tlb (board : Board P) (type : MemoryAccessType) (result : Sv32.Result) :
    (board.walked type result).tlb = board.tlb := by
  unfold Board.walked
  cases result with
  | missing => rfl
  | fault => rfl
  | granted physical address entry =>
      dsimp only
      split
      · rfl
      · split <;> rfl

variable (input : P.clover.terms.Assignment) (attached : P.mmuMem = true) {core : Core}

include attached

/-- A translation that misses the cache walks, and keeps what the walk returns. -/
theorem translate_run_of_not_cached (paged : ¬Mmu.Bare core type)
    (low : Mmu.effectiveMode core type = userMode ∨ Mmu.effectiveMode core type = supervisorMode)
    (missed : ¬board.Cached (Mmu.effectiveMode core type) type va) {admitted : Board P}
    (admits : board.later.Admits core.hartId admitted)
    (present : board.translation core (Mmu.effectiveMode core type) type va ≠ .missing) :
    let result := board.translation core (Mmu.effectiveMode core type) type va
    ∃ time log, (Mmu.translateVirtualToPhysicalAddr (bus core input) core (va.setWidth 64) type).run
        board =
      match walkAddress P type result with
      | some physical =>
          ⟨.ok (physical.setWidth 64),
            ({ admitted.walked type result with localTime := time } : Board P).caching
              (Mmu.effectiveMode core type) type va (physical.setWidth 64), log⟩
      | none =>
          ⟨.error (.trap ⟨type.pageFault, va.toNat⟩),
            { admitted.walked type result with localTime := time }, log⟩ := by
  intro result
  have satp : Satp.mode.get core.satp = 1 :=
    (satp_mode_eq core.satp).resolve_left fun zero => paged (.inl zero)
  have below : Mmu.effectiveMode core type ≤ supervisorMode := by
    obtain user | supervisor := low
    · rw [user]
      decide
    · rw [supervisor]
      decide
  obtain ⟨time, log, ran⟩ := walk_run input attached admits satp below
    (show board.later.translation core _ type va ≠ .missing from present)
  have same : board.later.translation core (Mmu.effectiveMode core type) type va = result := rfl
  rw [translate_of_not_cached paged low missed, bind_run, ran, same, walkResult]
  refine ⟨time, log ++ [], ?_⟩
  cases walkAddress P type result with
  | some physical => rfl
  | none => exact congrArg (Outcome.mk _ _) (List.append_nil log).symm

/-- What a translation does to the cache and to the memory: nothing, or it walks to a leaf, marks
it and caches the page. -/
theorem translate_effect (type : MemoryAccessType) (va : BitVec 32)
    (present : board.translation core (Mmu.effectiveMode core type) type va ≠ .missing) :
    let state := ((Mmu.translateVirtualToPhysicalAddr (bus core input) core
      (va.setWidth 64) type).run board).state
    (state.tlb = board.tlb ∧ state.memory = board.memory) ∨
      ∃ physical address entry,
        board.translation core (Mmu.effectiveMode core type) type va =
          .granted physical address entry ∧
        (P.pageFaultOnAD = true → isMarked type entry = true) ∧
        state.tlb =
          (board.caching (Mmu.effectiveMode core type) type va (physical.setWidth 64)).tlb ∧
        state.memory = (board.walked type (.granted physical address entry)).memory := by
  intro state
  by_cases bare : Mmu.Bare core type
  · exact .inl (by simp only [state, translate_of_bare bare, and_self])
  by_cases low : Mmu.effectiveMode core type = 0 ∨ Mmu.effectiveMode core type = 1
  swap
  · exact .inl (by simp only [state, translate_of_high bare low, Board.later, and_self])
  by_cases cached : board.Cached (Mmu.effectiveMode core type) type va
  · exact .inl (by simp only [state, translate_of_cached bare low cached, Board.later, and_self])
  have paged : Satp.mode.get core.satp = 1 :=
    (satp_mode_eq core.satp).resolve_left fun zero => bare (.inl zero)
  have below : Mmu.effectiveMode core type ≤ supervisorMode := by
    obtain zero | one := low
    · rw [zero]
      decide
    · rw [one]
      decide
  by_cases granted : ((waitForAccessRights core.hartId).run board.later).result = .ok ()
  swap
  · obtain ⟨log, ran⟩ := walk_run_of_blocked input attached paged below granted va type
    have same : state = board.later := by
      simp only [state, translate_of_not_cached bare low cached, bind_run, ran, Outcome.andThen_error]
    rw [same]
    exact .inl ⟨rfl, rfl⟩
  obtain ⟨admitted, admits⟩ := exists_admits granted
  obtain ⟨time, log, ran⟩ := walk_run input attached admits paged below
    (show board.later.translation core _ type va ≠ .missing from present)
  have same : board.later.translation core (Mmu.effectiveMode core type) type va =
      board.translation core (Mmu.effectiveMode core type) type va := rfl
  have tlb : admitted.tlb = board.tlb := admits.tlb
  have memory : admitted.memory = board.memory := admits.memory
  simp only [state, translate_of_not_cached bare low cached, bind_run, ran, same]
  cases answer : board.translation core (Mmu.effectiveMode core type) type va with
  | missing => exact absurd answer present
  | fault => exact .inl ⟨tlb, memory⟩
  | granted physical address entry =>
      cases software : P.pageFaultOnAD && !isMarked type entry with
      | true =>
          have refused : walkAddress P type (.granted physical address entry) = none := by
            rw [walkAddress, software]
            rfl
          have kept : admitted.walked type (.granted physical address entry) = admitted := by
            rw [Bool.and_eq_true] at software
            rw [Board.walked, software.1]
            rfl
          rw [walkResult, refused, kept]
          exact .inl ⟨tlb, memory⟩
      | false =>
          have returned : walkAddress P type (.granted physical address entry) = some physical := by
            rw [walkAddress, software]
            rfl
          rw [walkResult, returned]
          refine .inr ⟨physical, address, entry, rfl, ?_, ?_, ?_⟩
          · intro faults
            rw [faults, Bool.true_and, Bool.not_eq_false'] at software
            exact software
          · funext mode' type' index'
            have walked := congrFun (congrFun (congrFun
              ((walked_tlb admitted type (.granted physical address entry)).trans tlb)
              mode') type') index'
            exact congrArg (ite _ _) walked
          · have written : (admitted.walked type (.granted physical address entry)).memory =
                (board.walked type (.granted physical address entry)).memory := by
              unfold Board.walked
              dsimp only
              split
              · exact memory
              · split
                · exact congrArg (P.clover.store · _ _ _) memory
                · exact memory
            exact written

omit attached in
/-- The page tables are a matter of the memory. -/
theorem TablesKept.of_memory {same : Board P} (memory : same.memory = after.memory)
    (kept : TablesKept root board after) : TablesKept root board same := by
  have entries : same.entries = after.entries := by
    unfold Board.entries Board.word
    rw [memory]
  unfold TablesKept
  rw [entries]
  exact kept

/-- A translation through tables that stay as they are keeps the cache sound. -/
theorem CacheSound.translate (sound : CacheSound past root board) (own : core.rootPage = root)
    (type : MemoryAccessType) (known : past (core.rights (Mmu.effectiveMode core type)))
    (va : BitVec 32)
    (present : board.translation core (Mmu.effectiveMode core type) type va ≠ .missing)
    (kept : TablesKept root board ((Mmu.translateVirtualToPhysicalAddr (bus core input) core
      (va.setWidth 64) type).run board).state) :
    CacheSound past root ((Mmu.translateVirtualToPhysicalAddr (bus core input) core
      (va.setWidth 64) type).run board).state := by
  obtain ⟨tlb, -⟩ | ⟨physical, address, entry, granted, marked, tlb, -⟩ :=
    translate_effect input attached type va present
  · exact sound.kept tlb kept
  · obtain ⟨level, leaf, permitted, aligned, rfl⟩ := Sv32.leaf_of_granted granted
    rw [own] at leaf
    have back : GoesBack P past root board.entries (Mmu.effectiveMode core type) type va _ :=
      .intro known rfl leaf permitted aligned marked
    exact (sound.caching back).kept tlb (kept.of_memory rfl)

/-- Between two flushes whatever is cached goes back to a leaf. -/
theorem cacheSound_of_sinceFlush {allowed : Core → Prop}
    (roots : ∀ core, allowed core → core.rootPage = root)
    (known : ∀ core mode, allowed core → past (core.rights mode))
    (reached : SinceFlush input allowed root board) : CacheSound past root board := by
  induction reached with
  | @flushed board empty =>
      intro mode type va cached
      unfold Board.Cached at cached
      rw [empty] at cached
      refine absurd (congrArg (·.getLsbD 63) cached) ?_
      simp
  | @translated board earlier core may type va present kept sound =>
      exact sound.translate input attached (roots core may) type (known core _ may) va present kept
  | elsewhere earlier tlb kept sound => exact sound.kept tlb kept

/-- How a walk ends whose leaf is known and needs no marking that is left to the software. -/
theorem walk_result_of_leaf (paged : ¬Mmu.Bare core type)
    (low : Mmu.effectiveMode core type ≤ supervisorMode)
    (granted : ((waitForAccessRights core.hartId).run board).result = .ok ())
    {level : Nat} {address : BitVec 34} {entry : BitVec 32}
    (found : Sv32.search board.entries va 2 core.rootPage = .leaf level address entry)
    (aligned : Sv32.isAligned level entry = true)
    (marked : P.pageFaultOnAD = true → isMarked type entry = true) :
    ((Mmu.walk (bus core input) core (va.setWidth 64) type (Mmu.effectiveMode core type)).run
      board).result =
      if Sv32.permits (core.rights (Mmu.effectiveMode core type)) type.access entry then
        .ok ((Sv32.physical level entry va).setWidth 64)
      else .error (.trap ⟨type.pageFault, va.toNat⟩) := by
  have satp : Satp.mode.get core.satp = 1 :=
    (satp_mode_eq core.satp).resolve_left fun zero => paged (.inl zero)
  obtain ⟨admitted, admits⟩ := exists_admits granted
  have checked : board.translation core (Mmu.effectiveMode core type) type va =
      if Sv32.permits (core.rights (Mmu.effectiveMode core type)) type.access entry then
        .granted (Sv32.physical level entry va) address entry
      else .fault := by
    rw [Board.translation, Sv32.translate, found, Sv32.check, aligned, Bool.and_true]
  have present : board.translation core (Mmu.effectiveMode core type) type va ≠ .missing := by
    rw [checked]
    split <;> rintro ⟨⟩
  obtain ⟨time, log, ran⟩ := walk_run input attached admits satp low present
  rw [ran, checked]
  split
  · have returned : walkAddress P type (.granted (Sv32.physical level entry va) address entry) =
        some (Sv32.physical level entry va) := by
      rw [walkAddress]
      cases software : P.pageFaultOnAD with
      | true => rw [marked software]; rfl
      | false => rfl
    rw [walkResult, returned]
  · rfl

end Cache

/-! ## Memories of whole words -/

/-- Every port that leads to the memory starts at a word. -/
def WordPorts (P : Platform) : Prop :=
  ∀ port ∈ P.ports, port.target = .memory → port.start.toNat % 4 = 0

section WordPorts

variable {root : BitVec 22} {board after : Board P}

/-- Entries lie at words of the memory. -/
theorem memoryOffset_mod (words : WordPorts P) {page : BitVec 22} {index : BitVec 10} {offset : Nat}
    (placed : memoryOffset P ((Sv32.entryAddress page index).setWidth 64) 4 = some offset) :
    offset % 4 = 0 := by
  obtain ⟨-, port, -, found, target, rfl, -⟩ := of_memoryOffset placed
  have start := words port (List.mem_of_find?_eq_some found) target
  have address : ((Sv32.entryAddress page index).setWidth 64).toNat % 4 = 0 := by
    have small := (Sv32.entryAddress page index).isLt
    rw [BitVec.toNat_setWidth, Nat.mod_eq_of_lt (Nat.lt_trans small (by decide))]
    exact Sv32.entryAddress_mod page index
  have bound := port.start.isLt
  rw [BitVec.toNat_sub]
  omega

/-- Marking a leaf sets flags of its entry, and of no other. -/
theorem tablesKept_of_marking (lawful : P.clover.Lawful) (words : WordPorts P) {page : BitVec 22}
    {index : BitVec 10} {offset : Nat} (access : Sv32.Access)
    (placed : memoryOffset P ((Sv32.entryAddress page index).setWidth 64) 4 = some offset)
    (memory : after.memory = board.withWord offset (Sv32.marked (board.word offset) access)) :
    TablesKept root board after := by
  intro va
  refine Sv32.search_kept (fun page' index' => ?_) va 2 root
  unfold Board.entries
  cases placed' : memoryOffset P ((Sv32.entryAddress page' index').setWidth 64) 4 with
  | none => exact .none
  | some other =>
      refine .some ?_
      have written : after.word other = ({ board with
          memory := board.withWord offset (Sv32.marked (board.word offset) access) } :
            Board P).word other := by
        rw [Board.word, Board.word, memory]
      have whole := memoryOffset_mod words placed
      have whole' := memoryOffset_mod words placed'
      rw [written]
      by_cases same : other = offset
      · subst same
        rw [word_withWord lawful]
        exact .marked _ access
      · rw [word_withWord_of_apart lawful (by omega)]
        exact .refl _

/-- A translation of any hart, mode and address keeps the tables, whatever their root. -/
theorem tablesKept_translate (lawful : P.clover.Lawful) (words : WordPorts P)
    (attached : P.mmuMem = true) {input : P.clover.terms.Assignment} {core : Core}
    (type : MemoryAccessType) (va : BitVec 32)
    (present : board.translation core (Mmu.effectiveMode core type) type va ≠ .missing) :
    TablesKept root board ((Mmu.translateVirtualToPhysicalAddr (bus core input) core
      (va.setWidth 64) type).run board).state := by
  have same : TablesKept root board board := fun va => .refl _
  obtain ⟨-, memory⟩ | ⟨physical, address, entry, granted, -, -, memory⟩ :=
    translate_effect input attached type va present
  · exact same.of_memory memory
  · obtain ⟨level, found, -⟩ := Sv32.leaf_of_granted granted
    obtain ⟨page, index, rfl⟩ := Sv32.address_of_search found
    obtain ⟨offset, placed, rfl⟩ := placed_of_granted granted
    rw [Board.walked] at memory
    split at memory
    · exact same.of_memory memory
    · rw [placed] at memory
      exact tablesKept_of_marking lawful words type.access placed memory

end WordPorts

/-! ## Hits and walks -/

section Hits

variable {input : P.clover.terms.Assignment} {board : Board P} {core : Core}
  {type : MemoryAccessType} {va : BitVec 32}

/-- The effective mode of an access that is not left alone is the user's or the supervisor's. -/
theorem le_supervisorMode {mode : PrivilegeLevel} (low : mode = userMode ∨ mode = supervisorMode) :
    mode ≤ supervisorMode := by
  obtain rfl | rfl := low <;> decide

theorem granted_later
    (granted : ((waitForAccessRights core.hartId).run board).result = .ok ()) :
    ((waitForAccessRights core.hartId).run board.later).result = .ok () := by
  by_cases available : board.Available core.hartId
  · rw [waitForAccessRights_run (show board.later.Available _ from available)]
  · rw [waitForAccessRights_run_of_not_available available] at granted
    rw [waitForAccessRights_run_of_not_available (show ¬board.later.Available _ from available)]
    rw [waitUntilUnlocked, waitFor, bind_run, bind_run, get_run, Outcome.andThen_ok] at granted ⊢
    cases woken : P.world.waitUnlocked board.world with
    | none =>
        rw [woken] at granted
        cases granted
    | some moved =>
        rw [show board.later.world = board.world from rfl, woken]
        rfl

/-- After any translations since the last flush, with the same `satp` and `mstatus`, a translation
returns what the walk returns, unless the page is cached and its physical page number does not
fit into 20 bits. -/
theorem translate_eq_walk_iff (attached : P.mmuMem = true)
    (reached : SinceFlush input
      (fun other => other.satp = core.satp ∧ other.mstatus = core.mstatus) core.rootPage board)
    (paged : ¬Mmu.Bare core type)
    (low : Mmu.effectiveMode core type = userMode ∨ Mmu.effectiveMode core type = supervisorMode)
    (granted : ((waitForAccessRights core.hartId).run board).result = .ok ()) (va : BitVec 32) :
    ((Mmu.translateVirtualToPhysicalAddr (bus core input) core (va.setWidth 64) type).run
        board).result =
      ((Mmu.walk (bus core input) core (va.setWidth 64) type (Mmu.effectiveMode core type)).run
        board.later).result ↔
    (board.Cached (Mmu.effectiveMode core type) type va →
      ∀ level address entry,
        Sv32.search board.entries va 2 core.rootPage = .leaf level address entry →
          (Sv32.pageNumber entry).toNat < 2 ^ 20) := by
  by_cases cached : board.Cached (Mmu.effectiveMode core type) type va
  swap
  · rw [translate_result_of_not_cached paged low cached]
    exact ⟨fun _ hit => absurd hit cached, fun _ => rfl⟩
  have sound : CacheSound (fun rights => rights.sum = core.mstatus.getLsbD Mstatus.sum.lo ∧
      rights.mxr = core.mstatus.getLsbD Mstatus.mxr.lo) core.rootPage board := by
    refine cacheSound_of_sinceFlush input attached (fun other same => ?_) (fun other mode same => ?_) reached
    · rw [Core.rootPage, Core.rootPage, same.1]
    · rw [Core.rights, same.2]
      exact ⟨rfl, rfl⟩
  rw [translate_of_cached paged low cached]
  obtain back := sound _ _ _ cached
  generalize (board.tlb (Mmu.effectiveMode core type) type (cacheIndex va)).ppn = ppn at back ⊢
  obtain @⟨rights, level, address, entry, ⟨sum, mxr⟩, who, found, permitted, aligned, marked⟩ := back
  have same : rights = core.rights (Mmu.effectiveMode core type) := by
    obtain ⟨supervisor, sum', mxr'⟩ := rights
    obtain rfl := who
    obtain rfl := sum
    obtain rfl := mxr
    rfl
  rw [same] at permitted
  rw [walk_result_of_leaf input attached paged (le_supervisorMode low)
    (granted_later granted) found aligned marked, permitted, if_pos rfl, Except.ok.injEq,
    cachedFrame_or, cached_eq_physical_iff]
  constructor
  · intro small _ level' address' entry' found'
    cases found.symm.trans found'
    exact small
  · intro small
    exact small cached level address entry found

end Hits

section Runs

/-- The board after the first translation since the cache was flushed. -/
def translatedBoard (words : List (Nat × BitVec 32)) (core : Core) (type : MemoryAccessType)
    (va : BitVec 32) : Board pagedPlatform :=
  ((Mmu.translateVirtualToPhysicalAddr (bus core pagedInput) core (va.setWidth 64) type).run
    (pagedBoard words)).state

theorem wordPorts_pagedPlatform : WordPorts pagedPlatform := by
  have ports : ∀ port ∈ pagedPlatform.ports, port.start.toNat % 4 = 0 := by decide
  exact fun port member _ => ports port member

/-- One translation is a run of translations. -/
theorem sinceFlush_translatedBoard {allowed : Core → Prop} {words : List (Nat × BitVec 32)}
    {core : Core} (may : allowed core) (type : MemoryAccessType) (va : BitVec 32)
    (present : (pagedBoard words).translation core (Mmu.effectiveMode core type) type va ≠ .missing)
    (root : BitVec 22) :
    SinceFlush pagedInput allowed root (translatedBoard words core type va) :=
  .translated (.flushed fun _ _ _ => rfl) may type va present
    (tablesKept_translate Clover.reference_lawful wordPorts_pagedPlatform rfl type va present)

/-- A page whose number needs 21 bits is found in another place by the second translation. -/
def highWords : List (Nat × BitVec 32) := [(0x1000, 0x801), (0x2004, 0x400014df)]

theorem translate_ne_walk :
    let core := pagedCore userMode 0
    let board := translatedBoard highWords core .load 0x1234
    SinceFlush pagedInput (fun other => other.satp = core.satp ∧ other.mstatus = core.mstatus)
        core.rootPage board ∧
      ((Mmu.translateVirtualToPhysicalAddr (bus core pagedInput) core 0x1234 .load).run
          (pagedBoard highWords)).result.toOption = some 0x100005234 ∧
      ((Mmu.translateVirtualToPhysicalAddr (bus core pagedInput) core 0x1234 .load).run
          board).result.toOption = some 0x5234 ∧
      ((Mmu.walk (bus core pagedInput) core 0x1234 .load (Mmu.effectiveMode core .load)).run
          board.later).result.toOption = some 0x100005234 :=
  ⟨sinceFlush_translatedBoard ⟨rfl, rfl⟩ .load 0x1234 (by decide +kernel) _, by decide +kernel,
    by decide +kernel, by decide +kernel⟩

/-- A page with a small number is found in the same place. -/
theorem translate_eq_walk_smallPage :
    let core := pagedCore userMode 0
    let board := translatedBoard pagedWords core .load 0x401234
    ((Mmu.translateVirtualToPhysicalAddr (bus core pagedInput) core
        ((0x401234 : BitVec 32).setWidth 64) .load).run board).result =
      ((Mmu.walk (bus core pagedInput) core ((0x401234 : BitVec 32).setWidth 64) .load
        (Mmu.effectiveMode core .load)).run board.later).result := by
  intro core board
  have found : Sv32.search board.entries 0x401234 2 core.rootPage = .leaf 0 0x2004 0x1457 := by
    decide +kernel
  have present : (pagedBoard pagedWords).translation core (Mmu.effectiveMode core .load) .load
      0x401234 ≠ .missing := by decide +kernel
  have free : board.Available core.hartId := by decide +kernel
  refine (translate_eq_walk_iff rfl
    (sinceFlush_translatedBoard ⟨rfl, rfl⟩ .load 0x401234 present core.rootPage)
    (by decide +kernel) (.inl (by decide +kernel)) (by rw [waitForAccessRights_run free])
    0x401234).mpr ?_
  rintro - level address entry leaf
  cases found.symm.trans leaf
  decide

end Runs

section Hits

variable {input : P.clover.terms.Assignment} {board : Board P} {core : Core}
  {type : MemoryAccessType} {va : BitVec 32}

/-- Someone who might once use a page may not use it any more: the supervisor has lost the right
to the user's pages, or loads have lost the right to pages that are executable only. -/
def Stale (core : Core) (type : MemoryAccessType) (entry : BitVec 32) : Prop :=
  (Mmu.effectiveMode core type = supervisorMode ∧ Sv32.user entry = true ∧
      core.mstatus.getLsbD Mstatus.sum.lo = false) ∨
    (type = .load ∧ Sv32.readable entry = false ∧ core.mstatus.getLsbD Mstatus.mxr.lo = false)

/-- What has been permitted in a mode is refused now exactly if it is stale. -/
theorem not_permits_iff_stale {rights : Sv32.Rights} {entry : BitVec 32}
    (who : rights.supervisor = (Mmu.effectiveMode core type == supervisorMode))
    (permitted : Sv32.permits rights type.access entry = true) :
    Sv32.permits (core.rights (Mmu.effectiveMode core type)) type.access entry = false ↔
      Stale core type entry := by
  unfold Stale Core.rights
  rw [show Mmu.effectiveMode core type = supervisorMode ↔ rights.supervisor = true by
    rw [who, beq_iff_eq], ← who]
  clear who
  obtain ⟨supervisor, sum, mxr⟩ := rights
  unfold Sv32.permits at permitted ⊢
  generalize core.mstatus.getLsbD Mstatus.sum.lo = sum'
  generalize core.mstatus.getLsbD Mstatus.mxr.lo = mxr'
  generalize Sv32.readable entry = readable at permitted ⊢
  generalize Sv32.writable entry = writable at permitted ⊢
  generalize Sv32.executable entry = executable at permitted ⊢
  generalize Sv32.user entry = user at permitted ⊢
  revert permitted
  cases type <;> revert readable writable executable user supervisor sum mxr sum' mxr' <;> decide

/-- A computation that returns. -/
def Succeeds {α : Type} (outcome : Outcome Fault (Board P) (Event P.clover.terms) α) : Prop :=
  ∃ value, outcome.result = .ok value

/-- After any translations since the last flush, whatever `mstatus` has been, a translation
succeeds just when the walk does, unless the page is cached and the leaf is stale. -/
theorem translate_succeeds_iff_walk (attached : P.mmuMem = true)
    (reached : SinceFlush input (fun other => other.satp = core.satp) core.rootPage board)
    (paged : ¬Mmu.Bare core type)
    (low : Mmu.effectiveMode core type = userMode ∨ Mmu.effectiveMode core type = supervisorMode)
    (granted : ((waitForAccessRights core.hartId).run board).result = .ok ()) (va : BitVec 32) :
    (Succeeds ((Mmu.translateVirtualToPhysicalAddr (bus core input) core (va.setWidth 64) type).run
        board) ↔
      Succeeds ((Mmu.walk (bus core input) core (va.setWidth 64) type
        (Mmu.effectiveMode core type)).run board.later)) ↔
    ¬(board.Cached (Mmu.effectiveMode core type) type va ∧
      ∃ level address entry,
        Sv32.search board.entries va 2 core.rootPage = .leaf level address entry ∧
          Stale core type entry) := by
  by_cases cached : board.Cached (Mmu.effectiveMode core type) type va
  swap
  · unfold Succeeds
    rw [translate_result_of_not_cached paged low cached]
    exact ⟨fun _ hit => cached hit.1, fun _ => Iff.rfl⟩
  have sound : CacheSound (fun _ => True) core.rootPage board := by
    refine cacheSound_of_sinceFlush input attached (fun other same => ?_) (fun _ _ _ => trivial) reached
    rw [Core.rootPage, Core.rootPage, same]
  have hit : Succeeds ((Mmu.translateVirtualToPhysicalAddr (bus core input) core (va.setWidth 64)
      type).run board) := ⟨_, by rw [translate_of_cached paged low cached]⟩
  obtain back := sound _ _ _ cached
  generalize (board.tlb (Mmu.effectiveMode core type) type (cacheIndex va)).ppn = ppn at back
  obtain @⟨rights, level, address, entry, -, who, found, permitted, aligned, marked⟩ := back
  have stale := not_permits_iff_stale who permitted
  have walked := walk_result_of_leaf input attached paged
    (le_supervisorMode low) (granted_later granted) found aligned marked
  have only : (∃ level address entry,
      Sv32.search board.entries va 2 core.rootPage = .leaf level address entry ∧
        Stale core type entry) ↔ Stale core type entry := by
    constructor
    · rintro ⟨_, _, _, found', refused⟩
      cases found.symm.trans found'
      exact refused
    · exact fun refused => ⟨level, address, entry, found, refused⟩
  rw [only, ← stale]
  have walks : Succeeds ((Mmu.walk (bus core input) core (va.setWidth 64) type
      (Mmu.effectiveMode core type)).run board.later) ↔
        Sv32.permits (core.rights (Mmu.effectiveMode core type)) type.access entry = true := by
    unfold Succeeds
    rw [walked]
    split
    · next granted => exact ⟨fun _ => granted, fun _ => ⟨_, rfl⟩⟩
    · next refused =>
        refine ⟨?_, fun granted => absurd granted refused⟩
        rintro ⟨_, ⟨⟩⟩
  rw [walks]
  simp [hit, cached]

end Hits

section Runs

/-- The supervisor may use a page of the user while `SUM` is set, and goes on when it is not. -/
theorem translate_succeeds_after_sum :
    let core := pagedCore supervisorMode 0
    let board := translatedBoard pagedWords (pagedCore supervisorMode 0x40000) .load 0x401234
    SinceFlush pagedInput (fun other => other.satp = core.satp) core.rootPage board ∧
      ((Mmu.translateVirtualToPhysicalAddr (bus core pagedInput) core 0x401234 .load).run
          board).result.toOption = some 0x5234 ∧
      ((Mmu.walk (bus core pagedInput) core 0x401234 .load (Mmu.effectiveMode core .load)).run
          board.later).result.toOption = none :=
  have present : (pagedBoard pagedWords).translation (pagedCore supervisorMode 0x40000)
      (Mmu.effectiveMode (pagedCore supervisorMode 0x40000) .load) .load 0x401234 ≠ .missing := by
    decide +kernel
  ⟨sinceFlush_translatedBoard (by rfl) .load 0x401234 present _, by decide +kernel, by decide +kernel⟩

/-- While `SUM` stays set the translation and the walk agree. -/
theorem translate_succeeds_iff_walk_sum :
    let core := pagedCore supervisorMode 0x40000
    let board := translatedBoard pagedWords core .load 0x401234
    Succeeds ((Mmu.translateVirtualToPhysicalAddr (bus core pagedInput) core
        ((0x401234 : BitVec 32).setWidth 64) .load).run board) ↔
      Succeeds ((Mmu.walk (bus core pagedInput) core ((0x401234 : BitVec 32).setWidth 64) .load
        (Mmu.effectiveMode core .load)).run board.later) := by
  intro core board
  have found : Sv32.search board.entries 0x401234 2 core.rootPage = .leaf 0 0x2004 0x1457 := by
    decide +kernel
  have present : (pagedBoard pagedWords).translation core (Mmu.effectiveMode core .load) .load
      0x401234 ≠ .missing := by decide +kernel
  have free : board.Available core.hartId := by decide +kernel
  refine (translate_succeeds_iff_walk rfl
    (sinceFlush_translatedBoard (by rfl) .load 0x401234 present core.rootPage)
    (by decide +kernel) (.inr (by decide +kernel)) (by rw [waitForAccessRights_run free])
    0x401234).mpr ?_
  rintro ⟨-, level, address, entry, leaf, stale⟩
  cases found.symm.trans leaf
  obtain ⟨-, -, clear⟩ | ⟨-, clear, -⟩ := stale
  · revert clear
    decide
  · revert clear
    decide

end Runs

end SymexVP
