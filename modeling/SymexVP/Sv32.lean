import Mathlib.Data.BitVec
import Mathlib.Tactic

/-!
# Sv32 address translation

The translation of the privileged specification: two levels of page tables with 1024
entries each, pages of 4 KiB and aligned superpages of 4 MiB. Page tables are whatever
a memory of 32-bit entries holds, possibly pointing at themselves. A search follows
pointers to a leaf, the leaf's permissions are checked, and a granted access marks the
leaf as accessed and, for a store, as dirty.
-/

namespace Sv32

inductive Access
  | fetch
  | load
  | store
  deriving DecidableEq, Repr

/-- Who accesses the memory, and the two bits that widen the rights of loads and stores. -/
structure Rights where
  supervisor : Bool
  sum : Bool
  mxr : Bool
  deriving DecidableEq, Repr

/-! ## Entries -/

section Entry

variable (entry : BitVec 32)

def valid : Bool := entry.getLsbD 0
def readable : Bool := entry.getLsbD 1
def writable : Bool := entry.getLsbD 2
def executable : Bool := entry.getLsbD 3
def user : Bool := entry.getLsbD 4
def dirty : Bool := entry.getLsbD 7

/-- The number of the page an entry points to. -/
def pageNumber : BitVec 22 := entry.extractLsb' 10 22

/-- Not valid, or writable without being readable. -/
def malformed : Bool := !valid entry || (!readable entry && writable entry)

/-- The entry points to the next page table. -/
def isPointer : Bool := !readable entry && !executable entry

/-- The flags an access sets in a leaf. -/
def flags (access : Access) : BitVec 32 :=
  (1 <<< 6) ||| if access = .store then 1 <<< 7 else 0

/-- The entry after a granted access. -/
def marked (access : Access) : BitVec 32 := entry ||| flags access

/-- The two entries differ in the accessed and dirty flags at most. -/
def SameMapping (entry other : BitVec 32) : Prop :=
  ∀ index, index ≠ 6 → index ≠ 7 → other.getLsbD index = entry.getLsbD index

end Entry

/-! ## The search for a leaf -/

/-- The index into the page table of a level. -/
def index (level : Nat) (va : BitVec 32) : BitVec 10 := va.extractLsb' (12 + 10 * level) 10

/-- The address of an entry of the page table in a page. -/
def entryAddress (page : BitVec 22) (index : BitVec 10) : BitVec 34 := page ++ index ++ 0#2

theorem entryAddress_mod (page : BitVec 22) (index : BitVec 10) :
    (entryAddress page index).toNat % 4 = 0 := by
  rw [entryAddress, BitVec.toNat_append, Nat.shiftLeft_eq, BitVec.toNat_ofNat, Nat.zero_mod,
    Nat.or_zero]
  exact Nat.mul_mod_left _ _

inductive Found
  /-- An entry on the way is not in the memory. -/
  | missing
  | fault
  | leaf (level : Nat) (address : BitVec 34) (entry : BitVec 32)
  deriving DecidableEq, Repr

/-- Follow the page tables from the one in `page`, with `levels` levels left. -/
def search (memory : BitVec 34 → Option (BitVec 32)) (va : BitVec 32) :
    (levels : Nat) → (page : BitVec 22) → Found
  | 0, _ => .fault
  | level + 1, page =>
      let address := entryAddress page (index level va)
      match memory address with
      | none => .missing
      | some entry =>
          if malformed entry then .fault
          else if isPointer entry then search memory va level (pageNumber entry)
          else .leaf level address entry

/-! ## What a leaf grants -/

/-- The kind of access, and the rights of the one who accesses the page. -/
def permits (rights : Rights) (access : Access) (entry : BitVec 32) : Bool :=
  (match access with
    | .fetch => executable entry
    | .load => readable entry || rights.mxr && executable entry
    | .store => writable entry) &&
  if user entry then !rights.supervisor || rights.sum && access != .fetch else rights.supervisor

/-- A superpage has to begin at a multiple of its size. -/
def isAligned (level : Nat) (entry : BitVec 32) : Bool :=
  (pageNumber entry).extractLsb' 0 (10 * level) == 0

/-- The physical address behind a leaf on the last level, or on the one above. -/
def physical : (level : Nat) → (entry : BitVec 32) → (va : BitVec 32) → BitVec 34
  | 0, entry, va => pageNumber entry ++ va.extractLsb' 0 12
  | _, entry, va => (pageNumber entry).extractLsb' 10 12 ++ va.extractLsb' 0 22

inductive Result
  | missing
  | fault
  /-- The physical address, and the leaf with its address before it is marked. -/
  | granted (physical : BitVec 34) (address : BitVec 34) (entry : BitVec 32)
  deriving DecidableEq, Repr

/-- What a leaf yields. -/
def check (rights : Rights) (access : Access) (va : BitVec 32) : Found → Result
  | .missing => .missing
  | .fault => .fault
  | .leaf level address entry =>
      if permits rights access entry && isAligned level entry then
        .granted (physical level entry va) address entry
      else .fault

/-- Translate an address, from the root page table in page `root` on. -/
def translate (memory : BitVec 34 → Option (BitVec 32)) (root : BitVec 22) (rights : Rights)
    (access : Access) (va : BitVec 32) : Result :=
  check rights access va (search memory va 2 root)

/-! ## Leaves -/

section Leaves

variable {memory : BitVec 34 → Option (BitVec 32)} {va : BitVec 32} {levels : Nat}
  {page : BitVec 22} {level : Nat} {address : BitVec 34} {entry : BitVec 32}

/-- A leaf that is found is an entry of the memory, on one of the levels searched. -/
theorem of_search (found : search memory va levels page = .leaf level address entry) :
    memory address = some entry ∧ level < levels ∧ malformed entry = false ∧
      isPointer entry = false := by
  induction levels generalizing page with
  | zero => cases found
  | succ rest inductionHypothesis =>
      rw [search] at found
      split at found
      · cases found
      · next stored =>
          split at found
          · cases found
          · next formed =>
              split at found
              · obtain ⟨known, below, kind⟩ := inductionHypothesis found
                exact ⟨known, Nat.lt_succ_of_lt below, kind⟩
              · next leaf =>
                  cases found
                  exact ⟨stored, Nat.lt_succ_self _, by simpa using formed, by simpa using leaf⟩

theorem entry_of_search (found : search memory va levels page = .leaf level address entry) :
    memory address = some entry := (of_search found).1

theorem address_of_search (found : search memory va levels page = .leaf level address entry) :
    ∃ page index, address = entryAddress page index := by
  induction levels generalizing page with
  | zero => cases found
  | succ rest inductionHypothesis =>
      rw [search] at found
      split at found
      · cases found
      · split at found
        · cases found
        · split at found
          · exact inductionHypothesis found
          · cases found
            exact ⟨_, _, rfl⟩

/-- What is granted is behind a leaf that permits the access. -/
theorem leaf_of_granted {rights : Rights} {access : Access} {physical' : BitVec 34}
    (granted : translate memory page rights access va = .granted physical' address entry) :
    ∃ level, search memory va 2 page = .leaf level address entry ∧
      permits rights access entry = true ∧ isAligned level entry = true ∧
      physical level entry va = physical' := by
  unfold translate check at granted
  split at granted
  · cases granted
  · cases granted
  · next level _ _ found =>
      split at granted
      · next permitted =>
          cases granted
          rw [Bool.and_eq_true] at permitted
          exact ⟨level, found, permitted.1, permitted.2, rfl⟩
      · cases granted

end Leaves

/-- Setting flags that are set changes nothing. -/
theorem or_and_self (entry flags : BitVec 32) : entry ||| entry &&& flags = entry := by
  apply BitVec.eq_of_getLsbD_eq
  intro index inside
  rw [BitVec.getLsbD_or, BitVec.getLsbD_and]
  cases entry.getLsbD index <;> rfl

/-! ## Pages -/

/-- The number of the page a virtual address lies in. -/
def virtualPage (va : BitVec 32) : BitVec 20 := va.extractLsb' 12 20

/-- The number of the physical page behind a leaf. -/
def frame : (level : Nat) → (entry : BitVec 32) → (page : BitVec 20) → BitVec 22
  | 0, entry, _ => pageNumber entry
  | _, entry, page => (pageNumber entry).extractLsb' 10 12 ++ page.extractLsb' 0 10

/-- Addresses of one page keep their offset. -/
theorem physical_eq_append (level : Nat) (entry va : BitVec 32) :
    physical level entry va = frame level entry (virtualPage va) ++ va.extractLsb' 0 12 := by
  cases level with
  | zero => rfl
  | succ level =>
      apply BitVec.eq_of_getLsbD_eq
      intro index inside
      rw [physical, frame, virtualPage]
      · simp only [BitVec.getLsbD_append, BitVec.getLsbD_extractLsb']
        grind
      · nofun
      · nofun

/-- All addresses of a page lead to the same leaf. -/
theorem search_congr {va other : BitVec 32} (same : virtualPage va = virtualPage other)
    (memory : BitVec 34 → Option (BitVec 32)) {levels : Nat} (low : levels ≤ 2)
    (page : BitVec 22) : search memory va levels page = search memory other levels page := by
  induction levels generalizing page with
  | zero => rfl
  | succ level inductionHypothesis =>
      have indices : index level va = index level other := by
        apply BitVec.eq_of_getLsbD_eq
        intro place inside
        have bit := congrArg (·.getLsbD (10 * level + place)) same
        simp only [virtualPage, index, BitVec.getLsbD_extractLsb'] at bit ⊢
        grind
      rw [search, search, indices]
      simp only [inductionHypothesis (by omega)]

/-! ## Tables that only gain flags -/

/-- The second entry maps the same page; it may have an accessed or dirty flag more. -/
structure Gains (entry other : BitVec 32) : Prop where
  mapping : SameMapping entry other
  kept : ∀ index, entry.getLsbD index = true → other.getLsbD index = true

namespace Gains

variable {entry other later : BitVec 32}

theorem refl (entry : BitVec 32) : Gains entry entry := ⟨fun _ _ _ => rfl, fun _ => id⟩

theorem trans (first : Gains entry other) (second : Gains other later) : Gains entry later where
  mapping index notA notD := (second.mapping index notA notD).trans (first.mapping index notA notD)
  kept index set := second.kept index (first.kept index set)

theorem marked (entry : BitVec 32) (access : Access) : Gains entry (marked entry access) where
  mapping index notA notD := by
    have clear : (flags access).getLsbD index = false := by
      have bits : ∀ index < 32, index ≠ 6 → index ≠ 7 → (flags access).getLsbD index = false := by
        cases access <;> decide
      by_cases inside : index < 32
      · exact bits index inside notA notD
      · exact BitVec.getLsbD_of_ge _ _ (Nat.le_of_not_lt inside)
    rw [Sv32.marked, BitVec.getLsbD_or, clear, Bool.or_false]
  kept index set := by
    rw [Sv32.marked, BitVec.getLsbD_or, set, Bool.true_or]

variable (gains : Gains entry other)

include gains

theorem malformed : malformed other = malformed entry := by
  simp only [Sv32.malformed, valid, readable, writable, gains.mapping 0 (by decide) (by decide),
    gains.mapping 1 (by decide) (by decide), gains.mapping 2 (by decide) (by decide)]

theorem readable : readable other = readable entry := gains.mapping 1 (by decide) (by decide)

theorem executable : executable other = executable entry := gains.mapping 3 (by decide) (by decide)

theorem user : user other = user entry := gains.mapping 4 (by decide) (by decide)

theorem isPointer : isPointer other = isPointer entry := by
  rw [Sv32.isPointer, Sv32.isPointer, gains.readable, gains.executable]

theorem pageNumber : pageNumber other = pageNumber entry := by
  apply BitVec.eq_of_getLsbD_eq
  intro index inside
  rw [Sv32.pageNumber, Sv32.pageNumber, BitVec.getLsbD_extractLsb', BitVec.getLsbD_extractLsb',
    gains.mapping (10 + index) (by omega) (by omega)]

theorem permits (rights : Rights) (access : Access) :
    permits rights access other = permits rights access entry := by
  have writable : writable other = writable entry := gains.mapping 2 (by decide) (by decide)
  simp only [Sv32.permits, gains.readable, gains.executable, gains.user, writable]

theorem isAligned (level : Nat) : isAligned level other = isAligned level entry := by
  rw [Sv32.isAligned, Sv32.isAligned, gains.pageNumber]

theorem physical (level : Nat) (va : BitVec 32) : physical level other va = physical level entry va := by
  cases level with
  | zero => rw [Sv32.physical, Sv32.physical, gains.pageNumber]
  | succ level => rw [Sv32.physical, Sv32.physical, gains.pageNumber] <;> nofun

theorem frame (level : Nat) (page : BitVec 20) : frame level other page = frame level entry page := by
  cases level with
  | zero => exact gains.pageNumber
  | succ level => rw [Sv32.frame, Sv32.frame, gains.pageNumber] <;> nofun

/-- Flags that were all set still are. -/
theorem and_flags {mask : BitVec 32} (set : entry &&& mask = mask) : other &&& mask = mask := by
  apply BitVec.eq_of_getLsbD_eq
  intro index inside
  have bit := congrArg (·.getLsbD index) set
  rw [BitVec.getLsbD_and] at bit ⊢
  have kept := gains.kept index
  cases known : mask.getLsbD index with
  | false => exact Bool.and_false _
  | true =>
      rw [known, Bool.and_true] at bit
      rw [kept bit, Bool.true_and]

end Gains

/-- The second search ends where the first one does; its leaf may have gained flags. -/
inductive Found.Kept : Found → Found → Prop
  | missing : Kept .missing .missing
  | fault : Kept .fault .fault
  | leaf (level : Nat) (address : BitVec 34) {entry other : BitVec 32} (gains : Gains entry other) :
      Kept (.leaf level address entry) (.leaf level address other)

theorem Found.Kept.refl (found : Found) : Kept found found := by
  cases found with
  | missing => exact .missing
  | fault => exact .fault
  | leaf level address entry => exact .leaf level address (.refl entry)

/-- Searches through tables whose entries only gain flags end in the same place. -/
theorem search_kept {before after : BitVec 34 → Option (BitVec 32)}
    (entries : ∀ page index, Option.Rel Gains (before (entryAddress page index))
      (after (entryAddress page index)))
    (va : BitVec 32) (levels : Nat) (page : BitVec 22) :
    (search before va levels page).Kept (search after va levels page) := by
  induction levels generalizing page with
  | zero => exact .fault
  | succ level inductionHypothesis =>
      have related := entries page (index level va)
      rw [search, search]
      revert related
      generalize before (entryAddress page (index level va)) = first
      generalize after (entryAddress page (index level va)) = second
      rintro (gains | _)
      · next entry other =>
          dsimp only
          rw [gains.malformed, gains.isPointer, gains.pageNumber]
          split
          · exact .fault
          · split
            · exact inductionHypothesis _
            · exact .leaf level _ gains
      · exact .missing

end Sv32
