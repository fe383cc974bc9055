import SymexVP.ElfLoader

/-!
# When an image is loaded exactly

An image is in the memory when each of its segments that starts there is, the bytes of the
file first and zeros behind them, and nothing else has been written; it is refused when a
segment does not fit. The loader compares ends in 32 bits and strictly: a segment that ends
with the memory is refused, one whose end wraps around is not, and a memory at the end of
the address space is left as it is.
-/

namespace SymexVP.ElfLoader

open Exec

section Segments

variable (elf : ElfFile) (size offset : BitVec 32) (useVaddr : Bool)

/-- A segment to be loaded starts in the memory. -/
def StartsInside (p : Elf32Phdr) : Prop :=
  p.pType = PT_LOAD ∧ offset.toNat ≤ (addr useVaddr p).toNat ∧
    (addr useVaddr p).toNat < offset.toNat + size.toNat

/-- It has bytes in the memory. -/
def Present (p : Elf32Phdr) : Prop := StartsInside size offset useVaddr p ∧ 0 < p.pMemsz.toNat

/-- Where a segment ends, in the integers. -/
def segmentEnd (p : Elf32Phdr) : Nat := (addr useVaddr p).toNat + p.pMemsz.toNat

/-- A segment that has to be refused. -/
def Unfit (p : Elf32Phdr) : Prop :=
  p.pMemsz.toNat < p.pFilesz.toNat ∨ offset.toNat + size.toNat < segmentEnd useVaddr p

instance (p : Elf32Phdr) : Decidable (Unfit size offset useVaddr p) :=
  inferInstanceAs (Decidable (_ ∨ _))

def Apart (p q : Elf32Phdr) : Prop :=
  segmentEnd useVaddr p ≤ (addr useVaddr q).toNat ∨ segmentEnd useVaddr q ≤ (addr useVaddr p).toNat

/-- No two segments share an address of the memory. -/
def SegmentsDisjoint : Prop :=
  elf.phdrs.Pairwise fun p q => Present size offset useVaddr p → Present size offset useVaddr q →
    Apart useVaddr p q

/-- The index of a segment in the memory. -/
def indexOf (p : Elf32Phdr) : Nat := (addr useVaddr p).toNat - offset.toNat

def contentOf (p : Elf32Phdr) (k : Nat) : BitVec 8 :=
  if k < p.pFilesz.toNat then elf.data (p.pOffset.toNat + k) else 0

/-- No byte of the segment is at this index. -/
def Misses (p : Elf32Phdr) (address : Nat) : Prop :=
  address < indexOf offset useVaddr p ∨ indexOf offset useVaddr p + p.pMemsz.toNat ≤ address

/-- The segments are in the memory, and nothing else has been written. -/
structure ImageIn {clover : Clover} (before after : clover.Memory) (log : List Event) : Prop where
  contents : ∀ p ∈ elf.phdrs, Present size offset useVaddr p → ∀ k < p.pMemsz.toNat,
    Holds after (indexOf offset useVaddr p + k) (contentOf elf p k)
  others : ∀ address, (∀ p ∈ elf.phdrs, Present size offset useVaddr p →
    Misses offset useVaddr p address) → clover.byte after address = clover.byte before address
  written : ∀ address, .store address ∈ log → address < size.toNat

/-- The image is refused if a segment has to be, and otherwise, unless segments overlap, it is
in the memory. -/
def LoadsExactly (clover : Clover) : Prop :=
  ∀ memory : clover.Memory,
    let outcome := (loadExecutableImage elf size offset useVaddr).run memory
    ((∃ fault, outcome.result = .error fault) ↔
      ∃ p ∈ elf.phdrs, Present size offset useVaddr p ∧ Unfit size offset useVaddr p) ∧
    ((¬∃ p ∈ elf.phdrs, Present size offset useVaddr p ∧ Unfit size offset useVaddr p) →
      SegmentsDisjoint elf size offset useVaddr →
      ImageIn elf size offset useVaddr memory outcome.state outcome.log)

/-! ## One segment -/

/-- The comparison that decides whether a segment is skipped. -/
def Covered (p : Elf32Phdr) : Prop := offset ≤ addr useVaddr p ∧ addr useVaddr p < offset + size

/-- The assertions about a segment that is not skipped. -/
def Accepted (p : Elf32Phdr) : Prop :=
  addr useVaddr p + p.pMemsz < offset + size ∧ p.pFilesz ≤ p.pMemsz

variable {elf size offset useVaddr} {clover : Clover} {p : Elf32Phdr}

theorem loadSection_of_not_covered (skipped : ¬Covered size offset useVaddr p) :
    (loadSection elf size offset useVaddr p : LoaderM clover Unit) = pure () := if_pos skipped

theorem loadSection_of_accepted (covered : Covered size offset useVaddr p)
    (accepted : Accepted size offset useVaddr p) :
    (loadSection elf size offset useVaddr p : LoaderM clover Unit) = (do
      loadData (fun i => elf.data (p.pOffset.toNat + i))
        ((addr useVaddr p - offset).setWidth 64) p.pFilesz.toNat
      loadZero ((addr useVaddr p - offset + p.pFilesz).setWidth 64)
        (p.pMemsz - p.pFilesz).toNat) := by
  have inside : offset ≤ addr useVaddr p ∧ addr useVaddr p < offset + size := covered
  unfold loadSection
  dsimp only
  rw [if_neg (not_not.mpr inside), require_of covered.1, require_of accepted.1,
    require_of accepted.2]
  rfl

/-- A segment that is skipped or accepted is passed. -/
theorem returns_loadSection
    (passes : Covered size offset useVaddr p → Accepted size offset useVaddr p)
    (before : clover.Memory) :
    ∃ after log, Returns (loadSection elf size offset useVaddr p) before () after log := by
  by_cases covered : Covered size offset useVaddr p
  · rw [loadSection_of_accepted covered (passes covered)]
    obtain ⟨middle, log, copied⟩ := returns_storeEach _ _ 0 _ before
    obtain ⟨after, log', cleared⟩ := returns_storeEach _ _ 0 _ middle
    exact ⟨after, log ++ log', returns_bind_iff.mpr ⟨(), middle, log, log', copied, cleared, rfl⟩⟩
  · rw [loadSection_of_not_covered covered]
    exact ⟨before, [], rfl⟩

/-- A segment that is neither ends the loading. -/
theorem loadSection_error (covered : Covered size offset useVaddr p)
    (refused : ¬Accepted size offset useVaddr p) (memory : clover.Memory) :
    ∃ fault, ((loadSection elf size offset useVaddr p).run memory).result = .error fault := by
  have inside : offset ≤ addr useVaddr p ∧ addr useVaddr p < offset + size := covered
  unfold loadSection
  dsimp only
  rw [if_neg (not_not.mpr inside), require_of covered.1]
  by_cases fits : addr useVaddr p + p.pMemsz < offset + size
  · have short : ¬p.pFilesz ≤ p.pMemsz := fun less => refused ⟨fits, less⟩
    obtain ⟨middle, log, copied⟩ := returns_storeEach (fun i => elf.data (p.pOffset.toNat + i))
      ((addr useVaddr p - offset).setWidth 64) 0 p.pFilesz.toNat memory
    rw [require_of fits, require_of_not short]
    refine ⟨.assertion "p->p_memsz >= p->p_filesz", ?_⟩
    rw [bind_run, pure_run, Outcome.andThen_ok, bind_run, pure_run, Outcome.andThen_ok, bind_run,
      show (loadData _ _ _).run memory = _ from copied]
    rfl
  · rw [require_of_not fits]
    exact ⟨.assertion "Section does not fit in target memory", rfl⟩

theorem loadSections_error_iff (ps : List Elf32Phdr) (memory : clover.Memory) :
    (∃ fault, ((loadSections elf size offset useVaddr ps).run memory).result = .error fault) ↔
      ∃ p ∈ ps, Covered size offset useVaddr p ∧ ¬Accepted size offset useVaddr p := by
  induction ps generalizing memory with
  | nil =>
      constructor
      · rintro ⟨fault, failed⟩
        cases failed
      · rintro ⟨p, member, _⟩
        cases member
  | cons p rest inductionHypothesis =>
      rw [List.exists_mem_cons_iff]
      by_cases refused : Covered size offset useVaddr p ∧ ¬Accepted size offset useVaddr p
      · obtain ⟨fault, failed⟩ := loadSection_error refused.1 refused.2 memory
        refine iff_of_true ⟨fault, ?_⟩ (.inl refused)
        rw [loadSections, bind_run]
        generalize (loadSection elf size offset useVaddr p).run memory = outcome at failed
        obtain ⟨result, state, log⟩ := outcome
        cases failed
        rfl
      · have passes : Covered size offset useVaddr p → Accepted size offset useVaddr p :=
          fun covered => not_not.mp fun not => refused ⟨covered, not⟩
        obtain ⟨after, log, returned⟩ := returns_loadSection passes memory
        rw [or_iff_right refused, ← inductionHypothesis after, loadSections, bind_run,
          show (loadSection elf size offset useVaddr p).run memory = _ from returned,
          Outcome.andThen_ok]

/-! ## The segments of an image -/

/-- An accepted segment whose end does not wrap around is placed inside the memory. -/
theorem placed_loadSection (lawful : clover.Lawful) (low : offset.toNat + size.toNat < 2 ^ 32)
    (covered : Covered size offset useVaddr p) (accepted : Accepted size offset useVaddr p)
    (short : segmentEnd useVaddr p < 2 ^ 32) (before : clover.Memory) :
    ∃ after log, Returns (loadSection elf size offset useVaddr p) before () after log ∧
      Placed (contentOf elf p) (indexOf offset useVaddr p) p.pMemsz.toNat before after ∧
      ∀ address, .store address ∈ log → address < size.toNat := by
  have start : (addr useVaddr p - offset).toNat = indexOf offset useVaddr p :=
    BitVec.toNat_sub_of_le covered.1
  have less : p.pFilesz.toNat ≤ p.pMemsz.toNat := BitVec.le_def.mp accepted.2
  have above : offset.toNat ≤ (addr useVaddr p).toNat := BitVec.le_def.mp covered.1
  have ends : segmentEnd useVaddr p < offset.toNat + size.toNat := by
    have smaller := BitVec.lt_def.mp accepted.1
    unfold segmentEnd at short
    rwa [BitVec.toNat_add, BitVec.toNat_add, Nat.mod_eq_of_lt low, Nat.mod_eq_of_lt short]
      at smaller
  have inside : indexOf offset useVaddr p + p.pMemsz.toNat < size.toNat := by
    unfold segmentEnd at ends
    unfold indexOf
    omega
  have bound := size.isLt
  have dst : ((addr useVaddr p - offset).setWidth 64).toNat = indexOf offset useVaddr p := by
    rw [BitVec.toNat_setWidth, start]
    exact Nat.mod_eq_of_lt (by omega)
  have dst' : ((addr useVaddr p - offset + p.pFilesz).setWidth 64).toNat =
      indexOf offset useVaddr p + p.pFilesz.toNat := by
    rw [BitVec.toNat_setWidth, BitVec.toNat_add, start, Nat.mod_eq_of_lt (by omega)]
    exact Nat.mod_eq_of_lt (by omega)
  have count : (p.pMemsz - p.pFilesz).toNat = p.pMemsz.toNat - p.pFilesz.toNat :=
    BitVec.toNat_sub_of_le accepted.2
  rw [loadSection_of_accepted covered accepted, count]
  obtain ⟨middle, log, copied, data, writes⟩ := placed_storeEach lawful
    (fun i => elf.data (p.pOffset.toNat + i)) ((addr useVaddr p - offset).setWidth 64) 0
    p.pFilesz.toNat (by omega) before
  obtain ⟨after, log', cleared, zeros, writes'⟩ := placed_storeEach lawful (fun _ => 0)
    ((addr useVaddr p - offset + p.pFilesz).setWidth 64) 0 (p.pMemsz.toNat - p.pFilesz.toNat)
    (by omega) middle
  rw [dst, Nat.add_zero] at data
  rw [dst', Nat.add_zero] at zeros
  refine ⟨after, log ++ log', returns_bind_iff.mpr ⟨(), middle, log, log', copied, cleared, rfl⟩,
    ?_, ?_⟩
  · rw [← Nat.add_sub_cancel' less]
    refine (data.congr ?_).append (zeros.congr ?_)
    · intro k early
      rw [contentOf, if_pos early, Nat.zero_add]
    · intro k _
      rw [contentOf, if_neg (by omega)]
  · intro address member
    rcases List.mem_append.mp member with early | late
    · have range := writes address early
      omega
    · have range := writes' address late
      omega

/-- What loading does when no assertion fails and no end wraps around. -/
theorem returns_loadSections (lawful : clover.Lawful) (low : offset.toNat + size.toNat < 2 ^ 32)
    (ps : List Elf32Phdr)
    (accepted : ∀ p ∈ ps, Covered size offset useVaddr p →
      Accepted size offset useVaddr p ∧ segmentEnd useVaddr p < 2 ^ 32)
    (disjoint : ps.Pairwise fun p q => Covered size offset useVaddr p →
      Covered size offset useVaddr q → Apart useVaddr p q)
    (before : clover.Memory) :
    ∃ after log, Returns (loadSections elf size offset useVaddr ps) before () after log ∧
      (∀ p ∈ ps, Covered size offset useVaddr p → ∀ k < p.pMemsz.toNat,
        Holds after (indexOf offset useVaddr p + k) (contentOf elf p k)) ∧
      (∀ address, (∀ p ∈ ps, Covered size offset useVaddr p → Misses offset useVaddr p address) →
        clover.byte after address = clover.byte before address) ∧
      ∀ address, .store address ∈ log → address < size.toNat := by
  induction ps generalizing before with
  | nil => exact ⟨before, [], rfl, nofun, fun _ _ => rfl, nofun⟩
  | cons p rest inductionHypothesis =>
      rw [List.pairwise_cons] at disjoint
      rw [List.forall_mem_cons] at accepted
      by_cases covered : Covered size offset useVaddr p
      · obtain ⟨middle, log, returned, placed, written⟩ := placed_loadSection lawful low covered
          (accepted.1 covered).1 (accepted.1 covered).2 before
        obtain ⟨after, log', returned', contents, others, written'⟩ :=
          inductionHypothesis accepted.2 disjoint.2 middle
        refine ⟨after, log ++ log',
          returns_bind_iff.mpr ⟨(), middle, log, log', returned, returned', rfl⟩, ?_, ?_, ?_⟩
        · rw [List.forall_mem_cons]
          refine ⟨fun _ k less => (placed.inside k less).congr (others _ ?_), contents⟩
          intro q member coveredBy
          have apart := disjoint.1 q member covered coveredBy
          have above := BitVec.le_def.mp covered.1
          have above' := BitVec.le_def.mp coveredBy.1
          unfold Misses indexOf
          unfold Apart segmentEnd at apart
          omega
        · intro address misses
          rw [List.forall_mem_cons] at misses
          rw [others address misses.2, placed.outside address (misses.1 covered)]
        · intro address member
          rcases List.mem_append.mp member with early | late
          · exact written address early
          · exact written' address late
      · obtain ⟨after, log, returned, contents, others, written⟩ :=
          inductionHypothesis accepted.2 disjoint.2 before
        refine ⟨after, log, ?_, ?_, ?_, written⟩
        · rw [loadSections, loadSection_of_not_covered covered]
          exact returned
        · rw [List.forall_mem_cons]
          exact ⟨fun covered' => absurd covered' covered, contents⟩
        · intro address misses
          rw [List.forall_mem_cons] at misses
          exact others address misses.2

/-! ## Images that are refused -/

section Refused

variable (size offset useVaddr)

/-- A segment that is refused in a memory that does not reach the end of the address space. -/
def Refused (p : Elf32Phdr) : Prop :=
  p.pMemsz.toNat < p.pFilesz.toNat ∨
    offset.toNat + size.toNat ≤ segmentEnd useVaddr p ∧ segmentEnd useVaddr p < 2 ^ 32

end Refused

theorem mem_getLoadSections :
    p ∈ getLoadSections elf ↔ p ∈ elf.phdrs ∧ p.pType = PT_LOAD ∧
      ¬(p.pFilesz.toNat = 0 ∧ p.pMemsz.toNat = 0) := by
  rw [getLoadSections, List.mem_filter, decide_eq_true_iff, ← BitVec.toNat_inj, ← BitVec.toNat_inj,
    ← BitVec.toNat_inj]
  rfl

theorem covered_iff (low : offset.toNat + size.toNat < 2 ^ 32) :
    Covered size offset useVaddr p ↔ offset.toNat ≤ (addr useVaddr p).toNat ∧
      (addr useVaddr p).toNat < offset.toNat + size.toNat := by
  rw [Covered, BitVec.le_def, BitVec.lt_def, BitVec.toNat_add, Nat.mod_eq_of_lt low]

/-- The comparison of the ends wraps around with the end of the segment. -/
theorem accepted_iff (low : offset.toNat + size.toNat < 2 ^ 32)
    (covered : Covered size offset useVaddr p) :
    Accepted size offset useVaddr p ↔ ¬Refused size offset useVaddr p := by
  have inside := ((covered_iff low).mp covered).2
  have bound := p.pMemsz.isLt
  rw [Accepted, BitVec.lt_def, BitVec.le_def, BitVec.toNat_add, BitVec.toNat_add,
    Nat.mod_eq_of_lt low]
  unfold Refused segmentEnd
  by_cases wraps : (addr useVaddr p).toNat + p.pMemsz.toNat < 2 ^ 32
  · rw [Nat.mod_eq_of_lt wraps]
    omega
  · have rest : ((addr useVaddr p).toNat + p.pMemsz.toNat) % 2 ^ 32 =
        (addr useVaddr p).toNat + p.pMemsz.toNat - 2 ^ 32 := by omega
    rw [rest]
    omega

/-- The image is refused when one of its segments is. -/
theorem refused_iff (low : offset.toNat + size.toNat < 2 ^ 32) (memory : clover.Memory) :
    (∃ fault, ((loadExecutableImage elf size offset useVaddr).run memory).result =
        .error fault) ↔
      ∃ p ∈ elf.phdrs, StartsInside size offset useVaddr p ∧ Refused size offset useVaddr p := by
  rw [loadExecutableImage, loadSections_error_iff]
  constructor
  · rintro ⟨p, member, covered, refused⟩
    obtain ⟨listed, loadable, _⟩ := mem_getLoadSections.mp member
    exact ⟨p, listed, ⟨loadable, (covered_iff low).mp covered⟩,
      not_not.mp (mt (accepted_iff low covered).mpr refused)⟩
  · rintro ⟨p, listed, ⟨loadable, inside⟩, refused⟩
    have covered : Covered size offset useVaddr p := (covered_iff low).mpr inside
    refine ⟨p, mem_getLoadSections.mpr ⟨listed, loadable, ?_⟩, covered,
      fun accepted => (accepted_iff low covered).mp accepted refused⟩
    unfold Refused segmentEnd at refused
    omega

/-- An image none of whose segments is refused or has to be is loaded. -/
theorem image_loaded (lawful : clover.Lawful) (low : offset.toNat + size.toNat < 2 ^ 32)
    (passes : ¬∃ p ∈ elf.phdrs, StartsInside size offset useVaddr p ∧
      Refused size offset useVaddr p)
    (fits : ¬∃ p ∈ elf.phdrs, Present size offset useVaddr p ∧ Unfit size offset useVaddr p)
    (disjoint : SegmentsDisjoint elf size offset useVaddr) (memory : clover.Memory) :
    let outcome := (loadExecutableImage elf size offset useVaddr).run memory
    ImageIn elf size offset useVaddr memory outcome.state outcome.log := by
  have present : ∀ p ∈ getLoadSections elf, Covered size offset useVaddr p →
      Present size offset useVaddr p ∧ ¬Refused size offset useVaddr p := by
    intro p member covered
    obtain ⟨listed, loadable, some⟩ := mem_getLoadSections.mp member
    have starts : StartsInside size offset useVaddr p := ⟨loadable, (covered_iff low).mp covered⟩
    have accepted : ¬Refused size offset useVaddr p :=
      fun refused => passes ⟨p, listed, starts, refused⟩
    refine ⟨⟨starts, ?_⟩, accepted⟩
    unfold Refused at accepted
    omega
  have accepted : ∀ p ∈ getLoadSections elf, Covered size offset useVaddr p →
      Accepted size offset useVaddr p ∧ segmentEnd useVaddr p < 2 ^ 32 := by
    intro p member covered
    obtain ⟨there, notRefused⟩ := present p member covered
    refine ⟨(accepted_iff low covered).mpr notRefused, ?_⟩
    by_contra wraps
    exact fits ⟨p, (mem_getLoadSections.mp member).1, there, .inr (by omega)⟩
  have apart : (getLoadSections elf).Pairwise fun p q => Covered size offset useVaddr p →
      Covered size offset useVaddr q → Apart useVaddr p q := by
    refine (List.Pairwise.filter _ disjoint).imp_of_mem ?_
    intro p q member member' related covered coveredBy
    exact related (present p member covered).1 (present q member' coveredBy).1
  obtain ⟨after, log, returned, contents, others, written⟩ :=
    returns_loadSections lawful low (getLoadSections elf) accepted apart memory
  intro outcome
  have reached : outcome = ⟨.ok (), after, log⟩ := returned
  rw [reached]
  refine ⟨?_, ?_, written⟩
  · rintro p listed ⟨⟨loadable, inside⟩, positive⟩
    exact contents p (mem_getLoadSections.mpr ⟨listed, loadable, by omega⟩)
      ((covered_iff low).mpr inside)
  · intro address misses
    refine others address fun p member covered => ?_
    exact misses p (mem_getLoadSections.mp member).1 (present p member covered).1

/-! ## A memory at the end of the address space -/

theorem loadSections_of_none_covered {ps : List Elf32Phdr}
    (none : ∀ p ∈ ps, ¬Covered size offset useVaddr p) :
    (loadSections elf size offset useVaddr ps : LoaderM clover Unit) = pure () := by
  induction ps with
  | nil => rfl
  | cons p rest inductionHypothesis =>
      rw [List.forall_mem_cons] at none
      rw [loadSections, loadSection_of_not_covered none.1, inductionHypothesis none.2]
      rfl

/-- Its end is zero in 32 bits, so that every segment is skipped. -/
theorem loadExecutableImage_of_end (top : offset.toNat + size.toNat = 2 ^ 32) :
    (loadExecutableImage elf size offset useVaddr : LoaderM clover Unit) = pure () := by
  refine loadSections_of_none_covered fun p _ covered => ?_
  have less := BitVec.lt_def.mp covered.2
  rw [BitVec.toNat_add, top] at less
  omega

/-- Whatever a segment holds, some memory does not hold it yet. -/
theorem exists_not_holds (lawful : clover.Lawful) [Nonempty clover.Memory] (address : Nat)
    (value : BitVec 8) : ∃ memory : clover.Memory, ¬Holds memory address value := by
  obtain ⟨memory⟩ := ‹Nonempty clover.Memory›
  have placed := placed_store lawful memory address fun _ => value + 1
  refine ⟨clover.store memory address (ConcolicValue.BVC (value + 1)) 1, fun holds => ?_⟩
  have different : value + 1 = value := (placed.inside 0 (by decide)).1.symm.trans holds.1
  exact absurd different (by grind)

theorem loadsExactly_iff_of_end (lawful : clover.Lawful) [Nonempty clover.Memory]
    (top : offset.toNat + size.toNat = 2 ^ 32) :
    LoadsExactly elf size offset useVaddr clover ↔
      (∀ p ∈ elf.phdrs, Present size offset useVaddr p → ¬Unfit size offset useVaddr p) ∧
      (SegmentsDisjoint elf size offset useVaddr →
        ∀ p ∈ elf.phdrs, ¬Present size offset useVaddr p) := by
  unfold LoadsExactly
  rw [loadExecutableImage_of_end top]
  constructor
  · intro exactly
    obtain ⟨some⟩ := ‹Nonempty clover.Memory›
    have none : ¬∃ p ∈ elf.phdrs, Present size offset useVaddr p ∧
        Unfit size offset useVaddr p := by
      intro unfit
      obtain ⟨fault, failed⟩ := (exactly some).1.mpr unfit
      cases failed
    refine ⟨fun p listed present unfit => none ⟨p, listed, present, unfit⟩, ?_⟩
    intro disjoint p listed present
    obtain ⟨memory, lacks⟩ := exists_not_holds lawful
      (indexOf offset useVaddr p + 0) (contentOf elf p 0)
    exact lacks (((exactly memory).2 none disjoint).contents p listed present 0 present.2)
  · rintro ⟨fits, nothing⟩ memory
    refine ⟨⟨?_, ?_⟩, ?_⟩
    · rintro ⟨fault, failed⟩
      cases failed
    · rintro ⟨p, listed, present, unfit⟩
      exact absurd unfit (fits p listed present)
    · intro _ disjoint
      exact ⟨fun p listed present => absurd present (nothing disjoint p listed), fun _ _ => rfl,
        nofun⟩

/-! ## A memory below it -/

theorem loadsExactly_iff_of_below (lawful : clover.Lawful) [Nonempty clover.Memory]
    (low : offset.toNat + size.toNat < 2 ^ 32) :
    LoadsExactly elf size offset useVaddr clover ↔
      ((∃ p ∈ elf.phdrs, StartsInside size offset useVaddr p ∧ Refused size offset useVaddr p) ↔
        ∃ p ∈ elf.phdrs, Present size offset useVaddr p ∧ Unfit size offset useVaddr p) := by
  constructor
  · intro exactly
    obtain ⟨memory⟩ := ‹Nonempty clover.Memory›
    exact (refused_iff low memory).symm.trans (exactly memory).1
  · intro same memory
    refine ⟨(refused_iff low memory).trans same, fun fits disjoint => ?_⟩
    exact image_loaded lawful low (mt same.mp fits) fits disjoint memory

/-- A segment that is refused has to be, unless it ends with the memory or has bytes in the file
only. -/
theorem Refused.present (starts : StartsInside size offset useVaddr p)
    (refused : Refused size offset useVaddr p) :
    Present size offset useVaddr p ∧ Unfit size offset useVaddr p ∨
      segmentEnd useVaddr p = offset.toNat + size.toNat ∨
        p.pMemsz.toNat = 0 ∧ 0 < p.pFilesz.toNat := by
  have inside := starts.2.2
  unfold Present Unfit
  unfold Refused at refused
  unfold segmentEnd at refused ⊢
  simp only [starts, true_and]
  omega

/-- A segment that has to be refused is, unless it wraps around. -/
theorem Unfit.refused (unfit : Unfit size offset useVaddr p) :
    Refused size offset useVaddr p ∨ 2 ^ 32 ≤ segmentEnd useVaddr p := by
  unfold Refused
  unfold Unfit at unfit
  omega

end Segments

/-- In a memory below the end of the address space an image is loaded exactly unless a segment
that ends with the memory, or has bytes in the file only, is the reason to refuse it, or unless
it has a segment that wraps around and none that is refused. At the end of the address space,
only an image with nothing to load and nothing to refuse is. -/
theorem loads_exactly_iff (clover : Clover) (lawful : clover.Lawful) [Nonempty clover.Memory]
    (elf : ElfFile) (size offset : BitVec 32) (useVaddr : Bool)
    (addressable : offset.toNat + size.toNat ≤ 2 ^ 32) :
    LoadsExactly elf size offset useVaddr clover ↔
      (offset.toNat + size.toNat < 2 ^ 32 →
        ((∃ p ∈ elf.phdrs, StartsInside size offset useVaddr p ∧
            (segmentEnd useVaddr p = offset.toNat + size.toNat ∨
              p.pMemsz.toNat = 0 ∧ 0 < p.pFilesz.toNat)) →
          ∃ p ∈ elf.phdrs, Present size offset useVaddr p ∧ Unfit size offset useVaddr p) ∧
        ((∃ p ∈ elf.phdrs, StartsInside size offset useVaddr p ∧ 2 ^ 32 ≤ segmentEnd useVaddr p) →
          ∃ p ∈ elf.phdrs, StartsInside size offset useVaddr p ∧
            Refused size offset useVaddr p)) ∧
      (offset.toNat + size.toNat = 2 ^ 32 →
        (∀ p ∈ elf.phdrs, Present size offset useVaddr p → ¬Unfit size offset useVaddr p) ∧
        (SegmentsDisjoint elf size offset useVaddr →
          ∀ p ∈ elf.phdrs, ¬Present size offset useVaddr p)) := by
  rcases addressable.lt_or_eq with low | top
  · rw [and_iff_left (fun top => absurd top low.ne), forall_prop_of_true low,
      loadsExactly_iff_of_below lawful low]
    constructor
    · intro same
      constructor
      · rintro ⟨p, listed, starts, slip⟩
        refine same.mp ⟨p, listed, starts, ?_⟩
        unfold Refused
        omega
      · rintro ⟨p, listed, starts, wraps⟩
        refine same.mpr ⟨p, listed, ⟨starts, ?_⟩, .inr (by omega)⟩
        have below := (addr useVaddr p).isLt
        unfold segmentEnd at wraps
        omega
    · rintro ⟨slips, wraps⟩
      constructor
      · rintro ⟨p, listed, starts, refused⟩
        rcases refused.present starts with unfit | slip
        · exact ⟨p, listed, unfit⟩
        · exact slips ⟨p, listed, starts, slip⟩
      · rintro ⟨p, listed, present, unfit⟩
        rcases unfit.refused with refused | around
        · exact ⟨p, listed, present.1, refused⟩
        · exact wraps ⟨p, listed, present.1, around⟩
  · rw [and_iff_right (fun low => absurd top low.ne), forall_prop_of_true top]
    exact loadsExactly_iff_of_end lawful top

/-- A file with one segment of this length in the memory, of which the file has `filesz` bytes. -/
def oneSegment (filesz memsz : BitVec 32) : ElfFile where
  phdrs := [⟨PT_LOAD, 0x1000, 0, 0, filesz, memsz⟩]
  data _ := 0x13

instance : Nonempty Clover.reference.Memory := ⟨fun _ => ⟨0, none⟩⟩

/-- Eight bytes, four of them from the file, go into a memory of sixteen. -/
theorem eight_of_sixteen_loaded :
    LoadsExactly (oneSegment 4 8) 16 0 false Clover.reference := by
  refine (loads_exactly_iff Clover.reference Clover.reference_lawful (oneSegment 4 8) 16 0 false
    (by decide)).mpr ⟨fun _ => ⟨?_, ?_⟩, fun top => absurd top (by decide)⟩
  · rintro ⟨p, member, _, slip⟩
    obtain rfl := List.mem_singleton.mp member
    exact absurd slip (by decide)
  · rintro ⟨p, member, _, wraps⟩
    obtain rfl := List.mem_singleton.mp member
    exact absurd wraps (by decide)

/-- A segment that fills the memory is refused. -/
theorem not_sixteen_of_sixteen_loaded :
    ¬LoadsExactly (oneSegment 16 16) 16 0 false Clover.reference := by
  intro exactly
  obtain ⟨p, member, _, slip⟩ := (exactly fun _ => ⟨0, none⟩).1.mp
    ⟨.assertion "Section does not fit in target memory", rfl⟩
  obtain rfl := List.mem_singleton.mp member
  exact absurd slip (by decide)

end SymexVP.ElfLoader
