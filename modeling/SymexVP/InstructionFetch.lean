import SymexVP.CompressedExpansion
import SymexVP.LoadPermissions

/-!
# The bytes an instruction is fetched from

A fetch translates the program counter and reads four bytes from there on. The second
halfword of an instruction may belong to another page, and behind the first one the
memory may end. Beside the code stands what its translations ask of it: each halfword is
taken from where its own address leads. A device has no halfwords: what it answers is
up to it.
-/

namespace SymexVP

open Exec Board MemoryInterface

variable {P : Platform}

/-! ## Halfwords -/

/-- The halfword of the memory at a physical address. -/
def Board.halfword (board : Board P) (address : BitVec 64) : Option (BitVec 16) :=
  (memoryOffset P address 2).map fun offset => (P.clover.load board.memory offset 2).concrete

/-- The halfword that follows the one at a physical address in the memory. -/
def Board.halfwordBehind (board : Board P) (address : BitVec 64) : Option (BitVec 16) :=
  (memoryOffset P address 4).map fun offset =>
    (P.clover.load board.memory (offset + 2) 2).concrete

/-- A halfword that is an instruction of its own. -/
def isWhole (half : BitVec 16) : Bool := Instruction.isCompressed (half.setWidth 32)

/-- The other halfword of a word. -/
def Instruction.high (instr : Instruction) : BitVec 16 := instr.extractLsb' 16 16

section Halves

variable (lawful : P.clover.Lawful) (board : Board P) (offset : Nat)

include lawful

/-- Two bytes of a word in the memory are what a load finds there. -/
theorem extract_word {skipped : Nat} (inside : skipped + 2 ≤ 4) :
    (board.word offset).extractLsb' (8 * skipped) 16 =
      (P.clover.load board.memory (offset + skipped) 2).concrete := by
  have bytes : ∀ index < 2,
      Clover.byteOf index ((board.word offset).extractLsb' (8 * skipped) (8 * 2)) =
        Clover.byteOf index (P.clover.load board.memory (offset + skipped) 2).concrete := by
    intro index small
    have byte := lawful.load_concrete board.memory offset 4 (skipped + index) (by omega)
    rw [lawful.load_concrete _ _ _ _ small, Nat.add_assoc, ← byte]
    apply BitVec.eq_of_getLsbD_eq
    intro bit low
    simp only [Clover.byteOf, Board.word, BitVec.getLsbD_extractLsb']
    grind
  exact Clover.eq_of_byteOf_eq bytes

theorem word_low :
    Instruction.low (board.word offset) = (P.clover.load board.memory offset 2).concrete := by
  rw [Instruction.low, BitVec.setWidth_eq_extractLsb' (by decide)]
  exact extract_word lawful board offset (show 0 + 2 ≤ 4 by decide)

theorem word_high :
    Instruction.high (board.word offset) =
      (P.clover.load board.memory (offset + 2) 2).concrete :=
  extract_word lawful board offset (show 2 + 2 ≤ 4 by decide)

end Halves

/-- Four bytes begin where the first two of them do. -/
theorem memoryOffset_eq_of_both {address : BitVec 64} {first second offset offset' : Nat}
    (placed : memoryOffset P address first = some offset)
    (placed' : memoryOffset P address second = some offset') : offset' = offset := by
  obtain ⟨-, port, -, found, -, rfl, -⟩ := of_memoryOffset placed
  obtain ⟨-, port', -, found', -, rfl, -⟩ := of_memoryOffset placed'
  cases found.symm.trans found'
  rfl

/-! ## The read of a fetch -/

theorem Board.Available.step {hart : BitVec 32} {before after : Board P}
    {log : List (Event P.clover.terms)} (step : BoardStep hart before log after)
    (available : before.Available hart) : after.Available hart := by
  cases step with
  | lock lock owner => exact owner
  | _ => exact available

/-- No access takes the bus away from its hart. -/
theorem AccessTakes.available {α : Type} {hart : BitVec 32} {body : MemM P α} {board : Board P}
    (takes : AccessTakes hart body) (available : board.Available hart) :
    (body.run board).state.Available hart :=
  takes.board.keeps (fun board : Board P => board.Available hart) Board.Available.step available

section Reads

variable (input : P.clover.terms.Assignment) (core : Core) (board : Board P)

/-- A read that leaves the memory returns nothing. -/
theorem read_run_of_short {address : BitVec 64} {inside numBytes offset : Nat}
    (placed : memoryOffset P address inside = some offset)
    (short : memoryOffset P address numBytes = none) :
    ¬Succeeds ((doTransaction (bus core input) (readRequest address numBytes)).run board) := by
  obtain ⟨depth, port, levels, found, target, rfl, -⟩ := of_memoryOffset placed
  have size : (List.replicate numBytes (0 : BitVec 8)).length = numBytes := List.length_replicate
  have outside : P.memSize < address - port.start + BitVec.ofNat 64 numBytes := by
    by_contra fits
    rw [memoryOffset, found, Option.bind_some] at short
    dsimp only at short
    rw [if_pos ⟨by omega, target, BitVec.not_lt.mp fits⟩] at short
    cases short
  unfold readRequest
  generalize List.replicate numBytes (0 : BitVec 8) = bytes at size ⊢
  subst size
  rintro ⟨value, returned⟩
  rw [doTransaction_run core input board (by omega) found target rfl, if_pos outside] at returned
  cases returned

/-- A read that stays in the memory returns the word there. -/
theorem fetch_read_run (available : board.Available core.hartId)
    {address : BitVec 64} {offset : Nat} (placed : memoryOffset P address 4 = some offset) :
    ∃ bytes, ((concreteLoadData (bus core input) core .fetch address 4).run board).result =
        .ok bytes ∧ BitVec.ofNat 32 (Clover.littleEndian bytes) = board.word offset := by
  obtain ⟨inner, ran⟩ := read_run core input board placed
  unfold readRequest at ran
  refine ⟨(readAnswer board inner offset 4).data, ?_, ?_⟩
  · rw [concreteLoadData, bind_run, waitForAccessRights_run available, Outcome.andThen_ok, bind_run,
      ran]
    rfl
  · exact littleEndian_toBytes (P.clover.load board.memory offset 4)

theorem fetch_read_run_of_short (available : board.Available core.hartId) {address : BitVec 64}
    {offset : Nat} (placed : memoryOffset P address 2 = some offset)
    (short : memoryOffset P address 4 = none) :
    ¬Succeeds ((concreteLoadData (bus core input) core .fetch address 4).run board) := by
  rintro ⟨bytes, returned⟩
  rw [concreteLoadData] at returned
  obtain ⟨-, -, asked, -⟩ := bind_eq_ok returned
  rw [waitForAccessRights_run available] at asked
  obtain ⟨trans, read, -⟩ := bind_eq_ok asked
  exact read_run_of_short input core board placed short ⟨trans, read⟩

/-- The result is a page fault of a fetch. -/
def PageFaults {α : Type} (result : Except Fault α) : Prop :=
  ∃ raised, result = .error (.trap raised) ∧ raised.reason = .instrPageFault

/-- A read reports the loads that are refused as page faults, but of a load. -/
theorem not_pageFaults_read (address : BitVec 64) :
    ¬PageFaults ((concreteLoadData (bus core input) core .fetch address 4).run board).result := by
  rintro ⟨raised, thrown, reason⟩
  obtain ⟨fault, ⟨-, -, inside | ⟨-, rfl⟩⟩, told⟩ :=
    (concreteLoadData_failsAs (routes_bus core input) core .fetch address 4 board _
      ⟨raised, rfl⟩).mp thrown
  · revert inside
    cases P.depth with
    | zero => exact id
    | succ depth =>
        rintro ⟨port, -, -, writes, -⟩
        cases writes
  · cases told
    cases reason

end Reads

namespace Iss

variable (input : P.clover.terms.Assignment) {state : State P}

/-! ## What a fetch uses -/

/-- The word a step fetches. -/
def fetched (state : State P) : Except Fault Instruction :=
  ((fetch input).run (begun state)).result.map fun _ =>
    ((fetch input).run (begun state)).state.hart.instr

/-- The translation of an address a step could fetch from. -/
def fetchTranslation (state : State P) (board : Board P) (va : BitVec 32) :
    Outcome Fault (Board P) (Event P.clover.terms) (BitVec 64) :=
  (v2p (bus state.hart.core input) state.hart.core (va.setWidth 64) .fetch).run board

/-- The translation of the program counter. -/
def firstTranslation (state : State P) :
    Outcome Fault (Board P) (Event P.clover.terms) (BitVec 64) :=
  fetchTranslation input state state.board state.hart.pc

/-- The translation of the address of the second halfword, made after the first one. -/
def secondTranslation (state : State P) :
    Outcome Fault (Board P) (Event P.clover.terms) (BitVec 64) :=
  fetchTranslation input state (firstTranslation input state).state (state.hart.pc + 2)

/-- The halfword the program counter leads to, with its physical address. -/
def FirstHalf (state : State P) (paddr : BitVec 64) (half : BitVec 16) : Prop :=
  (firstTranslation input state).result = .ok paddr ∧
    (firstTranslation input state).state.halfword paddr = some half

/-- The halfword the address behind leads to. -/
def secondHalf (state : State P) : Option (BitVec 16) :=
  match (secondTranslation input state).result with
  | .ok paddr => (secondTranslation input state).state.halfword paddr
  | .error _ => none

/-- The fetch uses what its translations lead to. -/
structure TranslatesAll (state : State P) : Prop where
  /-- A page fault is raised exactly when a translation that is needed ends in one. -/
  faults : PageFaults (fetched input state) ↔
    PageFaults (firstTranslation input state).result ∨
      (∃ paddr half, FirstHalf input state paddr half ∧ isWhole half = false) ∧
        PageFaults (secondTranslation input state).result
  /-- The word is formed from the halfwords there, the second one only if it is needed. -/
  formed : ∀ word, fetched input state = .ok word → ∀ paddr half,
    FirstHalf input state paddr half → Instruction.low word = half ∧
      (isWhole half = false → secondHalf input state = some (Instruction.high word))
  /-- If the halfwords that are needed exist, so does the word. -/
  executed : ∀ paddr half, FirstHalf input state paddr half →
    isWhole half = true ∨ (secondHalf input state).isSome → ∃ word, fetched input state = .ok word

theorem aligned_of_even (even : state.hart.pc &&& 1 = 0) :
    (begun state).hart.pc &&& ~~~(begun state).hart.pcAlignmentMask = 0 := by
  rw [pcAlignmentMask_eq, BitVec.not_not]
  exact even

/-- At an even program counter the fetch is the load of an instruction. -/
theorem fetch_run (even : state.hart.pc &&& 1 = 0) :
    let outcome := (loadInstr (bus state.hart.core input) state.hart.core state.hart.pc).run
      state.board
    fetched input state = outcome.result ∧
      ((fetch input).run (begun state)).state.board = outcome.state := by
  have loaded : (memory fun core => loadInstr (bus core input) core (begun state).hart.pc).run
      (begun state) =
        let outcome := (loadInstr (bus state.hart.core input) state.hart.core state.hart.pc).run
          state.board
        ⟨outcome.result, { begun state with board := outcome.state }, outcome.log⟩ := rfl
  dsimp only
  rw [fetched, fetch, bind_run, getHart, bind_run, get_run, Outcome.andThen_ok, pure_run,
    Outcome.andThen_ok, bind_run, require_of (aligned_of_even even), pure_run, Outcome.andThen_ok,
    loadWord, tryCatch_run, bind_run, getHart, bind_run, get_run, Outcome.andThen_ok, pure_run,
    Outcome.andThen_ok, bind_run, loaded]
  generalize (loadInstr (bus state.hart.core input) state.hart.core state.hart.pc).run state.board =
    outcome
  obtain ⟨result, after, log⟩ := outcome
  cases result with
  | ok word => exact ⟨rfl, rfl⟩
  | error fault => cases fault <;> exact ⟨rfl, rfl⟩

/-- The fetch as a translation and a read. -/
theorem fetched_eq (even : state.hart.pc &&& 1 = 0) :
    fetched input state = match (firstTranslation input state).result with
      | .error fault => .error fault
      | .ok paddr =>
          ((concreteLoadData (bus state.hart.core input) state.hart.core .fetch paddr 4).run
            (firstTranslation input state).state).result.map fun bytes =>
              BitVec.ofNat 32 (Clover.littleEndian bytes) := by
  rw [(fetch_run input even).1, loadInstr, bind_run, firstTranslation, fetchTranslation]
  generalize (v2p (bus state.hart.core input) state.hart.core (state.hart.pc.setWidth 64)
    .fetch).run state.board = outcome
  obtain ⟨result, after, log⟩ := outcome
  cases result with
  | error fault => rfl
  | ok paddr =>
      rw [Outcome.andThen_ok, bind_run]
      dsimp only
      generalize (concreteLoadData (bus state.hart.core input) state.hart.core .fetch paddr 4).run
        after = outcome
      obtain ⟨result, last, log⟩ := outcome
      cases result <;> rfl

/-- In a reachable state the bus is the hart's to use, also after a translation. -/
theorem available_firstTranslation (reachable : Reachable input state) :
    (firstTranslation input state).state.Available state.hart.core.hartId :=
  (takes_v2p (takes_bus state.hart.core input) _ _).available (owned_of_reachable input reachable)

/-! ## When it does -/

/-- A page fault is that of the first translation. -/
theorem pageFaults_fetched_iff (even : state.hart.pc &&& 1 = 0) :
    PageFaults (fetched input state) ↔ PageFaults (firstTranslation input state).result := by
  rw [fetched_eq input even]
  cases (firstTranslation input state).result with
  | error fault =>
      constructor
      · rintro ⟨raised, ⟨rfl⟩, reason⟩
        exact ⟨raised, rfl, reason⟩
      · rintro ⟨raised, ⟨rfl⟩, reason⟩
        exact ⟨raised, rfl, reason⟩
  | ok paddr =>
      have calm := not_pageFaults_read input state.hart.core (firstTranslation input state).state
        paddr
      dsimp only
      generalize ((concreteLoadData _ _ _ paddr 4).run _).result = result at calm ⊢
      cases result with
      | error fault =>
          refine iff_of_false ?_ (by rintro ⟨_, ⟨⟩, _⟩)
          rintro ⟨raised, ⟨rfl⟩, reason⟩
          exact calm ⟨raised, rfl, reason⟩
      | ok bytes => exact iff_of_false (by rintro ⟨_, ⟨⟩, _⟩) (by rintro ⟨_, ⟨⟩, _⟩)

section Halves

variable {paddr : BitVec 64} {half : BitVec 16} (even : state.hart.pc &&& 1 = 0)
  (available : (firstTranslation input state).state.Available state.hart.core.hartId)
  (leads : FirstHalf input state paddr half)

include even leads

include available

/-- With another halfword behind it, the two are the word. -/
theorem fetched_of_behind (lawful : P.clover.Lawful) {behind : BitVec 16}
    (follows : (firstTranslation input state).state.halfwordBehind paddr = some behind) :
    ∃ word, fetched input state = .ok word ∧ Instruction.low word = half ∧
      Instruction.high word = behind := by
  obtain ⟨translated, found⟩ := leads
  obtain ⟨offset, placed, rfl⟩ := Option.map_eq_some_iff.mp found
  obtain ⟨offset', placed', rfl⟩ := Option.map_eq_some_iff.mp follows
  cases memoryOffset_eq_of_both placed placed'
  obtain ⟨bytes, read, word⟩ :=
    fetch_read_run input state.hart.core (firstTranslation input state).state available placed'
  refine ⟨_, ?_, word_low lawful _ offset, word_high lawful _ offset⟩
  rw [fetched_eq input even, translated]
  dsimp only
  rw [read, ← word]
  rfl

/-- Where the memory ends behind it, nothing is fetched. -/
theorem not_fetched_of_short
    (ends : (firstTranslation input state).state.halfwordBehind paddr = none)
    (word : Instruction) : fetched input state ≠ .ok word := by
  obtain ⟨translated, found⟩ := leads
  obtain ⟨offset, placed, rfl⟩ := Option.map_eq_some_iff.mp found
  have short : memoryOffset P paddr 4 = none := Option.map_eq_none_iff.mp ends
  have failed := fetch_read_run_of_short input state.hart.core
    (firstTranslation input state).state available placed short
  rw [fetched_eq input even, translated]
  dsimp only
  intro returned
  rw [Succeeds] at failed
  generalize ((concreteLoadData _ _ _ paddr 4).run _).result = result at failed returned
  cases result with
  | error fault => cases returned
  | ok bytes => exact failed ⟨bytes, rfl⟩

end Halves

/-- In a reachable state with an even program counter, a fetch uses what its translations lead
to if and only if a halfword that is an instruction has another one behind it in the
memory, and behind one that is not lies the halfword that the second translation leads
to, without a page fault. -/
theorem translatesAll_iff (lawful : P.clover.Lawful) (reachable : Reachable input state)
    (even : state.hart.pc &&& 1 = 0) :
    TranslatesAll input state ↔ ∀ paddr half, FirstHalf input state paddr half →
      let behind := (firstTranslation input state).state.halfwordBehind paddr
      if isWhole half then behind.isSome
      else ¬PageFaults (secondTranslation input state).result ∧ secondHalf input state = behind := by
  have available := available_firstTranslation input reachable
  constructor
  · intro translates paddr half leads
    dsimp only
    have forms := @fetched_of_behind _ input _ _ _ even available leads lawful
    have ends := not_fetched_of_short input even available leads
    generalize (firstTranslation input state).state.halfwordBehind paddr = behind at forms ends ⊢
    cases whole : isWhole half with
    | true =>
        obtain ⟨word, returned⟩ := translates.executed paddr half leads (.inl whole)
        cases behind with
        | some behind => rfl
        | none => exact absurd returned (ends rfl word)
    | false =>
        constructor
        · intro faulted
          obtain ⟨raised, thrown, -⟩ := (pageFaults_fetched_iff input even).mp
            (translates.faults.mpr (.inr ⟨⟨_, _, leads, whole⟩, faulted⟩))
          rw [leads.1] at thrown
          cases thrown
        · cases behind with
          | some behind =>
              obtain ⟨word, returned, -, rfl⟩ := forms rfl
              exact (translates.formed word returned paddr half leads).2 whole
          | none =>
              rw [← Option.not_isSome_iff_eq_none]
              intro present
              obtain ⟨word, returned⟩ := translates.executed paddr half leads (.inr present)
              exact ends rfl word returned
  · intro needed
    refine ⟨?_, ?_, ?_⟩
    · rw [pageFaults_fetched_iff input even]
      refine ⟨.inl, ?_⟩
      rintro (faulted | ⟨⟨paddr, half, leads, whole⟩, faulted⟩)
      · exact faulted
      · have needs := needed paddr half leads
        rw [whole] at needs
        exact absurd faulted needs.1
    · intro word returned paddr half leads
      have needs := needed paddr half leads
      cases follows : (firstTranslation input state).state.halfwordBehind paddr with
      | none => exact absurd returned (not_fetched_of_short input even available leads follows word)
      | some behind =>
          obtain ⟨word', returned', low, rfl⟩ :=
            fetched_of_behind input even available leads lawful follows
          cases returned.symm.trans returned'
          refine ⟨low, fun whole => ?_⟩
          rw [whole, follows] at needs
          exact needs.2
    · intro paddr half leads halves
      have needs := needed paddr half leads
      cases follows : (firstTranslation input state).state.halfwordBehind paddr with
      | some behind =>
          obtain ⟨word, returned, -⟩ :=
            fetched_of_behind input even available leads lawful follows
          exact ⟨word, returned⟩
      | none =>
          rw [follows] at needs
          cases whole : isWhole half with
          | true =>
              rw [whole] at needs
              cases needs
          | false =>
              rw [whole] at needs halves
              rw [needs.2] at halves
              obtain ⟨⟨⟩⟩ | ⟨⟨⟩⟩ := halves

/-! ## An instruction across two pages -/

/-- Page tables are selected and the user enters at `0x400ffe`, the last halfword of a page. That
page is at `0x5000`; the leaf of the next one is given. -/
def fetchingWords (leaf : BitVec 32) : List (Nat × BitVec 32) :=
  [(0x0, 0x800000b7), (0x4, 0x00108093), (0x8, 0x18009073), (0xc, 0x004011b7), (0x10, 0xffe18193),
    (0x14, 0x34119073), (0x18, 0x30200073), (0x1004, 0x801), (0x2000, 0x145b), (0x2004, leaf),
    (0x5ffc, 0x00930000), (0x6000, 0x0010), (0x8000, 0x0020)]

def fetchingStart (leaf : BitVec 32) : State pagedPlatform :=
  ⟨initialHart ⟨false⟩ 0 0 0, pagedBoard (fetchingWords leaf)⟩

/-- The state the user enters in. -/
def fetchingState (leaf : BitVec 32) : State pagedPlatform :=
  stateAfter (runStep pagedInput) 7 (fetchingStart leaf)

/-- With the next page at `0x8000`, the second half is taken from `0x6000` all the same. -/
theorem not_translatesAll_apart :
    Reachable pagedInput (fetchingState 0x205b) ∧
      ¬Mmu.Bare (fetchingState 0x205b).hart.core .fetch ∧
      (fetchingState 0x205b).hart.pc = 0x400ffe ∧
      fetched pagedInput (fetchingState 0x205b) = .ok 0x00100093 ∧
      secondHalf pagedInput (fetchingState 0x205b) = some 0x0020 ∧
      ¬TranslatesAll pagedInput (fetchingState 0x205b) := by
  have word : fetched pagedInput (fetchingState 0x205b) = .ok 0x00100093 := by decide +kernel
  have second : secondHalf pagedInput (fetchingState 0x205b) = some 0x0020 := by decide +kernel
  have leads : FirstHalf pagedInput (fetchingState 0x205b) 0x5ffe 0x0093 := by
    constructor <;> decide +kernel
  refine ⟨⟨_, .intro _ _ _ _ _ _ _, reaches_stateAfter (by decide +kernel)⟩, by decide +kernel,
    by decide +kernel, word, second, fun translates => ?_⟩
  have formed := (translates.formed _ word _ _ leads).2 (by decide)
  rw [second] at formed
  revert formed
  decide

/-- With the next page behind the first one, the fetch is right. -/
theorem translatesAll_contiguous : TranslatesAll pagedInput (fetchingState 0x185b) := by
  refine (translatesAll_iff pagedInput Clover.reference_lawful
    ⟨_, .intro _ _ _ _ _ _ _, reaches_stateAfter (by decide +kernel)⟩ (by decide +kernel)).mpr ?_
  have leads : FirstHalf pagedInput (fetchingState 0x185b) 0x5ffe 0x0093 := by
    constructor <;> decide +kernel
  have second : (secondTranslation pagedInput (fetchingState 0x185b)).result = .ok 0x6000 := by
    decide +kernel
  have same : secondHalf pagedInput (fetchingState 0x185b) =
      (firstTranslation pagedInput (fetchingState 0x185b)).state.halfwordBehind 0x5ffe := by
    decide +kernel
  rintro paddr half ⟨translated, found⟩
  cases leads.1.symm.trans translated
  cases leads.2.symm.trans found
  refine ⟨?_, same⟩
  rintro ⟨raised, thrown, -⟩
  cases second.symm.trans thrown

end Iss

end SymexVP
