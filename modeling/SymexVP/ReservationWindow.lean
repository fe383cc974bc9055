import SymexVP.BoardFrames
import SymexVP.InstructionFetch

/-!
# How long a reservation keeps the bus

A load-reserved takes the bus lock and starts a counter, which every instruction counts
down; at zero the lock is given up. An instruction that makes no store may lose the lock
before: a page walk that sets the flags of a leaf stores the entry, and every store
gives the lock up. So whether a walk marks its leaf is followed here, for page tables
that may lie anywhere.
-/

namespace SymexVP

open Exec Board MemoryInterface

variable {P : Platform}

/-! ## Walks that mark their leaf -/

/-- The loop of `walk` from a level downwards ends at a leaf whose flags it sets. -/
def WalkMarks (isock : Socket P) (core : Core) (vm : Mmu.VmInfo) (vaddr : BitVec 64)
    (type : MemoryAccessType) (mode : PrivilegeLevel) : Nat → BitVec 64 → Board P → Prop
  | 0, _, _ => False
  | level + 1, base, board =>
      let ptshift := level * vm.idxbits
      let vpnField := (vaddr >>> (12 + ptshift)) &&& ((1#64 <<< vm.idxbits) - 1)
      let entry := (mmuLoadPte32 isock core (base + vpnField * vm.ptesize)).run board
      P.mmuMem = true ∧ ∃ pte, entry.result = .ok pte ∧
        let ppn := pte >>> 10
        let ad := Mmu.accessFlags type
        if !Mmu.pteV pte || (!Mmu.pteR pte && Mmu.pteW pte) then False
        else if !Mmu.pteR pte && !Mmu.pteX pte then
          WalkMarks isock core vm vaddr type mode level (ppn <<< 12) entry.state
        else
          Mmu.leafPermits core type mode pte = true ∧ ppn &&& ((1#64 <<< ptshift) - 1) = 0 ∧
            pte &&& ad ≠ ad ∧ P.pageFaultOnAD = false

theorem walkMarks_iff {isock : Socket P} {core : Core} {vm : Mmu.VmInfo} {vaddr : BitVec 64}
    {type : MemoryAccessType} {mode : PrivilegeLevel} {level : Nat} {base : BitVec 64}
    {board : Board P} {entry : Outcome Fault (Board P) (Event P.clover.terms) (BitVec 64)}
    (ran : (mmuLoadPte32 isock core (base + ((vaddr >>> (12 + level * vm.idxbits)) &&&
      ((1#64 <<< vm.idxbits) - 1)) * vm.ptesize)).run board = entry)
    (attached : P.mmuMem = true) {pte : BitVec 64} (read : entry.result = .ok pte) :
    WalkMarks isock core vm vaddr type mode (level + 1) base board ↔
      if !Mmu.pteV pte || (!Mmu.pteR pte && Mmu.pteW pte) then False
      else if !Mmu.pteR pte && !Mmu.pteX pte then
        WalkMarks isock core vm vaddr type mode level (pte >>> 10 <<< 12) entry.state
      else
        Mmu.leafPermits core type mode pte = true ∧
          pte >>> 10 &&& ((1#64 <<< (level * vm.idxbits)) - 1) = 0 ∧
          pte &&& Mmu.accessFlags type ≠ Mmu.accessFlags type ∧ P.pageFaultOnAD = false := by
  subst ran
  rw [WalkMarks]
  constructor
  · rintro ⟨-, pte', read', marks⟩
    cases read.symm.trans read'
    exact marks
  · exact fun marks => ⟨attached, pte, read, marks⟩

/-- A translation updates the flags of a page table entry. -/
def TranslationMarks (isock : Socket P) (core : Core) (va : BitVec 32) (type : MemoryAccessType)
    (board : Board P) : Prop :=
  P.hasMmu = true ∧ ¬Mmu.Bare core type ∧
    ¬board.Cached (Mmu.effectiveMode core type) type va ∧
    WalkMarks isock core ⟨2, 10, 4, (Satp.ppn.get core.satp).setWidth 64 <<< 12⟩ (va.setWidth 64)
      type (Mmu.effectiveMode core type) 2 ((Satp.ppn.get core.satp).setWidth 64 <<< 12) board.later

/-- The lock is given up if an entry is marked, and else is as it was. -/
structure LockAfter (marks : Prop) (before after : Board P) : Prop where
  given : marks → after.lock = none
  kept : ¬marks → after.lock = before.lock

theorem lock_of_settled {before after : Board P} (same : after.settled = before.settled) :
    after.lock = before.lock := congrArg (·.2.1) same

namespace LockAfter

variable {marks marks' : Prop} {before middle after : Board P}

theorem congr (same : marks ↔ marks') (lock : LockAfter marks' before after) :
    LockAfter marks before after :=
  ⟨fun marked => lock.given (same.mp marked), fun unmarked => lock.kept fun marked =>
    unmarked (same.mpr marked)⟩

/-- Nothing is marked. -/
theorem nothing (unmarked : ¬marks) (lock : after.lock = before.lock) :
    LockAfter marks before after := ⟨fun marked => absurd marked unmarked, fun _ => lock⟩

/-- A read before. -/
theorem of_lock (same : middle.lock = before.lock) (later : LockAfter marks middle after) :
    LockAfter marks before after :=
  ⟨later.given, fun unmarked => (later.kept unmarked).trans same⟩

/-- Two accesses one after the other. -/
theorem trans (earlier : LockAfter marks before middle) (later : LockAfter marks' middle after) :
    LockAfter (marks ∨ marks') before after := by
  constructor
  · intro marked
    by_cases again : marks'
    · exact later.given again
    · rw [later.kept again, earlier.given (marked.resolve_right again)]
  · intro unmarked
    rw [later.kept fun again => unmarked (.inr again), earlier.kept fun first => unmarked (.inl first)]

end LockAfter

section Walks

variable (input : P.clover.terms.Assignment) {core : Core} {board : Board P}

theorem concreteLoadData_settled (available : board.Available core.hartId) (use : Use)
    (address : BitVec 64) (numBytes : Nat) :
    ((concreteLoadData (bus core input) core use address numBytes).run board).state.settled =
      board.settled := by
  have reads : Steps (Unchanged settled) (doTransaction (bus core input)
      ⟨.read, address, List.replicate numBytes 0, .ok, none⟩ >>= fun trans => (do
        Exec.emit (.concretized use trans.isSymbolic)
        pure trans.data : MemM P (List (BitVec 8)))) :=
    Steps.bind (doTransaction_read input _ rfl core) fun _ =>
      Steps.bind (Steps.emit _) fun _ => Steps.pure _
  have kept := reads board
  rw [concreteLoadData, bind_run, waitForAccessRights_run available, Outcome.andThen_ok]
  exact kept

theorem mmuLoadPte32_settled (available : board.Available core.hartId) (address : BitVec 64) :
    ((mmuLoadPte32 (bus core input) core address).run board).state.settled = board.settled := by
  have kept := concreteLoadData_settled input available .pageTable address 4
  rw [mmuLoadPte32, bind_run]
  generalize (concreteLoadData (bus core input) core .pageTable address 4).run board = outcome at *
  obtain ⟨result, after, log⟩ := outcome
  cases result <;> exact kept

/-- Every store gives the lock up. -/
theorem mmuStorePte32_lock (available : board.Available core.hartId) (address value : BitVec 64)
    (returned : ((mmuStorePte32 (bus core input) core address value).run board).result = .ok ()) :
    ((mmuStorePte32 (bus core input) core address value).run board).state.lock = none := by
  rw [mmuStorePte32, concreteStoreData] at returned ⊢
  obtain ⟨_, -, stored, reached⟩ := bind_eq_ok returned
  rw [reached]
  obtain ⟨_, -, unlocked, reached⟩ := bind_eq_ok stored
  rw [reached]
  rw [waitForAccessRights_run available] at *
  rw [unlock_run ((takes_doTransaction (takes_bus core input) _).available available)]

/-- A walk that finds its page has given the lock up if it marked the leaf. -/
theorem walkLevels_lock (vm : Mmu.VmInfo) (vaddr : BitVec 64) (type : MemoryAccessType)
    (mode : PrivilegeLevel) (level : Nat) (base : BitVec 64) (available : board.Available core.hartId)
    {paddr : BitVec 64}
    (found : ((Mmu.walkLevels (bus core input) core vm vaddr type mode level base).run
      board).result = .ok (some paddr)) :
    LockAfter (WalkMarks (bus core input) core vm vaddr type mode level base board) board
      ((Mmu.walkLevels (bus core input) core vm vaddr type mode level base).run board).state := by
  induction level generalizing base board with
  | zero => cases found
  | succ level inductionHypothesis =>
      by_cases attached : P.mmuMem = true
      swap
      · rw [Mmu.walkLevels] at found
        dsimp only at found
        rw [require_of_not attached] at found
        cases found
      rw [Mmu.walkLevels] at found ⊢
      dsimp only at found ⊢
      rw [require_of attached] at found ⊢
      rw [bind_run, pure_run, Outcome.andThen_ok] at found ⊢
      obtain ⟨pte, read, rest, reached⟩ := bind_eq_ok found
      dsimp only
      rw [reached]
      clear reached found
      have kept := mmuLoadPte32_settled input available
        (base + (vaddr >>> (12 + level * vm.idxbits) &&& 1#64 <<< vm.idxbits - 1) * vm.ptesize)
      have lock := lock_of_settled kept
      refine LockAfter.congr (walkMarks_iff rfl attached read) (LockAfter.of_lock lock ?_)
      have stays : Available core.hartId ((mmuLoadPte32 (bus core input) core
          (base + (vaddr >>> (12 + level * vm.idxbits) &&& 1#64 <<< vm.idxbits - 1) *
            vm.ptesize)).run board).state := by
        rw [Available, lock]
        exact available
      clear kept lock read
      generalize ((mmuLoadPte32 (bus core input) core _).run board).state = middle at rest stays ⊢
      by_cases invalid : (!Mmu.pteV pte || !Mmu.pteR pte && Mmu.pteW pte) = true
      · rw [if_pos invalid] at rest
        cases rest
      rw [if_neg invalid] at rest
      rw [if_neg invalid, if_neg invalid]
      by_cases pointer : (!Mmu.pteR pte && !Mmu.pteX pte) = true
      · rw [if_pos pointer] at rest
        rw [if_pos pointer, if_pos pointer]
        exact inductionHypothesis _ stays rest
      rw [if_neg pointer] at rest
      rw [if_neg pointer, if_neg pointer]
      by_cases refused : (!Mmu.leafPermits core type mode pte) = true
      · rw [if_pos refused] at rest
        cases rest
      rw [if_neg refused] at rest ⊢
      by_cases crooked : (pte >>> 10 &&& 1#64 <<< (level * vm.idxbits) - 1 != 0) = true
      · rw [if_pos crooked] at rest
        cases rest
      rw [if_neg crooked] at rest ⊢
      by_cases left : (pte &&& Mmu.accessFlags type != Mmu.accessFlags type && P.pageFaultOnAD) = true
      · rw [if_pos left] at rest
        cases rest
      rw [if_neg left] at rest ⊢
      by_cases marked : pte &&& Mmu.accessFlags type ≠ Mmu.accessFlags type
      · rw [Exec.when, if_pos marked] at rest ⊢
        obtain ⟨_, stored, -, reached⟩ := bind_eq_ok rest
        rw [reached]
        have given := mmuStorePte32_lock input stays _ _ stored
        exact ⟨fun _ => given, fun unmarked => absurd ⟨by simpa using refused, by simpa using crooked,
          marked, by simpa [marked] using left⟩ unmarked⟩
      · rw [Exec.when, if_neg marked]
        exact .nothing (fun marks => marked marks.2.2.1) rfl

theorem walk_lock {mode : PrivilegeLevel} (low : mode ≤ supervisorMode)
    (paged : Satp.mode.get core.satp = 1) {va : BitVec 32} {type : MemoryAccessType}
    (available : board.Available core.hartId) {paddr : BitVec 64}
    (walked : ((Mmu.walk (bus core input) core (va.setWidth 64) type mode).run board).result =
      .ok paddr) :
    LockAfter (WalkMarks (bus core input) core
        ⟨2, 10, 4, (Satp.ppn.get core.satp).setWidth 64 <<< 12⟩ (va.setWidth 64) type mode 2
        ((Satp.ppn.get core.satp).setWidth 64 <<< 12) board) board
      ((Mmu.walk (bus core input) core (va.setWidth 64) type mode).run board).state := by
  have levels : (if Mmu.checkVaddrExtension (va.setWidth 64)
      ⟨2, 10, 4, (Satp.ppn.get core.satp).setWidth 64 <<< 12⟩ then 2 else 0) = 2 :=
    if_pos (checkVaddrExtension_eq va _)
  unfold Mmu.walk Mmu.decodeVmInfo at walked ⊢
  rw [bind_run, bind_run, require_of low, pure_run, Outcome.andThen_ok] at walked ⊢
  dsimp only at walked ⊢
  rw [if_pos paged, pure_run, Outcome.andThen_ok] at walked ⊢
  dsimp only at walked ⊢
  rw [levels] at walked ⊢
  obtain ⟨found, looped, rest, reached⟩ := bind_eq_ok walked
  rw [reached]
  cases found with
  | none => cases type <;> cases rest
  | some physical => exact walkLevels_lock input _ _ _ _ _ _ available looped

/-- So has a translation that returns. -/
theorem v2p_lock {va : BitVec 32} {type : MemoryAccessType} (available : board.Available core.hartId)
    {paddr : BitVec 64}
    (translated : ((v2p (bus core input) core (va.setWidth 64) type).run board).result = .ok paddr) :
    LockAfter (TranslationMarks (bus core input) core va type board) board
      ((v2p (bus core input) core (va.setWidth 64) type).run board).state := by
  by_cases hasMmu : P.hasMmu = true
  swap
  · rw [v2p, if_neg hasMmu]
    exact .nothing (fun marks => hasMmu marks.1) rfl
  rw [v2p, if_pos hasMmu] at translated ⊢
  by_cases bare : Mmu.Bare core type
  · rw [translate_of_bare bare]
    exact .nothing (fun marks => marks.2.1 bare) rfl
  by_cases low : Mmu.effectiveMode core type = 0 ∨ Mmu.effectiveMode core type = 1
  swap
  · rw [translate_of_high bare low] at translated
    cases translated
  by_cases cached : board.Cached (Mmu.effectiveMode core type) type va
  · rw [translate_of_cached bare low cached]
    exact .nothing (fun marks => marks.2.2.1 cached) rfl
  rw [translate_of_not_cached bare low cached] at translated ⊢
  obtain ⟨paddr', walked, -, reached⟩ := bind_eq_ok translated
  rw [reached]
  clear translated reached
  have paged : Satp.mode.get core.satp = 1 :=
    (satp_mode_eq core.satp).resolve_left fun zero => bare (.inl zero)
  have supervised : Mmu.effectiveMode core type ≤ supervisorMode := by
    obtain user | supervisor := low
    · rw [user]
      decide
    · rw [supervisor]
      decide
  have walks := walk_lock input supervised paged (show board.later.Available core.hartId from available)
    walked
  exact ⟨fun marks => walks.given marks.2.2.2, fun unmarked => walks.kept fun marks =>
    unmarked ⟨hasMmu, bare, cached, marks⟩⟩

theorem symbolicLoadData_lock (available : board.Available core.hartId)
    (addr : ConcolicValue P.clover.terms 32) (numBytes : Nat)
    (returned : Succeeds ((symbolicLoadData (bus core input) core addr numBytes).run board)) :
    LockAfter (TranslationMarks (bus core input) core addr.concrete .store board) board
      ((symbolicLoadData (bus core input) core addr numBytes).run board).state := by
  obtain ⟨data, returned⟩ := returned
  rw [symbolicLoadData] at returned ⊢
  rw [bind_run, waitForAccessRights_run available, Outcome.andThen_ok] at returned ⊢
  obtain ⟨caddr, ⟨⟩, rest, reached⟩ := bind_eq_ok returned
  dsimp only
  rw [reached]
  clear reached returned
  obtain ⟨paddr, translated, read, reached⟩ := bind_eq_ok rest
  rw [reached]
  have kept := lock_of_settled (readTransaction_settled input core paddr numBytes
    ((v2p (bus core input) core (addr.concrete.setWidth 64) .store).run board).state)
  have translation := v2p_lock input available translated
  exact ⟨fun marks => kept.trans (translation.given marks), fun unmarked =>
    kept.trans (translation.kept unmarked)⟩

end Walks

namespace Iss

open Opcode

variable (input : P.clover.terms.Assignment) {state : State P}

/-! ## The counter -/

theorem write_lrScCounter (hart : Hart P.clover.terms) (index : BitVec 5)
    (data : Concolic P.clover.terms) : (hart.write index data).lrScCounter = hart.lrScCounter := by
  unfold Hart.write
  split
  · rfl
  · split <;> rfl

theorem counter_of_move {reserves : Prop} {before after : State P}
    {log : List (Event P.clover.terms)} (move : Move False reserves before log after) :
    Unchanged (fun state : State P => state.hart.lrScCounter) before after := by
  cases move with
  | hart step =>
      cases step with
      | aside same => exact congrArg Essentials.lrScCounter same
      | write index data => exact write_lrScCounter _ _ _
      | copy | cycles => rfl
      | counting count counted => exact counted.elim
  | _ => rfl

/-- What does not count for the reservation leaves the counter alone. -/
theorem counter_of_moves {reserves : Prop} {α : Type} {body : IssM P α}
    (moves : Moves False reserves body) (state : State P) :
    (body.run state).state.hart.lrScCounter = state.hart.lrScCounter :=
  moves.steps counter_of_move state

/-- What `performance_and_sync_update` does to the reservation. -/
def countDown (hart : Hart P.clover.terms) : IssM P Unit :=
  Exec.when (hart.lrScCounter ≠ 0) do
    modifyHart fun hart => { hart with lrScCounter := hart.lrScCounter - 1 }
    let counted ← getHart
    Exec.require (0 ≤ counted.lrScCounter) (.assertion "lr_sc_counter >= 0")
    Exec.when (counted.lrScCounter = 0) releaseLrScReservation

/-- The counter and the lock once an instruction is finished. -/
structure CountsDown (before after : State P) : Prop where
  sound : 0 ≤ before.hart.lrScCounter
  counter : after.hart.lrScCounter =
    if before.hart.lrScCounter = 0 then 0 else before.hart.lrScCounter - 1
  lock : after.board.lock = if before.hart.lrScCounter = 1 then none else before.board.lock

theorem countsDown_countDown (available : state.board.Available state.hart.core.hartId)
    (returned : ((countDown state.hart).run state).result = .ok ()) :
    CountsDown state ((countDown state.hart).run state).state := by
  rw [countDown] at returned ⊢
  by_cases zero : state.hart.lrScCounter = 0
  · rw [Exec.when, if_neg (not_not.mpr zero)]
    refine ⟨by omega, ?_, ?_⟩
    · rw [if_pos zero]
      exact zero
    · rw [if_neg (by omega)]
      rfl
  · rw [Exec.when, if_pos zero] at returned ⊢
    by_cases counting : 0 ≤ state.hart.lrScCounter - 1
    swap
    · simp only [modifyHart, bind_run, modify_run, Outcome.andThen_ok, getHart, get_run, pure_run,
        require_of_not counting] at returned
      cases returned
    simp only [modifyHart, bind_run, modify_run, Outcome.andThen_ok, getHart, get_run, pure_run,
      require_of counting]
    by_cases last : state.hart.lrScCounter - 1 = 0
    · rw [Exec.when, if_pos last]
      refine ⟨by omega, ?_, ?_⟩
      · rw [if_neg zero, last]
        rfl
      · rw [if_pos (by omega)]
        exact congrArg (·.state.lock) (unlock_run available)
    · rw [Exec.when, if_neg last]
      refine ⟨by omega, ?_, ?_⟩
      · rw [if_neg zero]
        rfl
      · rw [if_neg (by omega)]
        rfl

/-- The number of the hart, the counter and the lock. -/
def window (state : State P) : BitVec 32 × Int × Option (BitVec 32) :=
  (state.hart.core.hartId, state.hart.lrScCounter, state.board.lock)

theorem steps_window_modifyHart {change : Hart P.clover.terms → Hart P.clover.terms}
    (hartId : ∀ hart, (change hart).core.hartId = hart.core.hartId)
    (counter : ∀ hart, (change hart).lrScCounter = hart.lrScCounter) :
    Steps (Unchanged window) (modifyHart change : IssM P Unit) := by
  refine Steps.modify fun state => ?_
  show ((change state.hart).core.hartId, (change state.hart).lrScCounter, state.board.lock) = _
  rw [hartId, counter]
  rfl

theorem steps_window_synchronise (cycles : Nat) (hart : Hart P.clover.terms) :
    Steps (Unchanged window) (memory fun _ => do
      Board.inc cycles
      let board ← Exec.get
      Exec.when (P.world.needSync board.world board.localTime ∧ hart.lrScCounter = 0)
        Board.synchronise : IssM P Unit) := by
  have kept : Steps (Unchanged fun board : Board P => board.lock) (do
      Board.inc cycles
      let board ← Exec.get
      Exec.when (P.world.needSync board.world board.localTime ∧ hart.lrScCounter = 0)
        Board.synchronise : MemM P Unit) := by
    refine Steps.bind (Steps.modify fun _ => rfl) fun _ => Steps.bind Steps.get fun board => ?_
    exact Steps.when fun _ => Steps.modify fun _ => rfl
  intro state
  exact congrArg (fun lock => (state.hart.core.hartId, state.hart.lrScCounter, lock))
    (kept state.board)

/-- Steps around the counting do not matter. -/
theorem CountsDown.congr {before before' after after' : State P} (counts : CountsDown before' after)
    (earlier : window before' = window before) (later : window after' = window after) :
    CountsDown before after' := by
  obtain ⟨sound, counter, lock⟩ := counts
  have counter' : after'.hart.lrScCounter = after.hart.lrScCounter := congrArg (·.2.1) later
  have lock' : after'.board.lock = after.board.lock := congrArg (·.2.2) later
  rw [show before'.hart.lrScCounter = before.hart.lrScCounter from congrArg (·.2.1) earlier] at *
  rw [show before'.board.lock = before.board.lock from congrArg (·.2.2) earlier] at *
  exact ⟨sound, counter'.trans counter, lock'.trans lock⟩

theorem countsDown_performanceAndSyncUpdate (executedOp : Mapping)
    (available : state.board.Available state.hart.core.hartId)
    (returned : ((performanceAndSyncUpdate executedOp).run state).result = .ok ()) :
    CountsDown state ((performanceAndSyncUpdate executedOp).run state).state := by
  rw [performanceAndSyncUpdate] at returned ⊢
  obtain ⟨_, -, rest, reached⟩ := bind_eq_ok returned
  rw [reached]
  clear reached returned
  have first : Steps (Unchanged window) (modifyCsrs fun csrs =>
      if CounterBits.IR.get csrs.mcountinhibit = 0 then { csrs with instret := csrs.instret + 1 }
      else csrs : IssM P Unit) :=
    steps_window_modifyHart (fun hart => by dsimp only; split <;> rfl) fun _ => rfl
  have earlier := first state
  generalize ((modifyCsrs fun csrs => if CounterBits.IR.get csrs.mcountinhibit = 0 then
    { csrs with instret := csrs.instret + 1 } else csrs : IssM P Unit).run state).state = retired
    at earlier rest ⊢
  obtain ⟨hart, ⟨⟩, rest, reached⟩ := bind_eq_ok rest
  rw [reached]
  clear reached
  obtain ⟨_, counted, rest, reached⟩ := bind_eq_ok rest
  rw [reached]
  clear reached
  have owner : retired.board.Available retired.hart.core.hartId := by
    rw [Available, show retired.board.lock = state.board.lock from congrArg (·.2.2) earlier,
      show retired.hart.core.hartId = state.hart.core.hartId from congrArg (·.1) earlier]
    exact available
  have counts : CountsDown retired ((countDown retired.hart).run retired).state :=
    countsDown_countDown owner counted
  refine counts.congr earlier ?_
  have last : Steps (Unchanged window) (do
      modifyHart fun hart =>
        if CounterBits.CY.get hart.csrs.mcountinhibit = 0 then
          { hart with cycleCounter := hart.cycleCounter + instrCycles executedOp }
        else hart
      let hart ← getHart
      memory fun _ => do
        Board.inc (instrCycles executedOp)
        let board ← Exec.get
        Exec.when (P.world.needSync board.world board.localTime ∧ hart.lrScCounter = 0)
          Board.synchronise : IssM P Unit) := by
    refine Steps.bind (steps_window_modifyHart (fun hart => ?_) fun hart => ?_) fun _ => ?_
    · split <;> rfl
    · split <;> rfl
    · exact Steps.bind (Steps.bind Steps.get fun _ => Steps.pure _) fun hart =>
        steps_window_synchronise _ hart
  exact last _

/-- Every instruction that is finished is counted down. -/
theorem countsDown_finishStep (available : state.board.Available state.hart.core.hartId)
    (returned : ((finishStep).run state).result = .ok ()) :
    CountsDown state ((finishStep).run state).state := by
  rw [finishStep] at returned ⊢
  obtain ⟨_, -, rest, reached⟩ := bind_eq_ok returned
  rw [reached]
  clear reached returned
  have cleared : Steps (Unchanged window)
      (modifyHart fun hart => hart.write 0 ⟨32, .BVC 0⟩ : IssM P Unit) :=
    steps_window_modifyHart (fun hart => congrArg CsrTable.mhartid (write_csrs hart _ _))
      fun hart => write_lrScCounter hart _ _
  have first := cleared state
  generalize ((modifyHart fun hart => hart.write 0 ⟨32, .BVC 0⟩ : IssM P Unit).run state).state =
    zeroed at first rest ⊢
  obtain ⟨exits, ⟨⟩, rest, reached⟩ := bind_eq_ok rest
  rw [reached]
  clear reached
  obtain ⟨_, -, rest, reached⟩ := bind_eq_ok rest
  rw [reached]
  clear reached
  have ended : Steps (Unchanged window) (Exec.when zeroed.board.shallExit
      (modifyHart fun hart => { hart with status := .terminated }) : IssM P Unit) :=
    Steps.when fun _ => steps_window_modifyHart (fun _ => rfl) fun _ => rfl
  have second := ended ((Exec.get : IssM P (State P)).run zeroed).state
  generalize ((Exec.when zeroed.board.shallExit
    (modifyHart fun hart => { hart with status := .terminated }) : IssM P Unit).run _).state =
      after at second rest ⊢
  have same : window after = window state := second.trans first
  obtain ⟨hart, ⟨⟩, rest, reached⟩ := bind_eq_ok rest
  rw [reached]
  clear reached
  have owner : after.board.Available after.hart.core.hartId := by
    rw [Available, show after.board.lock = state.board.lock from congrArg (·.2.2) same,
      show after.hart.core.hartId = state.hart.core.hartId from congrArg (·.1) same]
    exact available
  exact (countsDown_performanceAndSyncUpdate _ owner rest).congr same rfl

/-! ## The lock across an instruction -/

/-- An instruction neither stores, makes a reservation nor waits. -/
def holdsReservation : Mapping → Bool
  | .sb | .sh | .sw | .lrW | .scW | .wfi => false
  | .amoswapW | .amoaddW | .amoxorW | .amoandW | .amoorW => false
  | .amominW | .amomaxW | .amominuW | .amomaxuW => false
  | _ => true

theorem access_of_holdsReservation (P : Platform) {op : Mapping} (holds : holdsReservation op = true) :
    (access op = (none : Option (Access P.clover.terms)) ∧ op ≠ .wfi) ∨
      ∃ numBytes, access op = some (.load numBytes : Access P.clover.terms) := by
  cases op <;> first | cases holds; done | exact .inr ⟨_, rfl⟩ | exact .inl ⟨rfl, nofun⟩

/-- The fetch of a step, or its load, updates the flags of a page table entry. A load is
translated like a store. -/
def StepMarks (state : State P) : Prop :=
  TranslationMarks (bus state.hart.core input) state.hart.core state.hart.pc .fetch state.board ∨
    ∃ made middle, Accesses input state made middle ∧ made.kind = .load ∧
      TranslationMarks (bus middle.hart.core input) middle.hart.core (made.addr middle.hart).concrete
        .store (loadBoard made middle)

theorem even_of_fetchReturns {word : Instruction} (fetched : FetchReturns input (begun state) word) :
    state.hart.pc &&& 1 = 0 := by
  obtain ⟨returned, -⟩ := fetched
  by_contra odd
  have crooked : ¬(begun state).hart.pc &&& ~~~(begun state).hart.pcAlignmentMask = 0 := by
    rw [pcAlignmentMask_eq, BitVec.not_not]
    exact odd
  rw [fetch, bind_run, getHart, bind_run, get_run, Outcome.andThen_ok, pure_run, Outcome.andThen_ok,
    bind_run, require_of_not crooked] at returned
  cases returned

section Locks

variable {word : Instruction} (owned : Owned state)
  (fetched : FetchReturns input (begun state) word)

include owned fetched

theorem fetch_lock :
    LockAfter (TranslationMarks (bus state.hart.core input) state.hart.core state.hart.pc .fetch
      state.board) state.board (decodedState input (begun state) word).board := by
  obtain ⟨result, board⟩ := fetch_run input (even_of_fetchReturns input fetched)
  have loaded : ((loadInstr (bus state.hart.core input) state.hart.core state.hart.pc).run
      state.board).result = .ok word := by
    rw [← result, Iss.fetched, fetched.1, ← fetched.2]
    rfl
  rw [decodedState, board]
  clear result board
  rw [loadInstr] at loaded ⊢
  obtain ⟨paddr, translated, read, reached⟩ := bind_eq_ok loaded
  rw [reached]
  clear reached loaded
  have available := (takes_v2p (takes_bus state.hart.core input) (state.hart.pc.setWidth 64)
    .fetch).available (show state.board.Available state.hart.core.hartId from owned)
  have translation := v2p_lock input (show state.board.Available state.hart.core.hartId from owned)
    translated
  obtain ⟨bytes, -, -, reached⟩ := bind_eq_ok read
  rw [reached]
  have kept := lock_of_settled (concreteLoadData_settled input available .fetch paddr 4)
  exact ⟨fun marks => kept.trans (translation.given marks), fun unmarked =>
    kept.trans (translation.kept unmarked)⟩

/-- A load whose instruction returns, and the board it is made on. -/
theorem load_of_ok {made : Access P.clover.terms}
    (found : access (decodedOpcode word) = some made) (loads : made.kind = .load)
    (returned : (executed input state).result = .ok ()) :
    let middle := decodedState input (begun state) word
    let load := (symbolicLoadData (bus middle.hart.core input) middle.hart.core
      (made.addr middle.hart) made.numBytes).run (loadBoard made middle)
    Succeeds load ∧ (executed input state).state.board = load.state := by
  have available := available_decodedState input owned word
  rw [executed, execStep_run input fetched] at returned ⊢
  have aligned : (made.addr (decodedState input (begun state) word).hart).concrete.toNat %
      made.numBytes = 0 := by
    by_contra crooked
    have failed := (execute_failsAs input found (decodedState input (begun state) word)
      (.trap (AccessFault.trap P (.misaligned (made.kind == .load)
        (made.addr (decodedState input (begun state) word).hart).concrete))) ⟨_, rfl⟩).mpr
      ⟨_, by rw [Access.Fails, if_pos crooked], rfl⟩
    rw [failed] at returned
    cases returned
  have ends := execute_endsAs input found loads aligned available
  exact ⟨ends.returned.mp returned, ends.board⟩

omit owned in
theorem stepMarks_iff :
    StepMarks input state ↔
      TranslationMarks (bus state.hart.core input) state.hart.core state.hart.pc .fetch state.board ∨
        ∃ made, access (decodedOpcode word) = some made ∧ made.kind = .load ∧
          let middle := decodedState input (begun state) word
          TranslationMarks (bus middle.hart.core input) middle.hart.core
            (made.addr middle.hart).concrete .store (loadBoard made middle) := by
  refine or_congr Iff.rfl ⟨?_, ?_⟩
  · rintro ⟨made, middle, ⟨word', fetched', found, rfl⟩, loads, marks⟩
    cases fetched.2.symm.trans fetched'.2
    exact ⟨made, found, loads, marks⟩
  · rintro ⟨made, found, loads, marks⟩
    exact ⟨made, _, ⟨word, fetched, found, rfl⟩, loads, marks⟩

/-- An instruction that holds the reservation loses the lock only by marking a page. -/
theorem executed_lock (holds : holdsReservation (decodedOpcode word) = true)
    (returned : (executed input state).result = .ok ()) :
    LockAfter (StepMarks input state) state.board (executed input state).state.board := by
  have earlier := fetch_lock input owned fetched
  refine LockAfter.congr (stepMarks_iff input fetched) ?_
  obtain ⟨plain, awake⟩ | ⟨numBytes, found⟩ := access_of_holdsReservation P holds
  · refine earlier.trans (.nothing ?_ ?_)
    · rintro ⟨made, found, -⟩
      rw [plain] at found
      cases found
    · have kept := settled_execute input plain awake (decodedState input (begun state) word)
      rw [executed, execStep_run input fetched]
      exact lock_of_settled kept
  · obtain ⟨served, board⟩ := load_of_ok input owned fetched found rfl returned
    have available := available_decodedState input owned word
    refine earlier.trans ?_
    rw [board]
    refine LockAfter.congr ?_ (symbolicLoadData_lock input available _ _ served)
    constructor
    · rintro ⟨made, found', -, marks⟩
      cases found.symm.trans found'
      exact marks
    · exact fun marks => ⟨_, found, rfl, marks⟩

/-- A load-reserved that marks no page holds the lock. -/
theorem executed_lrW (links : decodedOpcode word = .lrW) (unmarked : ¬StepMarks input state)
    (returned : (executed input state).result = .ok ()) :
    (executed input state).state.board.lock = some state.hart.core.hartId := by
  have found : access (decodedOpcode word) = some (.loadReserved : Access P.clover.terms) := by
    rw [links]
    rfl
  obtain ⟨served, board⟩ := load_of_ok input owned fetched found rfl returned
  rw [board]
  let middle := decodedState input (begun state) word
  have reserved : (loadBoard .loadReserved middle).Available middle.hart.core.hartId := .inr rfl
  rw [stepMarks_iff input fetched] at unmarked
  refine (symbolicLoadData_lock input reserved _ _ served).kept fun marks => unmarked (.inr ?_)
  exact ⟨_, found, rfl, marks⟩

end Locks

/-! ## The counter across an instruction -/

section Counter

variable {word : Instruction} (fetched : FetchReturns input (begun state) word)

include fetched

theorem executed_counter (holds : holdsReservation (decodedOpcode word) = true) :
    (executed input state).state.hart.lrScCounter = state.hart.lrScCounter := by
  have uncounted : CountsReservation (decodedOpcode word) → False := by
    rintro (links | stores | waits)
    · rw [links] at holds
      cases holds
    · rw [stores] at holds
      cases holds
    · rw [waits] at holds
      cases holds
  rw [executed, execStep_run input fetched]
  exact counter_of_moves (takes_execute input uncounted fun _ => trivial) _

omit fetched in
/-- The first part of a sequence that returns leaves the counter to the rest. -/
theorem counter_of_bind {α β : Type} {first : IssM P α} {next : α → IssM P β} {value : β}
    (moves : Moves False True first) (returned : ((first >>= next).run state).result = .ok value) :
    ∃ middle reached, reached.hart.lrScCounter = state.hart.lrScCounter ∧
      ((next middle).run reached).result = .ok value ∧
      ((first >>= next).run state).state = ((next middle).run reached).state := by
  obtain ⟨middle, -, rest, reached⟩ := bind_eq_ok returned
  exact ⟨middle, _, counter_of_moves moves state, rest, reached⟩

theorem executed_lrW_counter (links : decodedOpcode word = .lrW)
    (returned : (executed input state).result = .ok ()) :
    (executed input state).state.hart.lrScCounter =
      if state.hart.lrScCounter = 0 then 17 else state.hart.lrScCounter := by
  rw [executed, execStep_run input fetched, links] at returned ⊢
  change ((lrW input).run _).result = _ at returned
  change ((lrW input).run _).state.hart.lrScCounter = _
  change _ = if (decodedState input (begun state) word).hart.lrScCounter = 0 then 17
    else (decodedState input (begun state) word).hart.lrScCounter
  generalize decodedState input (begun state) word = middle at returned ⊢
  rw [lrW] at returned ⊢
  obtain ⟨_, first, same, rest, reached⟩ := counter_of_bind (takes_requireIsa _) returned
  rw [reached, ← same]
  obtain ⟨hart, second, same, rest, reached⟩ := counter_of_bind takes_getHart rest
  rw [reached, ← same]
  obtain ⟨_, third, same, rest, reached⟩ := counter_of_bind (takes_trapCheckAddrAlignment _ _ _) rest
  rw [reached, ← same]
  obtain ⟨_, fourth, same, rest, reached⟩ := counter_of_bind (takes_reserving trivial fun core =>
    takes_atomicLoadReservedWord (takes_bus core input) _ _) rest
  rw [reached, ← same]
  obtain ⟨_, last, same, rest, reached⟩ := counter_of_bind (takes_write _ _) rest
  rw [reached, ← same]
  rfl

end Counter

/-! ## Steps -/

/-- A step without trap or interrupt executes an instruction and finishes it. -/
theorem runStep_nothing (returned : ((runStep input).run state).result = .ok .nothing) :
    (executed input state).result = .ok () ∧
      ((finishStep).run (executed input state).state).result = .ok () ∧
      ((runStep input).run state).state = ((finishStep).run (executed input state).state).state := by
  obtain ⟨-, ⟨⟩, -⟩ | ⟨-, ran⟩ := runStep_of_ok input returned
  rw [ran] at returned ⊢
  clear ran
  obtain ⟨taken, caught, rest, reached⟩ := bind_eq_ok returned
  rw [reached]
  clear reached returned
  obtain ⟨_, finished, rest, reached⟩ := bind_eq_ok rest
  rw [reached]
  clear reached
  cases rest
  obtain ⟨plain, same⟩ | ⟨fault, -, handled, -⟩ := tryCatch_eq_ok caught
  · rw [same] at finished ⊢
    rw [stepAndInterrupt] at plain finished ⊢
    obtain ⟨_, ran, rest, reached⟩ := bind_eq_ok plain
    rw [reached] at finished ⊢
    clear reached plain same caught
    change Outcome.result (Exec.run (ite _ _ _) _) = _ at rest
    change (finishStep.run (Outcome.state (Exec.run (ite _ _ _) _))).result = _ at finished
    change _ ∧ _ ∧ (finishStep.run (Outcome.state (Exec.run (ite _ _ _) _))).state = _
    split at rest
    · next chosen =>
        obtain ⟨_, -, rest, -⟩ := bind_eq_ok rest
        obtain ⟨_, -, rest, -⟩ := bind_eq_ok rest
        obtain ⟨_, -, rest, -⟩ := bind_eq_ok rest
        cases rest
    · next calm =>
        rw [if_neg calm] at finished ⊢
        exact ⟨ran, finished, rfl⟩
  · cases fault with
    | trap raised =>
        obtain ⟨mode, -, rest, -⟩ := bind_eq_ok handled
        obtain ⟨_, -, rest, -⟩ := bind_eq_ok rest
        cases rest
    | _ => cases handled

theorem hartId_of_stateStep {before after : State P} {log : List (Event P.clover.terms)}
    (step : StateStep before log after) :
    Unchanged (fun state : State P => state.hart.core.hartId) before after := by
  cases step with
  | hart hart same => exact same
  | _ => rfl

/-- No step of a hart changes its number. -/
theorem hartId_of_stateTakes {α : Type} {body : IssM P α} (takes : StateTakes body)
    (state : State P) : (body.run state).state.hart.core.hartId = state.hart.core.hartId :=
  takes.steps hartId_of_stateStep state

/-- The hart has the bus lock. -/
def Held (state : State P) : Prop := state.board.lock = some state.hart.core.hartId

/-- The step executes an instruction that holds the reservation, and neither traps nor is
interrupted. -/
structure HoldsOn (state : State P) : Prop where
  executes : ∃ word, FetchReturns input (begun state) word ∧
    holdsReservation (decodedOpcode word) = true
  returned : ((runStep input).run state).result = .ok .nothing

/-- The step executes a load-reserved, which neither traps nor is interrupted and updates no page
table entry. -/
structure Links (state : State P) : Prop where
  executes : ∃ word, FetchReturns input (begun state) word ∧ decodedOpcode word = .lrW
  returned : ((runStep input).run state).result = .ok .nothing
  unmarked : ¬StepMarks input state

section Steps

variable (owned : Owned state)

include owned

/-- The bus is still available once an instruction is executed. -/
theorem available_executed :
    (executed input state).state.board.Available (executed input state).state.hart.core.hartId :=
  (show Moves True True (execStep input) from takes_execStep input trivial trivial).state.owned
    (show Owned (begun state) from owned)

/-- A load-reserved starts the counter only if it is not running. -/
theorem step_of_links (links : Links input state) :
    0 ≤ state.hart.lrScCounter ∧ ((runStep input).run state).state.hart.lrScCounter =
        (if state.hart.lrScCounter = 0 then 17 else state.hart.lrScCounter) - 1 ∧
      (Held ((runStep input).run state).state ↔ state.hart.lrScCounter ≠ 1) := by
  obtain ⟨⟨word, fetched, reserves⟩, returned, unmarked⟩ := links
  obtain ⟨ran, finished, reached⟩ := runStep_nothing input returned
  have hartId := hartId_of_stateTakes (takes_runStep input) state
  rw [Held, hartId, reached]
  obtain ⟨sound, counter, lock⟩ := countsDown_finishStep (available_executed input owned) finished
  rw [executed_lrW_counter input fetched reserves ran] at sound counter lock
  rw [counter, lock, executed_lrW input owned fetched reserves unmarked ran]
  by_cases stopped : state.hart.lrScCounter = 0
  · simp [stopped]
  · rw [if_neg stopped] at sound
    simp [stopped, sound]

/-- Every other instruction counts down, and gives the lock up at the end or by marking a page. -/
theorem step_of_holdsOn (holds : HoldsOn input state) :
    ((runStep input).run state).state.hart.lrScCounter =
        (if state.hart.lrScCounter = 0 then 0 else state.hart.lrScCounter - 1) ∧
      (Held ((runStep input).run state).state ↔
        Held state ∧ state.hart.lrScCounter ≠ 1 ∧ ¬StepMarks input state) := by
  obtain ⟨⟨word, fetched, op⟩, returned⟩ := holds
  obtain ⟨ran, finished, reached⟩ := runStep_nothing input returned
  have hartId := hartId_of_stateTakes (takes_runStep input) state
  rw [Held, Held, hartId, reached]
  obtain ⟨-, counter, lock⟩ := countsDown_finishStep (available_executed input owned) finished
  have kept := executed_lock input owned fetched op ran
  rw [executed_counter input fetched op] at counter lock
  refine ⟨counter, ?_⟩
  rw [lock]
  by_cases last : state.hart.lrScCounter = 1
  · simp [last]
  · rw [if_neg last]
    by_cases marks : StepMarks input state
    · rw [kept.given marks]
      simp [marks]
    · rw [kept.kept marks]
      simp [marks, last]

end Steps

/-! ## The window -/

theorem stateAfter_succ (count : Nat) (state : State P) :
    stateAfter (runStep input) (count + 1) state =
      ((runStep input).run (stateAfter (runStep input) count state)).state := by
  induction count generalizing state with
  | zero => rfl
  | succ count inductionHypothesis => exact inductionHypothesis ((runStep input).run state).state

theorem owned_stateAfter (owned : Owned state) (count : Nat) :
    Owned (stateAfter (runStep input) count state) := by
  induction count with
  | zero => exact owned
  | succ count inductionHypothesis =>
      rw [stateAfter_succ]
      exact (takes_runStep input).owned inductionHypothesis

/-- Where the counter starts. -/
def started (state : State P) : Int :=
  if state.hart.lrScCounter = 0 then 17 else state.hart.lrScCounter

/-- After a load-reserved, the lock is held as long as its counter runs and no page is marked. -/
theorem held_iff (owned : Owned state) (links : Links input state) (count : Nat)
    (goesOn : ∀ index < count, HoldsOn input (stateAfter (runStep input) (index + 1) state)) :
    (stateAfter (runStep input) (count + 1) state).hart.lrScCounter =
        max (started state - 1 - count) 0 ∧
      (Held (stateAfter (runStep input) (count + 1) state) ↔ count + 1 < started state ∧
        ∀ index < count, ¬StepMarks input (stateAfter (runStep input) (index + 1) state)) := by
  induction count with
  | zero =>
      obtain ⟨sound, counter, held⟩ := step_of_links input owned links
      rw [stateAfter, stateAfter, counter, held, started]
      have none : ∀ index < 0, ¬StepMarks input (stateAfter (runStep input) (index + 1) state) :=
        fun index inside => absurd inside (Nat.not_lt_zero index)
      refine ⟨?_, ?_⟩
      · split_ifs <;> omega
      · rw [and_iff_left none]
        split_ifs <;> omega
  | succ count inductionHypothesis =>
      obtain ⟨counter, held⟩ := inductionHypothesis fun index inside => goesOn index (by omega)
      obtain ⟨counter', held'⟩ := step_of_holdsOn input (owned_stateAfter input owned (count + 1))
        (goesOn count (Nat.lt_succ_self count))
      rw [stateAfter_succ, counter', held', held, counter]
      refine ⟨?_, ?_⟩
      · split_ifs <;> omega
      · rw [Nat.forall_lt_succ_right]
        constructor
        · rintro ⟨⟨running, unmarked⟩, more, calm⟩
          exact ⟨by omega, unmarked, calm⟩
        · rintro ⟨running, unmarked, calm⟩
          exact ⟨⟨by omega, unmarked⟩, by omega, calm⟩

/-- The lock is held at the beginning of each of the next sixteen instructions. -/
def KeepsWindow (state : State P) : Prop :=
  ∀ count < 16,
    (∀ index < count, HoldsOn input (stateAfter (runStep input) (index + 1) state)) →
      Held (stateAfter (runStep input) (count + 1) state)

/-- The window is kept if and only if the counter was not running yet, or still runs long enough,
and no instruction up to there updates a page table entry. -/
theorem keepsWindow_iff (reachable : Reachable input state) (links : Links input state) :
    KeepsWindow input state ↔ ∀ count < 16,
      (∀ index < count, HoldsOn input (stateAfter (runStep input) (index + 1) state)) →
        (state.hart.lrScCounter = 0 ∨ count + 1 < state.hart.lrScCounter) ∧
          ∀ index < count, ¬StepMarks input (stateAfter (runStep input) (index + 1) state) := by
  refine forall₂_congr fun count inside => forall_congr' fun goesOn => ?_
  rw [(held_iff input (owned_of_reachable input reachable) links count goesOn).2, started]
  refine and_congr_left fun unmarked => ?_
  split_ifs with stopped
  · omega
  · omega

/-! ## Two load-reserved -/

/-- Without page tables nothing is marked. -/
theorem not_stepMarks (detached : P.mmuMem = false) (state : State P) : ¬StepMarks input state := by
  rintro (⟨-, -, -, attached, -⟩ | ⟨made, middle, -, -, -, -, -, attached, -⟩)
  · rw [detached] at attached
    cases attached
  · rw [detached] at attached
    cases attached

/-- A load-reserved, some instructions that do nothing, and another load-reserved. -/
def reservingProgram (gap : Nat) : State tryoutPlatform :=
  programStart (0x1000a2af :: List.replicate gap 0x00000013 ++ [0x1000a2af])

theorem reset_reservingProgram (gap : Nat) : Reset (reservingProgram gap) := reset_programStart _

/-- Fifteen instructions behind the first one, the second one has lost the lock when it is
finished. -/
theorem not_keepsWindow_restarted :
    let state := stateAfter (runStep zeroInput) 16 (reservingProgram 15)
    Reachable zeroInput state ∧ Links zeroInput state ∧ state.hart.lrScCounter = 1 ∧
      ¬KeepsWindow zeroInput state := by
  intro state
  have fetched : FetchReturns zeroInput (begun state) 0x1000a2af := by
    constructor <;> decide +kernel
  have reached : Exec.Reaches (runStep zeroInput) (reservingProgram 15) state :=
    reaches_stateAfter (by decide +kernel)
  refine ⟨⟨_, reset_reservingProgram 15, reached⟩,
    ⟨⟨_, fetched, by decide⟩, by decide +kernel, not_stepMarks zeroInput rfl state⟩,
    by decide +kernel, fun kept => ?_⟩
  have lost : (stateAfter (runStep zeroInput) (0 + 1) state).board.lock = none := by decide +kernel
  have held := kept 0 (by decide) fun index inside => absurd inside (Nat.not_lt_zero index)
  cases lost.symm.trans held

/-- The first one keeps it. -/
theorem keepsWindow_first : KeepsWindow zeroInput (reservingProgram 15) := by
  have fetched : FetchReturns zeroInput (begun (reservingProgram 15)) 0x1000a2af := by
    constructor <;> decide +kernel
  have links : Links zeroInput (reservingProgram 15) :=
    ⟨⟨_, fetched, by decide⟩, by decide +kernel, not_stepMarks zeroInput rfl _⟩
  refine (keepsWindow_iff zeroInput ⟨_, reset_reservingProgram 15, .start⟩ links).mpr fun count _ _ => ?_
  exact ⟨.inl rfl, fun index _ => not_stepMarks zeroInput rfl _⟩

end Iss

end SymexVP
