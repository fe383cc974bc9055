import SymexVP.MemoryAssertions
import SymexVP.TranslationCache

/-!
# What a load asks of its page

A load translates its address as a store would. From pages that grant loads it is only
served where a store would be too, or where an earlier store of the same page has left
its translation in the cache; and it marks the page as a store does.
-/

namespace SymexVP

open Exec Board MemoryInterface

variable {P : Platform}

/-! ## Reads leave the memory alone -/

/-- What no read changes. -/
def Board.settled (board : Board P) :
    P.clover.Memory × Option (BitVec 32) × Option Nat ×
      (PrivilegeLevel → MemoryAccessType → Nat → TlbEntry) :=
  (board.memory, board.lock, board.lrAddr, board.tlb)

section Reads

variable (input : P.clover.terms.Assignment) (trans : Payload P.clover.terms)
  (reads : trans.command = .read) (delay : Nat)

include reads

theorem symbolicMemory_read :
    Steps (Unchanged settled) (SymbolicMemory.transport trans delay : MemM P _) := by
  refine Steps.bind Steps.get fun board => Steps.ite (Steps.pure _) ?_
  rw [reads]
  exact Steps.pure _

theorem symbolicCtrl_read (makeSymbolic : BitVec 32 → BitVec 32 → MemM P Unit) :
    Steps (Unchanged settled) (SymbolicCtrl.transport makeSymbolic trans delay) := by
  unfold SymbolicCtrl.transport
  rw [reads]
  split
  · exact Steps.throw _
  · exact Steps.bind (Steps.require _ _) fun _ => Steps.bind Steps.get fun board => Steps.pure _

theorem symbolicSensor_read :
    Steps (Unchanged settled) (SymbolicSensor.transport input trans delay) := by
  unfold SymbolicSensor.transport
  rw [reads]
  refine Steps.bind Steps.get fun board => Steps.ite (Steps.pure _) ?_
  refine Steps.ite (Steps.pure _) (Steps.bind (Steps.emit _) fun _ => ?_)
  exact Steps.bind (Steps.modify fun board => rfl) fun _ => Steps.pure _

theorem symbolicUart_read :
    Steps (Unchanged settled) (SymbolicUart.transport trans delay : MemM P _) := by
  unfold SymbolicUart.transport
  rw [reads]
  dsimp only
  split
  · exact Steps.throw _
  · refine Steps.bind (Steps.require _ _) fun _ => Steps.bind Steps.get fun board => ?_
    refine Steps.bind (Steps.modify fun board => rfl) fun _ => ?_
    exact Steps.bind (Steps.modify fun board => rfl) fun _ => Steps.pure _

omit reads in
theorem externalTransport_settled (device : Nat) :
    Steps (Unchanged settled) (externalTransport device trans delay) := by
  refine Steps.bind Steps.get fun board => ?_
  split
  · exact Steps.throw _
  · exact Steps.bind (Steps.modify fun board => rfl) fun _ => Steps.pure _

theorem deliver_read (makeSymbolic : BitVec 32 → BitVec 32 → MemM P Unit) (target : Target) :
    Steps (Unchanged settled) (SimpleBus.deliver makeSymbolic input target trans delay) := by
  unfold SimpleBus.deliver
  refine Steps.bind (Steps.when fun _ => Steps.emit _) fun _ => ?_
  cases target with
  | memory => exact symbolicMemory_read trans reads delay
  | ctrl => exact symbolicCtrl_read trans reads delay makeSymbolic
  | sensor => exact symbolicSensor_read input trans reads delay
  | uart => exact symbolicUart_read trans reads delay
  | external device => exact externalTransport_settled trans delay device

/-- Whatever a read leads to, it leaves memory, lock, reservation and cache as they are. -/
theorem bus_read (core : Core) :
    Steps (Unchanged settled) (bus core input trans delay) := by
  unfold bus
  cases P.depth with
  | zero => exact Steps.throw _
  | succ depth =>
      unfold SimpleBus.nested SimpleBus.transport
      split
      · exact Steps.pure _
      · refine deliver_read input _ ?_ delay _ _
        exact reads

theorem doTransaction_read (core : Core) :
    Steps (Unchanged settled) (doTransaction (bus core input) trans) := by
  refine Steps.bind Steps.get fun before => ?_
  refine Steps.bind (bus_read input trans reads _ core) fun ⟨answer, delay⟩ => ?_
  refine Steps.bind Steps.get fun after => Steps.bind (Steps.require _ _) fun _ => ?_
  refine Steps.bind (Steps.modify fun board => rfl) fun _ => ?_
  split
  · exact Steps.pure _
  · exact Steps.throw _
  · exact Steps.throw _

omit reads in
theorem readTransaction_settled (core : Core) (address : BitVec 64) (numBytes : Nat) :
    Steps (Unchanged settled) (readTransaction (bus core input) address numBytes) := by
  refine Steps.bind (doTransaction_read input _ rfl core) fun trans => ?_
  split <;> exact Steps.pure _

end Reads

/-! ## Dirty flags -/

/-- No entry becomes dirty. -/
def DirtyKept (before after : Board P) : Prop :=
  ∀ address entry entry', before.entries address = some entry →
    after.entries address = some entry' → Sv32.dirty entry' = true → Sv32.dirty entry = true

section Dirty

variable {board after : Board P} {offset : Nat}

/-- The dirty flag of a word is in its first byte. -/
theorem dirty_word (lawful : P.clover.Lawful) (board : Board P) (offset : Nat) :
    Sv32.dirty (board.word offset) =
      (P.clover.byte board.memory offset).concrete.getLsbD 7 := by
  have byte := congrArg (·.getLsbD 7)
    (lawful.load_concrete board.memory offset 4 0 (by decide))
  simpa [Clover.byteOf, Sv32.dirty, Board.word] using byte

theorem dirtyKept_of_memory (memory : after.memory = board.memory) : DirtyKept board after := by
  intro address entry entry' before later
  have entries : after.entries = board.entries := by
    unfold Board.entries Board.word
    rw [memory]
  rw [entries, before] at later
  cases later
  exact id

/-- Marking an entry that is dirty makes no entry dirty. -/
theorem dirtyKept_of_marking (lawful : P.clover.Lawful)
    (dirty : Sv32.dirty (board.word offset) = true)
    (memory : after.memory = board.withWord offset (Sv32.marked (board.word offset) .store)) :
    DirtyKept board after := by
  intro address entry entry' before later
  obtain ⟨other, placed, rfl⟩ := Option.map_eq_some_iff.mp before
  obtain ⟨_, placed', rfl⟩ := Option.map_eq_some_iff.mp later
  cases placed.symm.trans placed'
  rw [dirty_word lawful, dirty_word lawful, memory]
  by_cases outside : other < offset ∨ offset + 4 ≤ other
  · rw [byte_withWord lawful outside]
    exact id
  · obtain ⟨index, rfl⟩ : ∃ index, other = offset + index := ⟨other - offset, by omega⟩
    have inside : index < 4 := by omega
    have written := lawful.store_inside board.memory offset 32
      (.BVC (Sv32.marked (board.word offset) .store)) 4 index (by decide) inside
    have stored := lawful.load_concrete board.memory offset 4 index inside
    rw [Board.withWord, written, ← stored]
    change Clover.byteOf index (Sv32.marked (board.word offset) .store) |>.getLsbD 7 → _
    change _ → (Clover.byteOf index (board.word offset)).getLsbD 7 = true
    generalize board.word offset = word at dirty ⊢
    revert dirty
    have bits : ∀ index : Fin 4, (Sv32.flags .store).getLsbD (8 * index.val + 7) =
        decide (index.val = 0) := by decide
    have flag := bits ⟨index, inside⟩
    dsimp only at flag
    rw [Clover.byteOf, Clover.byteOf, BitVec.getLsbD_extractLsb', BitVec.getLsbD_extractLsb',
      Sv32.marked, BitVec.getLsbD_or, flag, Sv32.dirty]
    by_cases first : index = 0
    · subst first
      simp
    · simp [first]

end Dirty

/-! ## The translation of a load -/

/-- A read of some bytes is answered, whatever the parts of the board hold that accesses to
memory change. -/
def Board.Mapped (board : Board P) (core : Core) (input : P.clover.terms.Assignment)
    (address : BitVec 64) (numBytes : Nat) : Prop :=
  ∀ memory lock lrAddr tlb localTime, Succeeds
    ((readTransaction (bus core input) address numBytes).run { board with
      memory := memory
      lock := lock
      lrAddr := lrAddr
      tlb := tlb
      localTime := localTime })

/-- The memory answers every read inside of it. -/
theorem mapped_of_memoryOffset {board : Board P} {core : Core}
    {input : P.clover.terms.Assignment} {address : BitVec 64} {numBytes offset : Nat}
    (placed : memoryOffset P address numBytes = some offset) :
    board.Mapped core input address numBytes := by
  intro memory lock lrAddr tlb localTime
  obtain ⟨inner, ran⟩ := read_run core input { board with
    memory := memory
    lock := lock
    lrAddr := lrAddr
    tlb := tlb
    localTime := localTime } placed
  unfold readRequest at ran
  rw [readTransaction, bind_run, ran]
  exact ⟨_, rfl⟩

/-- The physical address a load goes to: the cached one, or else the one of the leaf. -/
def Board.loadTarget (board : Board P) (mode : PrivilegeLevel) (va : BitVec 32)
    (physical : BitVec 34) : BitVec 64 :=
  if board.Cached mode .store va then
    (board.tlb mode .store (cacheIndex va)).ppn ||| (va.setWidth 64 &&& 0xfff#64)
  else physical.setWidth 64

section Loads

variable {input : P.clover.terms.Assignment} {core : Core} {board : Board P}

/-- A page that grants loads grants stores if it is writable. -/
theorem permits_store_of_load {rights : Sv32.Rights} {entry : BitVec 32}
    (granted : Sv32.permits rights .load entry = true) :
    Sv32.permits rights .store entry = Sv32.writable entry := by
  unfold Sv32.permits at granted ⊢
  obtain ⟨supervisor, sum, mxr⟩ := rights
  dsimp only at granted ⊢
  generalize Sv32.readable entry = readable at granted
  generalize Sv32.writable entry = writable
  generalize Sv32.executable entry = executable at granted
  generalize Sv32.user entry = user at granted ⊢
  revert granted
  revert readable writable executable user supervisor sum mxr
  decide

/-- What the store's translation of a load finds. -/
theorem translation_store_of_load {mode : PrivilegeLevel} {va : BitVec 32}
    {physical address : BitVec 34} {entry : BitVec 32}
    (granted : board.translation core mode .load va = .granted physical address entry) :
    board.translation core mode .store va =
      if Sv32.writable entry then .granted physical address entry else .fault := by
  obtain ⟨level, found, permitted, aligned, rfl⟩ := Sv32.leaf_of_granted granted
  have stores : Sv32.permits (core.rights mode) .store entry = Sv32.writable entry :=
    permits_store_of_load permitted
  rw [Board.translation, Sv32.translate, found, Sv32.check]
  rw [show MemoryAccessType.store.access = Sv32.Access.store from rfl, stores, aligned,
    Bool.and_true]

/-- Loads and stores are made in the same mode. -/
theorem effectiveMode_load (core : Core) :
    Mmu.effectiveMode core .load = Mmu.effectiveMode core .store := by
  simp [Mmu.effectiveMode]

/-- A page is marked for a store if it is accessed and dirty. -/
theorem isMarked_store_iff (entry : BitVec 32) :
    isMarked .store entry = true ↔ entry.getLsbD 6 = true ∧ Sv32.dirty entry = true := by
  have bits : ∀ index < 32, (Sv32.flags .store).getLsbD index =
      decide (index = 6 ∨ index = 7) := by decide
  rw [isMarked, beq_iff_eq, Sv32.dirty]
  change entry &&& Sv32.flags .store = Sv32.flags .store ↔ _
  constructor
  · intro set
    have sixth := congrArg (·.getLsbD 6) set
    have seventh := congrArg (·.getLsbD 7) set
    simp only [BitVec.getLsbD_and, bits 6 (by decide), bits 7 (by decide)] at sixth seventh
    exact ⟨by simpa using sixth, by simpa using seventh⟩
  · rintro ⟨accessed, dirty⟩
    apply BitVec.eq_of_getLsbD_eq
    intro index inside
    rw [BitVec.getLsbD_and, bits index inside]
    by_cases flag : index = 6 ∨ index = 7
    · obtain rfl | rfl := flag
      · rw [accessed, Bool.true_and]
      · rw [dirty, Bool.true_and]
    · rw [decide_eq_false flag, Bool.and_false]

theorem accessed_of_isMarked {entry : BitVec 32} (marked : isMarked .load entry = true) :
    entry.getLsbD 6 = true := by
  rw [isMarked, beq_iff_eq] at marked
  have bit := congrArg (·.getLsbD 6) marked
  simpa [MemoryAccessType.access, Sv32.flags] using bit

/-- A walk changes the memory and the lock. -/
theorem walked_eq (type : MemoryAccessType) (result : Sv32.Result) :
    board.walked type result = { board with
      memory := (board.walked type result).memory
      lock := (board.walked type result).lock } := by
  unfold Board.walked
  cases result with
  | missing => rfl
  | fault => rfl
  | granted physical address entry =>
      dsimp only
      split
      · rfl
      · split <;> rfl

/-- A load is a translation, as that of a store, and a read. -/
def translatedRead (input : P.clover.terms.Assignment) (core : Core) (va : BitVec 32)
    (numBytes : Nat) : MemM P (Concolic P.clover.terms) :=
  Mmu.translateVirtualToPhysicalAddr (bus core input) core (va.setWidth 64) .store >>=
    fun paddr => readTransaction (bus core input) paddr numBytes

theorem symbolicLoadData_run (input : P.clover.terms.Assignment) (hasMmu : P.hasMmu = true) (available : board.Available core.hartId)
    (addr : ConcolicValue P.clover.terms 32) (numBytes : Nat) :
    let outcome := (symbolicLoadData (bus core input) core addr numBytes).run board
    let served := (translatedRead input core addr.concrete numBytes).run board
    outcome.result = served.result ∧ outcome.state = served.state := by
  intro outcome served
  have ran : outcome = ⟨served.result, served.state,
      [] ++ ([.concretized .address addr.isSymbolic] ++ [] ++ served.log)⟩ := by
    simp only [outcome]
    rw [symbolicLoadData, bind_run, waitForAccessRights_run available, Outcome.andThen_ok, bind_run,
      Board.getValue, bind_run, emit_run, Outcome.andThen_ok, pure_run, Outcome.andThen_ok, v2p,
      hasMmu, if_pos rfl]
    rfl
  rw [ran]
  exact ⟨rfl, rfl⟩

/-- What is read once the translation is done. -/
theorem translatedRead_of_ok {va : BitVec 32} {numBytes : Nat} {paddr : BitVec 64}
    {after : Board P} {log : List (Event P.clover.terms)}
    (translated : (Mmu.translateVirtualToPhysicalAddr (bus core input) core (va.setWidth 64)
      .store).run board = ⟨.ok paddr, after, log⟩)
    (same : after = { board with
      memory := after.memory
      lock := after.lock
      lrAddr := after.lrAddr
      tlb := after.tlb
      localTime := after.localTime })
    (mapped : board.Mapped core input paddr numBytes) :
    Succeeds ((translatedRead input core va numBytes).run board) ∧
      ((translatedRead input core va numBytes).run board).state.memory = after.memory := by
  have answered := mapped after.memory after.lock after.lrAddr after.tlb after.localTime
  rw [← same] at answered
  have kept := readTransaction_settled input core paddr numBytes after
  rw [translatedRead, bind_run, translated, Outcome.andThen_ok]
  exact ⟨answered, congrArg Prod.fst kept⟩

variable (lawful : P.clover.Lawful) (hasMmu : P.hasMmu = true) (attached : P.mmuMem = true)

include lawful hasMmu attached

/-- A load from a page that grants it is served and makes no entry dirty, if and only if its
translation as a store is cached or the page is one a store has made dirty. -/
theorem symbolicLoadData_served_iff (available : board.Available core.hartId)
    (paged : ¬Mmu.Bare core .load)
    (low : Mmu.effectiveMode core .load = userMode ∨ Mmu.effectiveMode core .load = supervisorMode)
    (addr : ConcolicValue P.clover.terms 32) {physical address : BitVec 34} {entry : BitVec 32}
    (granted : board.translation core (Mmu.effectiveMode core .load) .load addr.concrete =
      .granted physical address entry)
    (accessed : P.pageFaultOnAD = true → isMarked .load entry = true) (numBytes : Nat)
    (mapped : board.Mapped core input
      (board.loadTarget (Mmu.effectiveMode core .load) addr.concrete physical) numBytes) :
    Succeeds ((symbolicLoadData (bus core input) core addr numBytes).run board) ∧
        DirtyKept board ((symbolicLoadData (bus core input) core addr numBytes).run board).state ↔
      board.Cached (Mmu.effectiveMode core .load) .store addr.concrete ∨
        Sv32.writable entry = true ∧ Sv32.dirty entry = true := by
  obtain ⟨result, state⟩ := symbolicLoadData_run input hasMmu available addr numBytes
  rw [Succeeds, result, state]
  clear result state
  generalize addr.concrete = va at granted mapped ⊢
  have bare : ¬Mmu.Bare core .store := by
    rw [Mmu.Bare, effectiveMode_load] at paged
    exact paged
  rw [effectiveMode_load] at low granted mapped ⊢
  by_cases cached : board.Cached (Mmu.effectiveMode core .store) .store va
  · have translated : (Mmu.translateVirtualToPhysicalAddr (bus core input) core (va.setWidth 64)
        .store).run board = _ := translate_of_cached bare low cached
    rw [Board.loadTarget, if_pos cached] at mapped
    obtain ⟨served, memory⟩ := translatedRead_of_ok translated rfl mapped
    exact ⟨fun _ => .inl cached, fun _ => ⟨served, dirtyKept_of_memory memory⟩⟩
  rw [Board.loadTarget, if_neg cached] at mapped
  have stores := translation_store_of_load granted
  have present : board.translation core (Mmu.effectiveMode core .store) .store va ≠ .missing := by
    rw [stores]
    split <;> nofun
  obtain ⟨time, log, translated⟩ := translate_run_of_not_cached input attached bare low cached
    (show board.later.Admits core.hartId board.later from Board.Available.admits available) present
  rw [stores] at translated
  have unserved : ∀ {fault : Fault} {after : Board P} {log : List (Event P.clover.terms)},
      (Mmu.translateVirtualToPhysicalAddr (bus core input) core (va.setWidth 64) .store).run board =
        ⟨.error fault, after, log⟩ →
      ¬∃ value, ((translatedRead input core va numBytes).run board).result = .ok value := by
    rintro fault after log failed ⟨value, returned⟩
    rw [translatedRead, bind_run, failed, Outcome.andThen_error] at returned
    cases returned
  obtain ⟨offset, placed, rfl⟩ := placed_of_granted granted
  generalize stored : board.word offset = entry at *
  let reached : Board P :=
    ({ board.later.walked .store (.granted physical address entry) with localTime := time } :
      Board P).caching (Mmu.effectiveMode core .store) .store va (physical.setWidth 64)
  have same : reached = { board with
      memory := reached.memory
      lock := reached.lock
      lrAddr := reached.lrAddr
      tlb := reached.tlb
      localTime := reached.localTime } := by
    simp only [reached]
    rw [walked_eq]
    rfl
  cases writable : Sv32.writable entry with
  | false =>
      rw [writable] at translated
      refine ⟨fun served => absurd served.1 (unserved translated), ?_⟩
      rintro (hit | ⟨⟨⟩, -⟩)
      exact absurd hit cached
  | true =>
      rw [writable, if_pos rfl] at translated
      cases dirty : Sv32.dirty entry with
      | true =>
          have walked : walkAddress P .store (.granted physical address entry) = some physical := by
            rw [walkAddress]
            cases software : P.pageFaultOnAD with
            | false => rfl
            | true =>
                rw [(isMarked_store_iff entry).mpr ⟨accessed_of_isMarked (accessed software), dirty⟩]
                rfl
          rw [walked] at translated
          obtain ⟨served, memory⟩ := translatedRead_of_ok translated same mapped
          refine ⟨fun _ => .inr ⟨rfl, rfl⟩, fun _ => ⟨served, ?_⟩⟩
          cases unmarked : P.pageFaultOnAD || isMarked .store entry with
          | true =>
              refine dirtyKept_of_memory (memory.trans ?_)
              simp only [Board.caching, Board.walked, unmarked, if_true, Board.later]
          | false =>
              refine dirtyKept_of_marking lawful (show Sv32.dirty (board.word offset) = true from ?_)
                (memory.trans ?_)
              · rwa [stored]
              · simp only [Board.caching, Board.walked, unmarked, placed, Bool.false_eq_true, if_false,
                  stored, Board.later, Board.withWord]
                rfl
      | false =>
          have unmarked : isMarked .store entry = false := by
            rw [← Bool.not_eq_true, isMarked_store_iff, dirty]
            simp
          cases software : P.pageFaultOnAD with
          | true =>
              have refused : walkAddress P .store (.granted physical address entry) = none := by
                rw [walkAddress, software, unmarked]
                rfl
              rw [refused] at translated
              refine ⟨fun served => absurd served.1 (unserved translated), ?_⟩
              rintro (hit | ⟨-, ⟨⟩⟩)
              exact absurd hit cached
          | false =>
              have walked : walkAddress P .store (.granted physical address entry) =
                  some physical := by
                rw [walkAddress, software]
                rfl
              rw [walked] at translated
              obtain ⟨-, memory⟩ := translatedRead_of_ok translated same mapped
              constructor
              · rintro ⟨-, kept⟩
                have before : board.entries address = some entry := by
                  rw [Board.entries, placed, Option.map_some, stored]
                let after := ((translatedRead input core va numBytes).run board).state
                have written : after.memory =
                    board.withWord offset (Sv32.marked entry .store) := by
                  refine memory.trans ?_
                  simp only [Board.caching, Board.walked, unmarked, software, placed,
                    Bool.or_false, Bool.false_eq_true, if_false, Board.later, Board.withWord]
                  rfl
                have later : after.entries address = some (Sv32.marked entry .store) := by
                  rw [Board.entries, placed, Option.map_some, Board.word, written]
                  exact congrArg some (word_withWord lawful)
                have set : Sv32.dirty (Sv32.marked entry .store) = true := by
                  rw [Sv32.dirty, Sv32.marked, BitVec.getLsbD_or,
                    show (Sv32.flags .store).getLsbD 7 = true from rfl, Bool.or_true]
                have dirtied := kept address entry _ before later set
                rw [dirty] at dirtied
                cases dirtied
              · rintro (hit | ⟨-, ⟨⟩⟩)
                exact absurd hit cached

end Loads

/-! ## Load instructions -/

namespace Iss

open Opcode

variable (input : P.clover.terms.Assignment)

/-- An instruction returns if its load does, and leaves the board as the load does. -/
structure EndsAs (body : IssM P Unit) (state : State P)
    (outcome : Outcome Fault (Board P) (Event P.clover.terms) (Concolic P.clover.terms)) : Prop where
  returned : (body.run state).result = .ok () ↔ Succeeds outcome
  board : (body.run state).state.board = outcome.state

/-- What is done with the loaded value cannot fail and does not touch the board. -/
theorem endsAs_memory {α : Type} (body : Core → MemM P (Concolic P.clover.terms))
    (extend : Concolic P.clover.terms → MemM P α)
    (extends_ : ∀ data board, ∃ value, (extend data).run board = ⟨.ok value, board, []⟩)
    (next : α → IssM P Unit)
    (calm : ∀ value state, ((next value).run state).result = .ok () ∧
      ((next value).run state).state.board = state.board) (state : State P) :
    EndsAs (memory (fun core => body core >>= extend) >>= next) state
      ((body state.hart.core).run state.board) := by
  have ran : ∀ outcome, (body state.hart.core).run state.board = outcome →
      (memory (fun core => body core >>= extend)).run state =
        ⟨(outcome.andThen fun data => (extend data).run).result,
          { state with board := (outcome.andThen fun data => (extend data).run).state },
          (outcome.andThen fun data => (extend data).run).log⟩ := by
    rintro _ rfl
    rfl
  cases known : (body state.hart.core).run state.board with
  | mk result after log =>
      cases result with
      | ok data =>
          obtain ⟨value, extended⟩ := extends_ data after
          obtain ⟨returned, board⟩ := calm value { state with board := after }
          have ran := ran _ known
          rw [Outcome.andThen_ok, extended] at ran
          constructor
          · rw [bind_run, ran, Outcome.andThen_ok]
            exact ⟨fun _ => ⟨data, rfl⟩, fun _ => returned⟩
          · rw [bind_run, ran, Outcome.andThen_ok]
            exact board
      | error fault =>
          have ran := ran _ known
          rw [Outcome.andThen_error] at ran
          constructor
          · rw [bind_run, ran, Outcome.andThen_error]
            exact ⟨nofun, fun ⟨_, impossible⟩ => nomatch impossible⟩
          · rw [bind_run, ran, Outcome.andThen_error]

theorem EndsAs.getHart {next : Hart P.clover.terms → IssM P Unit} {state : State P}
    {outcome : Outcome Fault (Board P) (Event P.clover.terms) (Concolic P.clover.terms)}
    (ends : EndsAs (next state.hart) state outcome) :
    EndsAs (Iss.getHart >>= next) state outcome := ⟨ends.returned, ends.board⟩

theorem EndsAs.checked {check : IssM P Unit} {next : Unit → IssM P Unit} {state : State P}
    {log : List (Event P.clover.terms)} (passes : check.run state = ⟨.ok (), state, log⟩)
    {outcome : Outcome Fault (Board P) (Event P.clover.terms) (Concolic P.clover.terms)}
    (ends : EndsAs (next ()) state outcome) : EndsAs (check >>= next) state outcome := by
  constructor
  · rw [bind_run, passes, Outcome.andThen_ok]
    exact ends.returned
  · rw [bind_run, passes, Outcome.andThen_ok]
    exact ends.board

theorem trapCheckAddrAlignment_run {alignment : Nat} {isLoad : Bool}
    {addr : ConcolicValue P.clover.terms 32} (aligned : addr.concrete.toNat % alignment = 0)
    (state : State P) :
    ∃ log, (trapCheckAddrAlignment alignment isLoad addr : IssM P Unit).run state =
      ⟨.ok (), state, log⟩ := by
  refine ⟨[.concretized .address addr.isSymbolic], ?_⟩
  rw [trapCheckAddrAlignment, bind_run, getValue, bind_run, emit_run, Outcome.andThen_ok, pure_run,
    Outcome.andThen_ok, Exec.when, if_neg (not_not.mpr aligned), pure_run]
  rfl

theorem modifyHart_calm (change : Hart P.clover.terms → Hart P.clover.terms) (state : State P) :
    ((modifyHart change : IssM P Unit).run state).result = .ok () ∧
      ((modifyHart change : IssM P Unit).run state).state.board = state.board := ⟨rfl, rfl⟩

section Instructions

variable {check : ConcolicValue P.clover.terms 32 → IssM P Unit} {numBytes : Nat}
  {state : State P}

theorem load_endsAs
    (passes : ∃ log, (check (P.clover.binary .add state.hart.rs1Value state.hart.iImm)).run state =
      ⟨.ok (), state, log⟩) :
    EndsAs (load input check numBytes) state
      ((symbolicLoadData (bus state.hart.core input) state.hart.core
        (P.clover.binary .add state.hart.rs1Value state.hart.iImm) numBytes).run state.board) := by
  obtain ⟨log, passes⟩ := passes
  refine EndsAs.getHart (EndsAs.checked passes ?_)
  exact endsAs_memory
    (fun core => symbolicLoadData (bus core input) core
      (P.clover.binary .add state.hart.rs1Value state.hart.iImm) numBytes)
    (fun data => Pure.pure (P.clover.sext 32 data.value)) (fun _ _ => ⟨_, rfl⟩) _
    (fun _ => modifyHart_calm _) state

theorem loadUnsigned_endsAs
    (passes : ∃ log, (check (P.clover.binary .add state.hart.rs1Value state.hart.iImm)).run state =
      ⟨.ok (), state, log⟩) :
    EndsAs (loadUnsigned input check numBytes) state
      ((symbolicLoadData (bus state.hart.core input) state.hart.core
        (P.clover.binary .add state.hart.rs1Value state.hart.iImm) numBytes).run state.board) := by
  obtain ⟨log, passes⟩ := passes
  refine EndsAs.getHart (EndsAs.checked passes ?_)
  refine endsAs_memory
    (fun core => symbolicLoadData (bus core input) core
      (P.clover.binary .add state.hart.rs1Value state.hart.iImm) numBytes)
    _ (fun data board => ?_) _ (fun _ => modifyHart_calm _) state
  by_cases narrow : data.width < 32
  · rw [if_pos narrow]
    exact ⟨_, rfl⟩
  · rw [if_neg narrow]
    exact ⟨_, rfl⟩

/-- The board a load-reserved reads from. -/
def reserving (state : State P) : Board P :=
  { state.board with
    lock := some state.hart.core.hartId
    lrAddr := some (state.hart.regs state.hart.rs1).object }

theorem lrW_endsAs (aligned : state.hart.rs1Value.concrete.toNat % 4 = 0)
    (available : state.board.Available state.hart.core.hartId) :
    EndsAs (lrW input) state
      ((symbolicLoadData (bus state.hart.core input) state.hart.core state.hart.rs1Value 4).run
        (reserving state)) := by
  have enabled : (requireIsa Misa.A : IssM P Unit).run state = ⟨.ok (), state, []⟩ := by
    simp [requireIsa, Iss.getHart, Exec.when]
  obtain ⟨log, passes⟩ : ∃ log, (trapCheckAddrAlignment 4 true state.hart.rs1Value : IssM P Unit).run
      state = ⟨.ok (), state, log⟩ := trapCheckAddrAlignment_run aligned state
  refine EndsAs.checked enabled (EndsAs.getHart (EndsAs.checked passes ?_))
  let reserve : Core → MemM P Unit := fun core => takeLock core.hartId >>= fun _ =>
    Exec.modify fun board => { board with lrAddr := some (state.hart.regs state.hart.rs1).object }
  let reads : Core → MemM P (Concolic P.clover.terms) := fun core => reserve core >>= fun _ =>
    symbolicLoadData (bus core input) core state.hart.rs1Value 4
  have whole : (fun core => atomicLoadReservedWord (bus core input) core
      (state.hart.regs state.hart.rs1).object state.hart.rs1Value) =
        fun core => reads core >>= fun data => Pure.pure (P.clover.sext 32 data.value) := by
    funext core
    simp only [reads, reserve, bind_assoc]
    rfl
  have reserved : (takeLock state.hart.core.hartId).run state.board =
      ⟨.ok (), { state.board with lock := some state.hart.core.hartId }, []⟩ := by
    rw [takeLock, bind_run, waitForAccessRights_run available, Outcome.andThen_ok, modify_run]
    rfl
  have ran : (reads state.hart.core).run state.board =
      (symbolicLoadData (bus state.hart.core input) state.hart.core state.hart.rs1Value 4).run
        (reserving state) := by
    simp only [reads, reserve]
    rw [bind_run, bind_run, reserved]
    rfl
  rw [whole, ← ran]
  exact endsAs_memory reads _ (fun _ _ => ⟨_, rfl⟩) _ (fun _ _ => ⟨rfl, rfl⟩) state

end Instructions

/-! ## Steps that load -/

section Loading

variable {state middle : State P} {made : Access P.clover.terms}

/-- The board an access of a kind of load reads from. -/
def loadBoard (made : Access P.clover.terms) (middle : State P) : Board P :=
  match made with
  | .loadReserved => reserving middle
  | _ => middle.board

/-- Every load instruction ends as its load does. -/
theorem execute_endsAs {op : Mapping} (found : access op = some made) (loads : made.kind = .load)
    (aligned : (made.addr middle.hart).concrete.toNat % made.numBytes = 0)
    (available : middle.board.Available middle.hart.core.hartId) :
    EndsAs (execute input op) middle
      ((symbolicLoadData (bus middle.hart.core input) middle.hart.core (made.addr middle.hart)
        made.numBytes).run (loadBoard made middle)) := by
  cases op <;> cases found
  case lb => exact load_endsAs input ⟨[], rfl⟩
  case lbu => exact loadUnsigned_endsAs input ⟨[], rfl⟩
  case lh => exact load_endsAs input (trapCheckAddrAlignment_run aligned middle)
  case lhu => exact loadUnsigned_endsAs input (trapCheckAddrAlignment_run aligned middle)
  case lw => exact load_endsAs input (trapCheckAddrAlignment_run aligned middle)
  case lrW => exact lrW_endsAs input aligned available
  all_goals cases loads

/-- When the instruction of a step begins, the bus lock is free or the hart's own, as it was
before. -/
theorem available_decodedState (owned : Owned state) (word : Instruction) :
    (decodedState input (begun state) word).board.Available
      (decodedState input (begun state) word).hart.core.hartId := by
  have begins : Owned (begun state) := owned
  have fetched : Owned ((fetch input).run (begun state)).state :=
    (show Moves True True (fetch input) from takes_fetch input).state.owned begins
  have unchanged : (undecoded ((fetch input).run (begun state)).state word).csrs =
      (undecoded (begun state) word).csrs :=
    congrArg Hart.csrs (congrFun (steps_fetch input (begun state)) word)
  have same : ((fetch input).run (begun state)).state.hart.csrs = (begun state).hart.csrs := unchanged
  rw [Owned, same] at fetched
  exact fetched

/-- The load of a step completes, and no entry becomes dirty. -/
def ServesLoad (state middle : State P) : Prop :=
  (executed input state).result = .ok () ∧
    DirtyKept middle.board (executed input state).state.board

/-- In a reachable state, a load from a page that grants it completes without making an entry
dirty, if and only if its translation as a store is cached or the page is one a store has
made dirty. -/
theorem servesLoad_iff (lawful : P.clover.Lawful) (hasMmu : P.hasMmu = true)
    (attached : P.mmuMem = true) (reachable : Reachable input state)
    (accesses : Accesses input state made middle) (loads : made.kind = .load)
    (aligned : (made.addr middle.hart).concrete.toNat % made.numBytes = 0)
    (paged : ¬Mmu.Bare middle.hart.core .load)
    (low : Mmu.effectiveMode middle.hart.core .load = userMode ∨
      Mmu.effectiveMode middle.hart.core .load = supervisorMode)
    {physical address : BitVec 34} {entry : BitVec 32}
    (granted : middle.board.translation middle.hart.core
      (Mmu.effectiveMode middle.hart.core .load) .load (made.addr middle.hart).concrete =
        .granted physical address entry)
    (accessed : P.pageFaultOnAD = true → isMarked .load entry = true)
    (mapped : middle.board.Mapped middle.hart.core input
      (middle.board.loadTarget (Mmu.effectiveMode middle.hart.core .load)
        (made.addr middle.hart).concrete physical) made.numBytes) :
    ServesLoad input state middle ↔
      middle.board.Cached (Mmu.effectiveMode middle.hart.core .load) .store
          (made.addr middle.hart).concrete ∨
        Sv32.writable entry = true ∧ Sv32.dirty entry = true := by
  obtain ⟨word, fetched, found, rfl⟩ := accesses
  have available := available_decodedState input (owned_of_reachable input reachable) word
  have ends := execute_endsAs input found loads aligned available
  rw [ServesLoad, executed, execStep_run input fetched]
  dsimp only
  rw [ends.returned, ends.board]
  cases made with
  | load numBytes =>
      exact symbolicLoadData_served_iff lawful hasMmu attached available paged low _ granted
        accessed _ mapped
  | loadReserved =>
      exact symbolicLoadData_served_iff lawful hasMmu attached
        (show (reserving _).Available _ from .inr rfl) paged low _ granted accessed _ mapped
  | store numBytes => cases loads
  | storeConditional => cases loads
  | amo operation => cases loads

end Loading

/-! ## A program that loads -/

/-- Page tables are selected, and data is accessed with the rights of the user; then a word is
loaded from the page at `0x401000`, whose leaf is given. -/
def loadingWords (leaf : BitVec 32) : List (Nat × BitVec 32) :=
  [(0x0, 0x800000b7), (0x4, 0x00108093), (0x8, 0x18009073), (0xc, 0x00020137), (0x10, 0x30011073),
    (0x14, 0x004011b7), (0x18, 0x0001a203), (0x1004, 0x801), (0x2004, leaf)]

def loadingStart (leaf : BitVec 32) : State pagedPlatform :=
  ⟨initialHart ⟨false⟩ 0 0 0, pagedBoard (loadingWords leaf)⟩

/-- The state before the load. -/
def loadingState (leaf : BitVec 32) : State pagedPlatform :=
  stateAfter (runStep pagedInput) 6 (loadingStart leaf)

/-- From a page that is only readable the load ends in a page fault of a store. -/
theorem not_servesLoad_readOnly :
    let middle := decodedState pagedInput (begun (loadingState 0x1413)) 0x0001a203
    Reachable pagedInput (loadingState 0x1413) ∧
      Accesses pagedInput (loadingState 0x1413) (.load 4) middle ∧
      middle.board.translation middle.hart.core (Mmu.effectiveMode middle.hart.core .load) .load
        0x401000 = .granted 0x5000 0x2004 0x1413 ∧
      (executed pagedInput (loadingState 0x1413)).result =
        .error (.trap ⟨.storeAmoPageFault, 0x401000⟩) := by
  intro middle
  refine ⟨⟨_, .intro _ _ _ _ _ _ _, reaches_stateAfter (by decide +kernel)⟩, ?_, ?_, ?_⟩
  · have fetched : FetchReturns pagedInput (begun (loadingState 0x1413)) 0x0001a203 := by
      constructor <;> decide +kernel
    exact ⟨_, fetched, rfl, rfl⟩
  · decide +kernel
  · decide +kernel

/-- From a page a store has made dirty it is served. -/
theorem servesLoad_dirty :
    let middle := decodedState pagedInput (begun (loadingState 0x14d7)) 0x0001a203
    ServesLoad pagedInput (loadingState 0x14d7) middle := by
  intro middle
  have fetched : FetchReturns pagedInput (begun (loadingState 0x14d7)) 0x0001a203 := by
    constructor <;> decide +kernel
  have accesses : Accesses pagedInput (loadingState 0x14d7) (.load 4) middle :=
    ⟨_, fetched, rfl, rfl⟩
  have granted : middle.board.translation middle.hart.core
      (Mmu.effectiveMode middle.hart.core .load) .load
        ((Access.load 4 : Access pagedPlatform.clover.terms).addr middle.hart).concrete =
          .granted 0x5000 0x2004 0x14d7 := by decide +kernel
  have target : middle.board.loadTarget (Mmu.effectiveMode middle.hart.core .load)
      ((Access.load 4 : Access pagedPlatform.clover.terms).addr middle.hart).concrete 0x5000 =
        0x5000 := by decide +kernel
  have placed : memoryOffset pagedPlatform 0x5000 4 = some 0x5000 := by decide +kernel
  exact (servesLoad_iff pagedInput Clover.reference_lawful rfl rfl
    ⟨_, .intro _ _ _ _ _ _ _, reaches_stateAfter (by decide +kernel)⟩ accesses rfl
    (by decide +kernel) (by decide +kernel) (.inl (by decide +kernel)) granted nofun
    (by rw [target]; exact mapped_of_memoryOffset placed)).mpr (.inr (by decide))

end Iss

end SymexVP
