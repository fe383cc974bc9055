import SymexVP.ReservationWindow

/-!
# What a store-conditional compares

A register points to an object that holds its value, and a load-reserved leaves a
pointer to its address behind. A store-conditional compares the pointers. Objects are
never changed, so that one object is one value; but one value may be held by many
objects, and every instruction that writes a register makes a new one.
-/

namespace SymexVP.Iss

open Exec Board MemoryInterface Opcode

variable {P : Platform} (input : P.clover.terms.Assignment)

/-! ## Objects and values -/

theorem copyRs1_regs (hart : Hart P.clover.terms) (index : BitVec 5) :
    (copyRs1 hart).regs index = hart.regs (if index = hart.rd then hart.rs1 else index) := by
  by_cases written : index = hart.rd
  · rw [if_pos written, written]
    exact Function.update_self _ _ _
  · rw [if_neg written]
    exact Function.update_of_ne written _ _

/-- An object that exists, and whatever register points to it has its value. -/
structure Names (hart : Hart P.clover.terms) (value : RegValue P.clover.terms) : Prop where
  exists_ : value.object < hart.nextObject
  same : ∀ index, (hart.regs index).object = value.object →
    (hart.regs index).value = value.value

namespace Names

variable {hart after : Hart P.clover.terms} {value : RegValue P.clover.terms}

theorem assignNew (names : Names hart value) (index : BitVec 5)
    (data : ConcolicValue P.clover.terms 32) : Names (hart.assignNew index data) value := by
  refine ⟨Nat.lt_succ_of_lt names.exists_, fun other points => ?_⟩
  by_cases written : other = index
  · subst written
    rw [Hart.assignNew, Hart.assign] at points
    dsimp only at points
    rw [Function.update_self] at points
    exact absurd points (Nat.ne_of_gt names.exists_)
  · rw [Hart.assignNew, Hart.assign] at points ⊢
    dsimp only at points ⊢
    rw [Function.update_of_ne written] at points ⊢
    exact names.same other points

theorem write (names : Names hart value) (index : BitVec 5) (data : Concolic P.clover.terms) :
    Names (hart.write index data) value := by
  unfold Hart.write
  split
  · exact names.assignNew index _
  · split
    · exact names.assignNew index _
    · exact names

theorem step {counts : Prop} (names : Names hart value) (step : HartStep counts hart after) :
    Names after value := by
  cases step with
  | aside same =>
      have regs : after.regs = hart.regs := congrArg Essentials.regs same
      have nextObject : after.nextObject = hart.nextObject := congrArg Essentials.nextObject same
      exact ⟨nextObject ▸ names.exists_, regs ▸ names.same⟩
  | write index data => exact names.write index data
  | copy =>
      refine ⟨names.exists_, fun index points => ?_⟩
      rw [copyRs1_regs] at points ⊢
      exact names.same _ points
  | counting | cycles => exact ⟨names.exists_, names.same⟩

theorem move {counts reserves : Prop} {before after : State P} {log : List (Event P.clover.terms)}
    (move : Move counts reserves before log after) (names : Names before.hart value) :
    Names after.hart value := by
  cases move with
  | hart step => exact names.step step
  | _ => exact names

/-- No computation of the hart takes it away. -/
theorem moves {counts reserves : Prop} {α : Type} {body : IssM P α} {state : State P}
    (names : Names state.hart value) (moves : Moves counts reserves body) :
    Names (body.run state).state.hart value :=
  moves.keeps (fun state : State P => Names state.hart value) Names.move names

end Names

/-- Registers that point to one object have one value. -/
def Shared (hart : Hart P.clover.terms) : Prop := ∀ index, Names hart (hart.regs index)

theorem Shared.assignNew {hart : Hart P.clover.terms} (shared : Shared hart) (index : BitVec 5)
    (data : ConcolicValue P.clover.terms 32) : Shared (hart.assignNew index data) := by
  intro other
  by_cases written : other = index
  · subst written
    have points : (hart.assignNew other data).regs other = ⟨hart.nextObject, data⟩ :=
      Function.update_self _ _ _
    rw [points]
    refine ⟨Nat.lt_succ_self _, fun second same => ?_⟩
    by_cases again : second = other
    · subst again
      rw [points]
    · have kept : (hart.assignNew other data).regs second = hart.regs second :=
        Function.update_of_ne again _ _
      rw [kept] at same
      exact absurd same (Nat.ne_of_lt (shared second).exists_)
  · have kept : (hart.assignNew index data).regs other = hart.regs other :=
      Function.update_of_ne written _ _
    rw [kept]
    exact (shared other).assignNew index data

theorem Shared.step {counts : Prop} {hart after : Hart P.clover.terms} (shared : Shared hart)
    (step : HartStep counts hart after) : Shared after := by
  cases step with
  | write index data =>
      unfold Hart.write
      split
      · exact shared.assignNew index _
      · split
        · exact shared.assignNew index _
        · exact shared
  | aside same =>
      intro index
      have regs : after.regs = hart.regs := congrArg Essentials.regs same
      rw [regs]
      exact (shared index).step (show HartStep counts hart after from .aside same)
  | copy =>
      intro index
      rw [copyRs1_regs]
      exact (shared _).step (show HartStep counts hart (copyRs1 hart) from .copy hart)
  | counting count counted => exact fun index => (shared index).step (.counting hart count counted)
  | cycles executed =>
      exact fun index => (shared index).step
        (show HartStep counts hart _ from .cycles hart executed)

theorem Shared.move {counts reserves : Prop} {before after : State P}
    {log : List (Event P.clover.terms)} (move : Move counts reserves before log after)
    (shared : Shared before.hart) : Shared after.hart := by
  cases move with
  | hart step => exact shared.step step
  | _ => exact shared

theorem Shared.moves {counts reserves : Prop} {α : Type} {body : IssM P α} {state : State P}
    (shared : Shared state.hart) (moves : Moves counts reserves body) :
    Shared (body.run state).state.hart :=
  moves.keeps (fun state : State P => Shared state.hart) Shared.move shared

theorem shared_initialHart (misa : Misa) (hartId entrypoint sp : BitVec 32) :
    Shared (initialHart misa hartId entrypoint sp : Hart P.clover.terms) := by
  have objects : ∀ index, ((initialHart misa hartId entrypoint sp : Hart P.clover.terms).regs
      index).object = if index = 2 then 32 else index.toNat := by
    intro index
    rw [initialHart]
    dsimp only
    split <;> rfl
  intro index
  refine ⟨?_, fun other same => ?_⟩
  · rw [objects]
    have small := index.isLt
    show _ < 33
    split_ifs <;> omega
  · have equal : other = index := by
      rw [objects, objects] at same
      have small := index.isLt
      have small' := other.isLt
      split_ifs at same with first second second
      · rw [first, second]
      · omega
      · omega
      · exact BitVec.eq_of_toNat_eq same
    rw [equal]

/-- In a reachable state registers that point to one object have one value. -/
theorem shared_of_reachable {state : State P} (reachable : Reachable input state) :
    Shared state.hart := by
  obtain ⟨start, reset, reached⟩ := reachable
  induction reached with
  | start =>
      cases reset
      exact shared_initialHart _ _ _ _
  | step earlier returned inductionHypothesis =>
      exact inductionHypothesis.moves (moves_runStep input trivial trivial)

/-! ## The address of the last load-reserved -/

section Reserved

variable {state : State P} {value : RegValue P.clover.terms}

theorem lrAddr_of_move {counts : Prop} {before after : State P}
    {log : List (Event P.clover.terms)} (move : Move counts False before log after) :
    Unchanged (fun state : State P => state.board.lrAddr) before after := by
  cases move with
  | board step kept => exact kept.resolve_left id
  | _ => rfl

theorem lrAddr_of_moves {counts : Prop} {α : Type} {body : IssM P α}
    (moves : Moves counts False body) (state : State P) :
    (body.run state).state.board.lrAddr = state.board.lrAddr := moves.steps lrAddr_of_move state

/-- What follows a computation leaves the reserved address alone. -/
theorem lrAddr_of_bind {α β : Type} {first : IssM P α} {next : α → IssM P β}
    (moves : ∀ middle, Moves True False (next middle)) (state : State P) :
    ((first >>= next).run state).state.board.lrAddr = (first.run state).state.board.lrAddr := by
  rw [bind_run]
  generalize first.run state = outcome
  obtain ⟨result, after, log⟩ := outcome
  cases result with
  | error fault => rfl
  | ok middle => exact lrAddr_of_moves (moves middle) after

/-- The step executes a load-reserved that takes the lock: its address is aligned. -/
structure Reserves (state : State P) (word : Instruction) : Prop where
  running : ¬AtBreakpoint state
  fetched : FetchReturns input (begun state) word
  links : decodedOpcode word = .lrW
  aligned : (decodedHart state.hart word).rs1Value.concrete.toNat % 4 = 0

/-- The rest of a step leaves the reserved address to its instruction. -/
theorem lrAddr_of_executed {taken : Taken} (running : ¬AtBreakpoint state)
    (returned : ((runStep input).run state).result = .ok taken) :
    ((runStep input).run state).state.board.lrAddr =
      (executed input state).state.board.lrAddr := by
  obtain ⟨stopped, -⟩ | ⟨-, ran⟩ := runStep_of_ok input returned
  · exact absurd stopped running
  rw [ran, lrAddr_of_bind fun _ => Takes.bind (takes_finishStep trivial) fun _ => Takes.pure _]
  have executes : ((stepAndInterrupt input).run (begun state)).state.board.lrAddr =
      (executed input state).state.board.lrAddr := by
    refine lrAddr_of_bind (fun _ => Takes.bind Takes.get fun state => ?_) (begun state)
    refine Takes.ite ?_ (Takes.pure _)
    refine Takes.bind (takes_prepareInterrupt _) fun _ => ?_
    refine Takes.bind (Takes.emit fun state => .interrupt state _) fun _ => ?_
    exact Takes.bind (takes_switchToTrapHandler trivial _) fun _ => Takes.pure _
  rw [tryCatch_run, ← executes]
  generalize (stepAndInterrupt input).run (begun state) = outcome
  obtain ⟨result, after, log⟩ := outcome
  cases result with
  | ok taken => rfl
  | error fault => exact lrAddr_of_moves (takes_handleFault trivial fault) after

theorem runStep_stopped (stopped : AtBreakpoint state) :
    ((runStep input).run state).state.board = state.board := by
  unfold AtBreakpoint at stopped
  by_cases cleared : (state.hart.regs 0).value.concrete = 0
  · simp only [runStep, getHart, bind_run, get_run, pure_run, Outcome.andThen_ok,
      require_of cleared, if_pos stopped]
    rfl
  · simp only [runStep, getHart, bind_run, get_run, pure_run, Outcome.andThen_ok,
      require_of_not cleared]
    rfl

theorem lrAddr_of_access {α : Type} {hart : BitVec 32} {body : MemM P α}
    (takes : AccessTakes hart body) (board : Board P) :
    (body.run board).state.lrAddr = board.lrAddr := by
  have kept : Steps (Unchanged fun board : Board P => board.lrAddr) body :=
    takes.steps fun step => step.2
  exact kept board

/-- A load-reserved traps at an address that is not aligned, before it takes the lock. -/
theorem lrW_of_misaligned (crooked : state.hart.rs1Value.concrete.toNat % 4 ≠ 0) :
    ((lrW input).run state).state = state := by
  have enabled : ¬¬state.hart.csrs.misa.has Misa.A = true := by simp
  simp only [lrW, requireIsa, trapCheckAddrAlignment, getValue, Exec.when, getHart, bind_run,
    get_run, emit_run, pure_run, Outcome.andThen_ok, if_neg enabled, if_pos crooked, raiseTrap,
    throw_run, Outcome.andThen_error]

/-- Only a load-reserved that takes the lock reserves another address. -/
theorem executed_lrAddr (running : ¬AtBreakpoint state)
    (other : ∀ word, ¬Reserves input state word) :
    (executed input state).state.board.lrAddr = state.board.lrAddr := by
  have fetches : ((fetch input).run (begun state)).state.board.lrAddr = state.board.lrAddr :=
    lrAddr_of_moves (show Moves True False (fetch input) from takes_fetch input) (begun state)
  cases fetched : ((fetch input).run (begun state)).result with
  | ok value =>
      have returns : FetchReturns input (begun state)
          ((fetch input).run (begun state)).state.hart.instr := ⟨fetched, rfl⟩
      rw [executed, execStep_run input returns]
      by_cases links :
          decodedOpcode ((fetch input).run (begun state)).state.hart.instr = .lrW
      · let decoded := decodedState input (begun state)
          ((fetch input).run (begun state)).state.hart.instr
        have crooked : decoded.hart.rs1Value.concrete.toNat % 4 ≠ 0 :=
          fun aligned => other _ ⟨running, returns, links, aligned⟩
        rw [links]
        change ((lrW input).run decoded).state.board.lrAddr = _
        rw [lrW_of_misaligned input crooked]
        exact fetches
      · refine (lrAddr_of_moves (show Moves True False _ from
          takes_execute input (fun _ => trivial) links) _).trans ?_
        exact fetches
  | error fault =>
      rw [executed, execStep, bind_run, ← fetches]
      generalize (fetch input).run (begun state) = outcome at fetched ⊢
      obtain ⟨result, after, log⟩ := outcome
      cases fetched
      rfl

/-- The last load-reserved that took the lock used this register, in a run from a reachable
state. -/
inductive LastReserved : RegValue P.clover.terms → State P → Prop
  | links {start : State P} {word : Instruction} {taken : Taken} (reachable : Reachable input start)
      (reserves : Reserves input start word)
      (returned : ((runStep input).run start).result = .ok taken) :
      LastReserved ((decodedHart start.hart word).regs (decodedHart start.hart word).rs1)
        ((runStep input).run start).state
  | goesOn {value : RegValue P.clover.terms} {state : State P} {taken : Taken}
      (earlier : LastReserved value state) (other : ∀ word, ¬Reserves input state word)
      (returned : ((runStep input).run state).result = .ok taken) :
      LastReserved value ((runStep input).run state).state

namespace LastReserved

theorem reachable (reserved : LastReserved input value state) : Reachable input state := by
  induction reserved with
  | links reachable reserves returned =>
      obtain ⟨start, reset, reached⟩ := reachable
      exact ⟨start, reset, reached.step returned⟩
  | goesOn earlier other returned inductionHypothesis =>
      obtain ⟨start, reset, reached⟩ := inductionHypothesis
      exact ⟨start, reset, reached.step returned⟩

theorem aligned (reserved : LastReserved input value state) :
    value.value.concrete.toNat % 4 = 0 := by
  induction reserved with
  | links reachable reserves returned => exact reserves.aligned
  | goesOn earlier other returned inductionHypothesis => exact inductionHypothesis

/-- The object the load-reserved used still has its value. -/
theorem names (reserved : LastReserved input value state) : Names state.hart value := by
  induction reserved with
  | @links start word taken reachable reserves returned =>
      have named : Names start.hart (start.hart.regs (decodedHart start.hart word).rs1) :=
        shared_of_reachable input reachable _
      exact named.moves (moves_runStep input trivial trivial)
  | goesOn earlier other returned inductionHypothesis =>
      exact inductionHypothesis.moves (moves_runStep input trivial trivial)

/-- The reservation is for the object the load-reserved used. -/
theorem lrAddr (reserved : LastReserved input value state) :
    state.board.lrAddr = some value.object := by
  induction reserved with
  | @links start word taken reachable reserves returned =>
      rw [lrAddr_of_executed input reserves.running returned, executed,
        execStep_run input reserves.fetched, reserves.links]
      have available := available_decodedState input (owned_of_reachable input reachable) word
      have aligned : (Access.addr .loadReserved
          (decodedState input (begun start) word).hart).concrete.toNat %
            (Access.loadReserved : Access P.clover.terms).numBytes = 0 := reserves.aligned
      rw [(execute_endsAs input (by rfl : access .lrW = some .loadReserved) rfl aligned
        available).board]
      exact lrAddr_of_access (takes_symbolicLoadData (takes_bus _ input) _ _) _
  | @goesOn value state taken earlier other returned inductionHypothesis =>
      by_cases running : AtBreakpoint state
      · rw [runStep_stopped input running, inductionHypothesis]
      · rw [lrAddr_of_executed input running returned, ← inductionHypothesis]
        exact executed_lrAddr input running other

end LastReserved

end Reserved

/-! ## Store-conditional -/

section Conditional

variable {middle : State P}

/-- The store a store-conditional would make. -/
def conditionalStore (middle : State P) : Outcome Fault (Board P) (Event P.clover.terms) Unit :=
  (storeWord (bus middle.hart.core input) middle.hart.core middle.hart.rs1Value
    middle.hart.rs2Value).run middle.board

/-- A store-conditional is decided by the value of its address: if the reservation used the same
value, it ends as the store does and reports success; else it changes nothing but the lock and
reports failure. An address that is not aligned traps. -/
structure DecidesByValue (reserved : BitVec 32) (middle : State P) (result : Except Fault Unit)
    (after : State P) : Prop where
  stores : middle.hart.rs1Value.concrete = reserved →
    (result = .ok () ↔ (conditionalStore input middle).result = .ok ()) ∧
    after.board = (conditionalStore input middle).state ∧
    (result = .ok () → (after.hart.regs middle.hart.rd).value = .BVC 0)
  fails : middle.hart.rs1Value.concrete ≠ reserved →
    (result = .ok () ↔ middle.hart.rs1Value.concrete.toNat % 4 = 0) ∧
    { after.board with lock := none } = { middle.board with lock := none } ∧
    (result = .ok () → (after.hart.regs middle.hart.rd).value = .BVC 1)

theorem scW_of_misaligned (crooked : middle.hart.rs1Value.concrete.toNat % 4 ≠ 0) :
    ((scW input).run middle).result ≠ .ok () ∧ ((scW input).run middle).state = middle := by
  have enabled : ¬¬middle.hart.csrs.misa.has Misa.A = true := by simp
  simp only [scW, requireIsa, trapCheckAddrAlignment, getValue, Exec.when, getHart, bind_run,
    get_run, emit_run, pure_run, Outcome.andThen_ok, if_neg enabled, if_pos crooked, raiseTrap,
    throw_run, Outcome.andThen_error]
  refine ⟨?_, trivial⟩
  rintro ⟨⟩

/-- The attempt of a store-conditional to store. -/
def attempt (middle : State P) : Outcome Fault (Board P) (Event P.clover.terms) Bool :=
  (atomicStoreConditionalWord (bus middle.hart.core input) middle.hart.core
    (middle.hart.regs middle.hart.rs1).object middle.hart.rs1Value middle.hart.rs2Value).run
      middle.board

theorem write_regs (hart : Hart P.clover.terms) (index : BitVec 5)
    (value : ConcolicValue P.clover.terms 32) :
    ((hart.write index ⟨32, value⟩).regs index).value = value := by
  have assigned : (hart.write index ⟨32, value⟩).regs =
      Function.update hart.regs index ⟨hart.nextObject, value⟩ := rfl
  rw [assigned, Function.update_self]

/-- From an aligned address on, a store-conditional reports what its attempt returned. -/
theorem scW_of_aligned (aligned : middle.hart.rs1Value.concrete.toNat % 4 = 0) :
    (((scW input).run middle).result = .ok () ↔
      ∃ stored, (attempt input middle).result = .ok stored) ∧
    ((scW input).run middle).state.board = (attempt input middle).state ∧
    ∀ stored, (attempt input middle).result = .ok stored →
      (((scW input).run middle).state.hart.regs middle.hart.rd).value =
        .BVC (if stored then 0 else 1) := by
  have enabled : ¬¬middle.hart.csrs.misa.has Misa.A = true := by simp
  let failing : State P :=
    { middle with hart := middle.hart.write middle.hart.rd ⟨32, .BVC 1⟩ }
  have attempted : (memory fun core => atomicStoreConditionalWord (bus core input) core
      (middle.hart.regs middle.hart.rs1).object middle.hart.rs1Value middle.hart.rs2Value).run
        failing =
      ⟨(attempt input middle).result, { failing with board := (attempt input middle).state },
        (attempt input middle).log⟩ := rfl
  simp only [scW, requireIsa, trapCheckAddrAlignment, getValue, Exec.when, getHart, bind_run,
    get_run, emit_run, pure_run, Outcome.andThen_ok, if_neg enabled, if_neg (not_not.mpr aligned),
    modifyHart, modify_run]
  rw [show ({ hart := middle.hart.write middle.hart.rd ⟨32, .BVC 1⟩, board := middle.board } :
    State P) = failing from rfl, attempted]
  cases (attempt input middle).result with
  | error fault =>
      refine ⟨⟨?_, ?_⟩, rfl, ?_⟩
      · rintro ⟨⟩
      · rintro ⟨_, ⟨⟩⟩
      · rintro _ ⟨⟩
  | ok stored =>
      refine ⟨⟨fun _ => ⟨stored, rfl⟩, fun _ => rfl⟩, rfl, ?_⟩
      rintro _ ⟨⟩
      exact write_regs _ _ _

/-- Without the lock nothing is stored. -/
theorem attempt_of_lost (lost : ¬Held middle) :
    attempt input middle = ⟨.ok false, middle.board, []⟩ := by
  have foreign : ¬middle.board.isLockedBy middle.hart.core.hartId = true := fun owns =>
    lost (eq_of_beq owns)
  rw [attempt, atomicStoreConditionalWord, bind_run, get_run, Outcome.andThen_ok, if_neg foreign]
  rfl

section Owner

variable (held : Held middle) {reserved : Nat} (lrAddr : middle.board.lrAddr = some reserved)

include held lrAddr

/-- The reserved object is stored to. -/
theorem attempt_of_same (same : (middle.hart.regs middle.hart.rs1).object = reserved) :
    ((∃ stored, (attempt input middle).result = .ok stored) ↔
        (conditionalStore input middle).result = .ok ()) ∧
      (attempt input middle).state = (conditionalStore input middle).state ∧
      ∀ stored, (attempt input middle).result = .ok stored → stored = true := by
  have owns : middle.board.isLockedBy middle.hart.core.hartId = true := by
    rw [isLockedBy, show middle.board.lock = some middle.hart.core.hartId from held,
      beq_self_eq_true]
  have reserves : middle.board.lrAddr = some (middle.hart.regs middle.hart.rs1).object := by
    rw [lrAddr, same]
  have attempted : attempt input middle =
      (conditionalStore input middle).andThen fun _ => (pure true : MemM P Bool).run := by
    rw [attempt, atomicStoreConditionalWord, bind_run, get_run, Outcome.andThen_ok, if_pos owns,
      if_pos reserves]
    rfl
  rw [attempted]
  generalize conditionalStore input middle = outcome
  obtain ⟨result, after, log⟩ := outcome
  cases result with
  | error fault =>
      refine ⟨⟨?_, ?_⟩, rfl, ?_⟩
      · rintro ⟨_, ⟨⟩⟩
      · rintro ⟨⟩
      · rintro _ ⟨⟩
  | ok value =>
      refine ⟨⟨fun _ => rfl, fun _ => ⟨true, rfl⟩⟩, rfl, ?_⟩
      rintro stored ⟨⟩
      rfl

/-- For another object the lock is given up. -/
theorem attempt_of_other (other : (middle.hart.regs middle.hart.rs1).object ≠ reserved) :
    (attempt input middle).result = .ok false ∧
      (attempt input middle).state = { middle.board with lock := none } := by
  have owns : middle.board.isLockedBy middle.hart.core.hartId = true := by
    rw [isLockedBy, show middle.board.lock = some middle.hart.core.hartId from held,
      beq_self_eq_true]
  have foreign : ¬middle.board.lrAddr = some (middle.hart.regs middle.hart.rs1).object := by
    rw [lrAddr]
    exact fun same => other (Option.some.inj same).symm
  rw [attempt, atomicStoreConditionalWord, bind_run, get_run, Outcome.andThen_ok, if_pos owns,
    if_neg foreign, bind_run, unlock_run (.inr held)]
  exact ⟨rfl, rfl⟩

end Owner

/-- An attempt that stores nothing gives at most the lock up. -/
theorem attempt_of_not_stored (lost : (attempt input middle).result = .ok false)
    (board : (attempt input middle).state = middle.board ∨
      (attempt input middle).state = { middle.board with lock := none })
    (aligned : middle.hart.rs1Value.concrete.toNat % 4 = 0) :
    ((scW input).run middle).result = .ok () ∧
      { ((scW input).run middle).state.board with lock := none } =
        { middle.board with lock := none } ∧
      (((scW input).run middle).state.hart.regs middle.hart.rd).value = .BVC 1 := by
  obtain ⟨returns, reached, reports⟩ := scW_of_aligned input aligned
  refine ⟨returns.mpr ⟨false, lost⟩, ?_, reports false lost⟩
  rw [reached]
  obtain same | same := board <;> rw [same]

end Conditional

/-! ## Deciding by the value -/

section Deciding

variable {state : State P} {value : RegValue P.clover.terms} {word : Instruction}

/-- The registers and the reservation in which an instruction is executed. -/
theorem LastReserved.decoded (reserved : LastReserved input value state) (word : Instruction) :
    Names (decodedState input (begun state) word).hart value ∧
      (decodedState input (begun state) word).board.lrAddr = some value.object := by
  refine ⟨⟨reserved.names.exists_, reserved.names.same⟩, ?_⟩
  refine (lrAddr_of_moves (show Moves True False (fetch input) from takes_fetch input) _).trans ?_
  exact reserved.lrAddr

/-- A store-conditional whose hart holds the lock is decided by the value of its address if and only
if an equal value is still the object that the load-reserved used, and its own fetch has not
updated a page table entry. -/
theorem decidesByValue_iff (reserved : LastReserved input value state) (held : Held state)
    (fetched : FetchReturns input (begun state) word) (conditional : decodedOpcode word = .scW) :
    let middle := decodedState input (begun state) word
    DecidesByValue input value.value.concrete middle (executed input state).result
        (executed input state).state ↔
      (middle.hart.rs1Value.concrete = value.value.concrete →
        (middle.hart.regs middle.hart.rs1).object = value.object ∧
        ¬TranslationMarks (bus state.hart.core input) state.hart.core state.hart.pc .fetch
          state.board) := by
  intro middle
  obtain ⟨names, lrAddr⟩ := reserved.decoded input word
  have owned := owned_of_reachable input reserved.reachable
  have lock := fetch_lock input owned fetched
  rw [executed, execStep_run input fetched, conditional]
  change DecidesByValue input value.value.concrete middle ((scW input).run middle).result
    ((scW input).run middle).state ↔ _
  -- What happens at an address the attempt does not store to.
  have rejected (apart : (middle.hart.regs middle.hart.rs1).object = value.object →
      ¬Held middle) : (attempt input middle).result = .ok false ∧
        ((attempt input middle).state = middle.board ∨
          (attempt input middle).state = { middle.board with lock := none }) := by
    by_cases owns : Held middle
    · obtain ⟨lost, board⟩ := attempt_of_other input owns lrAddr fun same => apart same owns
      exact ⟨lost, .inr board⟩
    · rw [attempt_of_lost input owns]
      exact ⟨rfl, .inl rfl⟩
  constructor
  · intro decides equal
    have aligned : middle.hart.rs1Value.concrete.toNat % 4 = 0 := by
      rw [equal]
      exact reserved.aligned
    by_contra apart
    obtain ⟨lost, board⟩ := rejected fun same owns => apart ⟨same, fun marks => by
      have given := lock.given marks
      cases given.symm.trans owns⟩
    obtain ⟨returns, -, fails⟩ := attempt_of_not_stored input lost board aligned
    have stores := (decides.stores equal).2.2 returns
    rw [fails] at stores
    have reports : (1 : BitVec 32) = 0 := congrArg ConcolicValue.concrete stores
    cases reports
  · intro points
    refine ⟨fun equal => ?_, fun differs => ?_⟩
    · obtain ⟨same, unmarked⟩ := points equal
      have owns : Held middle := (lock.kept unmarked).trans held
      have aligned : middle.hart.rs1Value.concrete.toNat % 4 = 0 := by
        rw [equal]
        exact reserved.aligned
      obtain ⟨returns, reached, reports⟩ := scW_of_aligned input aligned
      obtain ⟨ends, board, stores⟩ := attempt_of_same input owns lrAddr same
      refine ⟨returns.trans ends, reached.trans board, fun returned => ?_⟩
      obtain ⟨stored, attempted⟩ := returns.mp returned
      rw [reports stored attempted, stores stored attempted]
      rfl
    · have apart : (middle.hart.regs middle.hart.rs1).object ≠ value.object := fun same =>
        differs (congrArg ConcolicValue.concrete (names.same _ same))
      by_cases aligned : middle.hart.rs1Value.concrete.toNat % 4 = 0
      · obtain ⟨lost, board⟩ := rejected fun same => absurd same apart
        obtain ⟨returns, reached, reports⟩ := attempt_of_not_stored input lost board aligned
        exact ⟨iff_of_true returns aligned, reached, fun _ => reports⟩
      · obtain ⟨traps, reached⟩ := scW_of_misaligned input aligned
        refine ⟨iff_of_false traps aligned, ?_, fun returned => absurd returned traps⟩
        rw [reached]

end Deciding

/-! ## An address in two registers -/

/-- LR.W x5,(x1); SC.W x6,x7,(x1). -/
def pairedProgram : State tryoutPlatform := programStart [0x1000a2af, 0x1870a32f]

/-- LR.W x5,(x1); ADDI x2,x1,0; SC.W x6,x7,(x2). -/
def copiedProgram : State tryoutPlatform := programStart [0x1000a2af, 0x00008113, 0x1871232f]

theorem reserves_paired : Reserves zeroInput pairedProgram 0x1000a2af where
  running := by unfold AtBreakpoint; decide +kernel
  fetched := by constructor <;> decide +kernel
  links := by decide
  aligned := by decide +kernel

theorem reserves_copied : Reserves zeroInput copiedProgram 0x1000a2af where
  running := by unfold AtBreakpoint; decide +kernel
  fetched := by constructor <;> decide +kernel
  links := by decide
  aligned := by decide +kernel

/-- The register the first instruction of both programs takes its address from. -/
def firstAddress (start : State tryoutPlatform) : RegValue tryoutPlatform.clover.terms :=
  (decodedHart start.hart 0x1000a2af).regs (decodedHart start.hart 0x1000a2af).rs1

theorem lastReserved_paired :
    LastReserved zeroInput (firstAddress pairedProgram)
      (stateAfter (runStep zeroInput) 1 pairedProgram) := by
  have returned : ((runStep zeroInput).run pairedProgram).result = .ok .nothing := by decide +kernel
  exact .links ⟨_, reset_programStart _, .start⟩ reserves_paired returned

theorem lastReserved_copied :
    LastReserved zeroInput (firstAddress copiedProgram)
      (stateAfter (runStep zeroInput) 2 copiedProgram) := by
  have returned : ((runStep zeroInput).run copiedProgram).result = .ok .nothing := by decide +kernel
  have returned' : ((runStep zeroInput).run
      ((runStep zeroInput).run copiedProgram).state).result = .ok .nothing := by decide +kernel
  refine .goesOn (.links ⟨_, reset_programStart _, .start⟩ reserves_copied returned) ?_ returned'
  intro word reserves
  have fetched : FetchReturns zeroInput (begun ((runStep zeroInput).run copiedProgram).state)
      0x00008113 := by
    constructor <;> decide +kernel
  cases fetched.2.symm.trans reserves.fetched.2
  exact absurd reserves.links (by decide)

/-- An address copied to another register is another object. -/
theorem not_decidesByValue_copied :
    let state := stateAfter (runStep zeroInput) 2 copiedProgram
    let middle := decodedState zeroInput (begun state) 0x1871232f
    LastReserved zeroInput (firstAddress copiedProgram) state ∧ Held state ∧
      FetchReturns zeroInput (begun state) 0x1871232f ∧ decodedOpcode 0x1871232f = .scW ∧
      middle.hart.rs1Value.concrete = (firstAddress copiedProgram).value.concrete ∧
      ¬DecidesByValue zeroInput (firstAddress copiedProgram).value.concrete middle
        (executed zeroInput state).result (executed zeroInput state).state := by
  intro state middle
  have equal : middle.hart.rs1Value.concrete = (firstAddress copiedProgram).value.concrete := by
    decide +kernel
  refine ⟨lastReserved_copied, by unfold Held; decide +kernel, by constructor <;> decide +kernel,
    by decide, equal, fun decides => ?_⟩
  have returned : (executed zeroInput state).result = .ok () := by decide +kernel
  have failure : ((executed zeroInput state).state.hart.regs middle.hart.rd).value.concrete = 1 := by
    decide +kernel
  have stores := congrArg ConcolicValue.concrete ((decides.stores equal).2.2 returned)
  cases failure.symm.trans stores

/-- The register of the load-reserved, left as it is, is the same object. -/
theorem decidesByValue_paired :
    let state := stateAfter (runStep zeroInput) 1 pairedProgram
    DecidesByValue zeroInput (firstAddress pairedProgram).value.concrete
      (decodedState zeroInput (begun state) 0x1870a32f) (executed zeroInput state).result
        (executed zeroInput state).state := by
  have held : Held (stateAfter (runStep zeroInput) 1 pairedProgram) := by
    unfold Held
    decide +kernel
  have fetched : FetchReturns zeroInput
      (begun (stateAfter (runStep zeroInput) 1 pairedProgram)) 0x1870a32f := by
    constructor <;> decide +kernel
  refine (decidesByValue_iff zeroInput lastReserved_paired held fetched (by decide)).mpr
    fun _ => ⟨?_, ?_⟩
  · decide +kernel
  · rintro ⟨-, -, -, attached, -⟩
    cases attached

end SymexVP.Iss
