import SymexVP.StateSteps
import SymexVP.CsrStoreLaw

/-!
# The unprivileged counters

`cycle`, `time` and `instret` are read-only views of machine counters. A read of
`mcycle` computes the number of cycles and leaves it in the table; a read of `cycle`
shows what is in the table. The two agree as long as the table's copy is current, which
it is no longer once an instruction has counted cycles. The other views agree at all
times.
-/

namespace SymexVP.Iss

open Exec

variable {P : Platform} (input : P.clover.terms.Assignment)

/-- The counters that lower levels see, each with the machine counter it shows. -/
def shadows : List (CsrName × CsrName) :=
  [(.cycle, .mcycle), (.cycleh, .mcycleh), (.time, .mtime), (.timeh, .mtimeh),
    (.instret, .minstret), (.instreth, .minstreth)]

/-- A CSR instruction of the current level may read the register. -/
def MayRead (state : State P) (address : BitVec 32) : Prop :=
  ((isInvalidCsrAccess address false).run state).result = .ok false ∧
    ((validateCsrCounterReadAccessRights address).run state).result = .ok ()

/-- Every view shows what its machine counter shows, if both may be read. -/
def ShadowsAgree (state : State P) : Prop :=
  ∀ pair ∈ shadows, MayRead state pair.1.addr → MayRead state pair.2.addr →
    reading state pair.1.addr = reading state pair.2.addr

/-- The table's copy of the cycle counter is current, or the machine counters are out of reach. -/
def CyclesCurrent (state : State P) : Prop :=
  state.hart.prv < machineMode ∨
    state.hart.csrs.cycle = BitVec.ofNat 64 (state.hart.cycleCounter / 10)

/-! ## Whole cycles -/

/-- The cycle counter holds a whole number of cycles. -/
def WholeCycles (state : State P) : Prop := state.hart.cycleCounter % 10 = 0

theorem write_cycleCounter (hart : Hart P.clover.terms) (index : BitVec 5)
    (data : Concolic P.clover.terms) : (hart.write index data).cycleCounter = hart.cycleCounter := by
  unfold Hart.write
  split
  · rfl
  · split <;> rfl

theorem instrCycles_whole (op : Opcode.Mapping) : instrCycles op % 10 = 0 := by
  cases op <;> rfl

theorem wholeCycles_of_move {counts reserves : Prop} {before after : State P}
    {log : List (Event P.clover.terms)} (move : Move counts reserves before log after)
    (whole : WholeCycles before) : WholeCycles after := by
  cases move with
  | hart step =>
      cases step with
      | aside same =>
          have cycles := congrArg Essentials.cycleCounter same
          exact (congrArg (· % 10) cycles).trans whole
      | write index data =>
          rw [WholeCycles, write_cycleCounter]
          exact whole
      | cycles executed =>
          have more := instrCycles_whole executed
          unfold WholeCycles at whole ⊢
          dsimp only
          omega
      | copy | counting => exact whole
  | _ => exact whole

theorem wholeCycles_of_reachable {state : State P} (reachable : Reachable input state) :
    WholeCycles state := by
  obtain ⟨start, reset, reached⟩ := reachable
  refine Reaches.invariant ?_ (fun before _ whole _ => ?_) reached
  · cases reset
    rfl
  · exact (moves_runStep input trivial trivial).keeps WholeCycles wholeCycles_of_move whole

/-! ## Reads -/

theorem mayRead_iff (state : State P) (address : BitVec 32) :
    MayRead state address ↔
      csrPrv address ≤ state.hart.prv ∧ ¬CounterForbidden state.hart address := by
  rw [MayRead, isInvalidCsrAccess_run, validateCsrCounterReadAccessRights_run]
  refine and_congr ?_ ?_
  · simp
  · split
    · next forbidden => exact ⟨nofun, fun allowed => absurd forbidden allowed⟩
    · next allowed => exact ⟨fun _ => allowed, fun _ => rfl⟩

theorem reading_of_mayRead {state : State P} {address : BitVec 32} (may : MayRead state address)
    (other : address ≠ CsrName.satp.addr) : reading state address = shownValue state address := by
  refine reading_of_shown ?_
  rintro (forbidden | ⟨same, -⟩)
  · exact ((mayRead_iff state address).mp may).2 forbidden
  · exact other same

/-- The machine counters may be read in machine mode only, where all counters may be read. -/
theorem mayRead_shadow {pair : CsrName × CsrName} (shadow : pair ∈ shadows) (state : State P) :
    MayRead state pair.1.addr ∧ MayRead state pair.2.addr ↔ ¬state.hart.prv < machineMode := by
  have levels : ∀ pair ∈ shadows, csrPrv pair.1.addr = userMode ∧
      csrPrv pair.2.addr = machineMode ∧ isCounter pair.2.addr = false := by decide
  obtain ⟨user, machine, open_⟩ := levels pair shadow
  rw [mayRead_iff, mayRead_iff, user, machine]
  constructor
  · rintro ⟨-, reaches, -⟩
    exact BitVec.not_lt.mpr reaches
  · intro reaches
    refine ⟨⟨BitVec.le_def.mpr (Nat.zero_le _), ?_⟩, BitVec.not_lt.mp reaches, ?_⟩
    · rintro ⟨-, ⟨lower, -⟩ | ⟨lower, -⟩⟩ <;> exact reaches (by rw [lower]; decide)
    · rintro ⟨counter, -⟩
      rw [open_] at counter
      cases counter

/-- A counter is determined by its halves. -/
theorem eq_of_low_high {first second : BitVec 64}
    (low : CsrTable.low first = CsrTable.low second)
    (high : CsrTable.high first = CsrTable.high second) : first = second := by
  have halves : ∀ counter : BitVec 64,
      CsrTable.high counter ++ CsrTable.low counter = counter := by
    intro counter
    apply BitVec.eq_of_getLsbD_eq
    intro index inside
    simp only [CsrTable.high, CsrTable.low, BitVec.getLsbD_append, BitVec.getLsbD_extractLsb']
    by_cases lower : index < 32
    · simp [lower]
    · have upper : index - 32 < 32 := by omega
      simp [lower, upper, Nat.add_sub_cancel' (Nat.le_of_not_lt lower)]
  rw [← halves first, ← halves second, low, high]

/-- The number of cycles counted so far. -/
def cyclesOf (state : State P) : BitVec 64 := BitVec.ofNat 64 (state.hart.cycleCounter / 10)

theorem shown_cycle (state : State P) :
    shownValue state CsrName.cycle.addr = .ok (CsrTable.low state.hart.csrs.cycle) :=
  congrArg Except.ok BitVec.and_allOnes

theorem shown_cycleh (state : State P) :
    shownValue state CsrName.cycleh.addr = .ok (CsrTable.high state.hart.csrs.cycle) :=
  congrArg Except.ok BitVec.and_allOnes

theorem shown_mcycle {state : State P} (whole : WholeCycles state) :
    shownValue state CsrName.mcycle.addr = .ok (CsrTable.low (cyclesOf state)) := if_pos whole

theorem shown_mcycleh {state : State P} (whole : WholeCycles state) :
    shownValue state CsrName.mcycleh.addr = .ok (CsrTable.high (cyclesOf state)) := if_pos whole

/-- A view agrees if what it shows is the same. -/
theorem reading_shadow {state : State P} {pair : CsrName × CsrName} (shadow : pair ∈ shadows)
    (may : MayRead state pair.1.addr) (may' : MayRead state pair.2.addr) :
    reading state pair.1.addr = reading state pair.2.addr ↔
      shownValue state pair.1.addr = shownValue state pair.2.addr := by
  have apart : ∀ pair ∈ shadows,
      pair.1.addr ≠ CsrName.satp.addr ∧ pair.2.addr ≠ CsrName.satp.addr := by decide
  obtain ⟨first, second⟩ := apart pair shadow
  rw [reading_of_mayRead may first, reading_of_mayRead may' second]

end SymexVP.Iss
