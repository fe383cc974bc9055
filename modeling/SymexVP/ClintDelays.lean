import SymexVP.ClintTimer

/-!
# The delays the process waits for

For a compare value ahead of the time, `run` notifies itself after the difference of two
times, each of which is a product that 64 bits may not hold. The difference of the products
is right modulo `2 ^ 64`, so that the delay is the distance to the compare value exactly if
64 bits hold that distance. Otherwise it is too short, and it may be zero: then the process
is woken where it stands, and finds everything as it was.
-/

namespace SymexVP.Clint

open ActionRun Exec

variable {numberOfCores hart : Nat} {clint next : State} {log : List Event}

/-- The compare value of a hart lies ahead and is not the largest one. -/
structure Ahead (clint : State) (hart : Nat) : Prop where
  positive : 0 < clint.compare hart
  below : clint.compare hart < BitVec.allOnes 64
  later : clint.time < clint.compare hart

/-- From the time to the compare value, in picoseconds. -/
def distance (clint : State) (hart : Nat) : Nat :=
  ((clint.compare hart).toNat - clint.time.toNat) * scaler

/-- The largest `sc_time`. -/
def maxTime : Nat := 2 ^ 64 - 1

/-- The delay the loop passes to `notify` for a hart: when it would be due, if nothing else were
pending. -/
def delayPassed (clint : State) (hart : Nat) : Option Nat :=
  ((evaluate hart).run { clint with irqEvent := none }).state.irqEvent.map (· - clint.timeStamp)

/-- The delay is the distance, or the largest time if that is too far, and it is positive. -/
def DelayExact (clint : State) (hart : Nat) : Prop :=
  ∃ delay, delayPassed clint hart = some delay ∧ 0 < delay ∧
    (delay = distance clint hart ∨ maxTime < distance clint hart ∧ delay = maxTime)

/-- The state in which `run` goes through the harts. -/
def found (clint : State) : State := updated { clint with woken := false }

/-- The difference of the products is the product of the difference, modulo `2 ^ 64`. -/
theorem untilGoal_eq_mod {cmp mtime : BitVec 64} (later : mtime < cmp) :
    untilGoal cmp mtime = (cmp.toNat - mtime.toNat) * scaler % 2 ^ 64 := by
  have scaled : (BitVec.ofNat 64 scaler).toNat = scaler := by decide
  have product : cmp * BitVec.ofNat 64 scaler - mtime * BitVec.ofNat 64 scaler =
      (cmp - mtime) * BitVec.ofNat 64 scaler := by grind
  rw [untilGoal, product, BitVec.toNat_mul, scaled,
    BitVec.toNat_sub_of_le (BitVec.le_of_lt later)]

theorem evaluate_run (ahead : Ahead clint hart) :
    ((evaluate hart).run clint).state = notify (untilGoal (clint.compare hart) clint.time)
      { clint with
        timerLine := fun other => if other = hart then false else clint.timerLine other } := by
  have low : ¬(0 < clint.compare hart ∧ clint.compare hart ≤ clint.time) :=
    fun reached => absurd ahead.later (BitVec.not_lt.mpr reached.2)
  have timed : 0 < clint.compare hart ∧ clint.compare hart < BitVec.allOnes 64 :=
    ⟨ahead.positive, ahead.below⟩
  unfold evaluate
  rw [bind_run, get_run, Outcome.andThen_ok]
  dsimp only
  rw [if_neg low]
  simp only [triggerTimerInterrupt, bind_run, modify_run, emit_run, Outcome.andThen_ok]
  rw [Exec.when, if_pos timed]
  rfl

theorem delayPassed_eq (ahead : Ahead clint hart) :
    delayPassed clint hart = some (distance clint hart % 2 ^ 64) := by
  have same : Ahead { clint with irqEvent := none } hart :=
    ⟨ahead.positive, ahead.below, ahead.later⟩
  rw [delayPassed, evaluate_run same, distance, ← untilGoal_eq_mod ahead.later]
  exact congrArg some (Nat.add_sub_cancel_left _ _)

/-- The delay is exact if and only if 64 bits hold the distance. -/
theorem delayExact_iff (ahead : Ahead clint hart) :
    DelayExact clint hart ↔ distance clint hart < 2 ^ 64 := by
  have later := BitVec.lt_def.mp ahead.later
  have passed := delayPassed_eq ahead
  constructor
  · rintro ⟨delay, given, -, same⟩
    have wrapped : distance clint hart % 2 ^ 64 = delay :=
      Option.some.inj (passed.symm.trans given)
    rcases same with rfl | ⟨-, rfl⟩
    · rw [← wrapped]
      exact Nat.mod_lt _ (by decide)
    · -- The product is even.
      unfold distance scaler maxTime at wrapped
      omega
  · intro fits
    refine ⟨distance clint hart, ?_, ?_, .inl rfl⟩
    · rw [passed, Nat.mod_eq_of_lt fits]
    · exact Nat.mul_pos (Nat.sub_pos_of_lt later) (by decide)

/-! ## Rounds of the process -/

/-- What is pending after the loop was pending before, or stems from a hart with a compare value
ahead. -/
theorem pending_evaluate {value : Unit} {due : Nat}
    (returned : Returns (evaluate hart) clint value next log) (pending : next.irqEvent = some due) :
    clint.irqEvent = some due ∨
      Ahead clint hart ∧ due = clint.timeStamp + distance clint hart % 2 ^ 64 := by
  simp only [evaluate, returns_bind_iff, returns_get_iff] at returned
  obtain ⟨_, _, _, _, ⟨rfl, rfl, rfl⟩, chosen, rfl⟩ := returned
  split at chosen
  case isTrue reached =>
    obtain ⟨rfl, -⟩ := returns_triggerTimerInterrupt chosen
    exact .inl pending
  case isFalse low =>
    obtain ⟨_, _, _, _, lowered, rest, rfl⟩ := returns_bind_iff.mp chosen
    obtain ⟨rfl, rfl⟩ := returns_triggerTimerInterrupt lowered
    rcases returns_when_iff.mp rest with ⟨timed, notified⟩ | ⟨-, rfl, -⟩
    · obtain ⟨rfl, -⟩ := returns_modify_iff.mp notified
      have ahead : Ahead clint hart :=
        ⟨timed.1, timed.2, BitVec.not_le.mp fun reached => low ⟨timed.1, reached⟩⟩
      rw [untilGoal_eq_mod ahead.later] at pending
      cases event : clint.irqEvent with
      | none =>
          simp only [notify, event, Option.some.injEq] at pending
          exact .inr ⟨ahead, pending.symm⟩
      | some earlier =>
          simp only [notify, event, Option.some.injEq] at pending
          rcases Nat.le_total earlier
            (clint.timeStamp + distance clint hart % 2 ^ 64) with sooner | sooner
          · exact .inl (congrArg some ((Nat.min_eq_left sooner).symm.trans pending))
          · exact .inr ⟨ahead, pending.symm.trans (Nat.min_eq_right sooner)⟩
    · exact .inl pending

theorem pending_evaluateAll {harts : List Nat} {value : Unit} {due : Nat}
    (returned : Returns (evaluateAll harts) clint value next log)
    (pending : next.irqEvent = some due) :
    clint.irqEvent = some due ∨ ∃ hart ∈ harts,
      Ahead clint hart ∧ due = clint.timeStamp + distance clint hart % 2 ^ 64 := by
  induction harts generalizing clint log with
  | nil =>
      obtain ⟨-, rfl, -⟩ := returns_pure_iff.mp returned
      exact .inl pending
  | cons first rest later =>
      obtain ⟨_, middle, _, _, looked, continued, -⟩ := returns_bind_iff.mp returned
      obtain ⟨loops, -⟩ := returns_evaluate looked
      rcases later continued with before | ⟨hart, member, ahead, same⟩
      · rcases pending_evaluate looked before with before | ⟨ahead, same⟩
        · exact .inl before
        · exact .inr ⟨first, List.mem_cons_self, ahead, same⟩
      · refine .inr ⟨hart, List.mem_cons_of_mem first member, ?_, ?_⟩
        · obtain ⟨positive, below, ahead⟩ := ahead
          rw [loops.compare] at positive below ahead
          rw [loops.time] at ahead
          exact ⟨positive, below, ahead⟩
        · rw [same, loops.timeStamp, distance, distance, loops.compare, loops.time]

/-- A compare value nine ticks ahead is found by the process. -/
def nineTicks : List Action := [.access 0 (.write 0x4000 [9, 0, 0, 0]), .advance 20000, .wake]

/-- The upper half of a compare register is written first. -/
def upperHalfFirst : List Action :=
  [.access 0 (.write 0x4004 [0, 0, 0, 4]), .advance 20000, .wake]

end SymexVP.Clint
