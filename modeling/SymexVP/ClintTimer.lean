import SymexVP.ClintTime

/-!
# Timer interrupts

All harts share one event with one pending notification. A hart whose compare value is set
has its timer line up, or the notification is due before its value is long over: after the
loop in `run` it comes within one tick of the earliest value ahead, and after a write to a
compare register it comes no later than the writer's local time.
-/

namespace SymexVP.Clint

open ActionRun Exec

variable {numberOfCores hart : Nat} {clint next : State} {action : Action}
  {log events : List Event}

/-- When the process will run: at once if it has been woken. -/
def State.notification (clint : State) : Option Nat :=
  if clint.woken then some clint.timeStamp else clint.irqEvent

/-- A timer that is set has its line up, or the process will look at it in time. -/
def Covered (clint : State) (hart : Nat) : Prop :=
  clint.Timed hart →
    clint.timerLine hart = true ∨ ∃ time, clint.notification = some time ∧
      time ≤ max ((clint.compare hart).toNat * scaler + scaler) clint.lastWrite

/-- The compare values that are set can be represented as times. -/
def Fits (numberOfCores : Nat) (clint : State) : Prop :=
  ∀ hart, hart < numberOfCores → clint.Timed hart →
    (clint.compare hart).toNat * scaler < 2 ^ 64

instance (clint : State) (hart : Nat) : Decidable (clint.Timed hart) := by
  unfold State.Timed
  infer_instance

instance (numberOfCores : Nat) (clint : State) : Decidable (Fits numberOfCores clint) :=
  Nat.decidableBallLT numberOfCores fun hart _ =>
    clint.Timed hart → (clint.compare hart).toNat * scaler < 2 ^ 64

/-! ## The arithmetic of a notification -/

theorem toNat_ticks {time : Nat} (bound : time < 2 ^ 64) : (ticks time).toNat = time / scaler := by
  have small : time / scaler < 2 ^ 64 := lt_of_le_of_lt (Nat.div_le_self time scaler) bound
  rw [ticks, Nat.mod_eq_of_lt bound, BitVec.toNat_ofNat, Nat.mod_eq_of_lt small]

/-- The difference of two times that can be represented. -/
theorem untilGoal_eq {cmp mtime : BitVec 64} (ahead : mtime < cmp)
    (fits : cmp.toNat * scaler < 2 ^ 64) :
    untilGoal cmp mtime = cmp.toNat * scaler - mtime.toNat * scaler := by
  have less : mtime.toNat * scaler ≤ cmp.toNat * scaler :=
    Nat.mul_le_mul_right scaler (BitVec.lt_def.mp ahead).le
  have scaled : (BitVec.ofNat 64 scaler).toNat = scaler := by decide
  have goal : (cmp * BitVec.ofNat 64 scaler).toNat = cmp.toNat * scaler := by
    rw [BitVec.toNat_mul, scaled, Nat.mod_eq_of_lt fits]
  have time : (mtime * BitVec.ofNat 64 scaler).toNat = mtime.toNat * scaler := by
    rw [BitVec.toNat_mul, scaled, Nat.mod_eq_of_lt (lt_of_le_of_lt less fits)]
  rw [untilGoal, BitVec.toNat_sub_of_le, goal, time]
  rwa [BitVec.le_def, goal, time]

/-- A notification for a value ahead comes within a tick of it. -/
theorem notification_in_time {cmp mtime : BitVec 64} {timeStamp : Nat} (bound : timeStamp < 2 ^ 64)
    (brought : ticks timeStamp ≤ mtime) (ahead : mtime < cmp)
    (fits : cmp.toNat * scaler < 2 ^ 64) :
    timeStamp + untilGoal cmp mtime ≤ cmp.toNat * scaler + scaler := by
  have reached : timeStamp / scaler ≤ mtime.toNat := by
    rw [← toNat_ticks bound]
    exact BitVec.le_def.mp brought
  have scaled : timeStamp / scaler * scaler ≤ mtime.toNat * scaler :=
    Nat.mul_le_mul_right scaler reached
  have within : timeStamp < timeStamp / scaler * scaler + scaler := by
    have remainder := Nat.mod_lt timeStamp (by decide : 0 < scaler)
    have whole := Nat.div_add_mod' timeStamp scaler
    omega
  have less : mtime.toNat * scaler ≤ cmp.toNat * scaler :=
    Nat.mul_le_mul_right scaler (BitVec.lt_def.mp ahead).le
  rw [untilGoal_eq ahead fits]
  omega

/-! ## The invariant -/

structure Attended (numberOfCores : Nat) (clint : State) : Prop where
  representable : clint.timeStamp < 2 ^ 64
  covered : ∀ hart, hart < numberOfCores → Covered clint hart

theorem attended_initial (numberOfCores : Nat) : Attended numberOfCores initial := by
  refine ⟨by decide, ?_⟩
  rintro hart - ⟨positive, -⟩
  have zero : initial.compare hart = 0 := by
    simp [State.compare, initial, RegisterMemory.get, Clover.littleEndian]
  rw [zero] at positive
  exact absurd positive (by decide)

/-- Coverage depends on four parts of the state only. -/
theorem Covered.congr (covered : Covered clint hart) (compare : next.mtimecmp = clint.mtimecmp)
    (line : next.timerLine = clint.timerLine) (write : next.lastWrite = clint.lastWrite)
    (notified : next.notification = clint.notification) : Covered next hart := by
  unfold Covered State.Timed State.compare at covered ⊢
  rwa [compare, line, write, notified]

/-- A writer covers every hart. -/
theorem covered_compareWritten {ahead : Nat} {mem : RegisterMemory} :
    Covered (compareWritten ahead mem clint) hart := by
  intro _
  right
  cases woken : clint.woken with
  | true =>
      refine ⟨clint.timeStamp, if_pos woken, ?_⟩
      exact (Nat.le_add_right _ _).trans (le_max_right _ _)
  | false =>
      obtain ⟨time, pending, bound⟩ := notifiedBy_notify ahead clint
      refine ⟨time, (if_neg (by simp [compareWritten, notify, woken])).trans pending, ?_⟩
      exact bound.trans (le_max_right _ _)

theorem Attended.access {delay : Nat} {access : BusAccess} {data : List (BitVec 8)}
    (attended : Attended numberOfCores clint)
    (returned : Returns (transport numberOfCores delay access) clint data next events) :
    Attended numberOfCores next := by
  cases access with
  | read address count =>
      rcases returns_transport_read returned with ⟨-, rfl, -⟩ | ⟨rfl, -⟩
      · exact ⟨attended.representable, fun hart owns =>
          (attended.covered hart owns).congr rfl rfl rfl rfl⟩
      · exact attended
  | write address src =>
      rcases returns_transport_write returned with ⟨-, ⟨mem, rfl⟩, -⟩ | ⟨⟨mem, rfl⟩, -⟩ |
        ⟨⟨mem, rfl⟩, -⟩
      · exact ⟨attended.representable, fun hart owns =>
          (attended.covered hart owns).congr rfl rfl rfl rfl⟩
      · exact ⟨attended.representable, fun hart owns => covered_compareWritten⟩
      · exact ⟨attended.representable, fun hart owns =>
          (attended.covered hart owns).congr rfl rfl rfl rfl⟩

/-- A round of the process looks at every hart. -/
theorem Attended.run {value : Unit} (attended : Attended numberOfCores clint)
    (fits : Fits numberOfCores clint)
    (returned : Returns (run numberOfCores) clint value next events) :
    Attended numberOfCores next := by
  obtain ⟨loops, lines, soon, -⟩ := returns_run returned
  have compare : next.mtimecmp = clint.mtimecmp := by rw [loops.mtimecmp, updated_eq]
  have stamp : next.timeStamp = clint.timeStamp := by rw [loops.timeStamp, updated_eq]
  have asleep : next.woken = false := by rw [loops.woken, updated_eq]
  have brought : ticks next.timeStamp ≤ next.time := by
    rw [stamp, loops.time]
    exact ticks_le_updated { clint with woken := false }
  refine ⟨by rw [stamp]; exact attended.representable, ?_⟩
  intro hart owns timed
  cases due : next.due hart with
  | true => exact .inl (by rw [lines hart owns, due])
  | false =>
      obtain ⟨time, pending, bound⟩ := soon hart owns due timed
      have ahead : next.time < next.compare hart := by
        have low := of_decide_eq_false due
        exact BitVec.not_le.mp fun reached => low ⟨timed.1, reached⟩
      have fits : (next.compare hart).toNat * scaler < 2 ^ 64 := by
        unfold State.Timed State.compare at timed
        rw [compare] at timed
        rw [State.compare, compare]
        exact fits hart owns timed
      refine .inr ⟨time, ?_, ?_⟩
      · rw [State.notification, asleep]
        exact pending
      · have bounded : next.timeStamp < 2 ^ 64 := by rw [stamp]; exact attended.representable
        exact (bound.trans (notification_in_time bounded brought ahead fits)).trans
          (le_max_left _ _)

theorem Attended.step (attended : Attended numberOfCores clint) (fits : Fits numberOfCores clint)
    (moved : step numberOfCores clint action = some (next, events)) :
    Attended numberOfCores next := by
  obtain ⟨can, returned⟩ := returns_of_step moved
  cases action with
  | advance duration =>
      obtain ⟨rfl, -⟩ := returns_modify_iff.mp returned
      simp only [enabled, Bool.and_eq_true, Bool.not_eq_true', decide_eq_true_eq] at can
      obtain ⟨⟨asleep, bound⟩, -⟩ := can
      refine ⟨bound, fun hart owns => (attended.covered hart owns).congr rfl rfl rfl ?_⟩
      simp [State.notification, asleep]
  | access delay access =>
      obtain ⟨data, accessed⟩ := returns_access returned
      exact attended.access accessed
  | readTime =>
      obtain ⟨value, reached, earlier, later, brought, shows, -⟩ := returns_bind_iff.mp returned
      obtain ⟨rfl, -, -⟩ := returns_updateAndGetMtime brought
      obtain ⟨rfl, -⟩ := returns_emit_iff.mp shows
      rw [updated_eq]
      exact ⟨attended.representable, fun hart owns =>
        (attended.covered hart owns).congr rfl rfl rfl rfl⟩
  | wake =>
      obtain ⟨rfl, -⟩ := returns_modify_iff.mp returned
      simp only [enabled, Bool.and_eq_true, Bool.not_eq_true', beq_iff_eq] at can
      obtain ⟨asleep, due⟩ := can
      refine ⟨attended.representable, fun hart owns =>
        (attended.covered hart owns).congr rfl rfl rfl ?_⟩
      simp [State.notification, asleep, due]
  | run => exact attended.run fits returned

/-! ## Runs -/

/-- Along every run whose compare values can be represented as times, a hart with a compare value
has its line up or the process will look at it in time, and when the process has just run, every
line is as the compare value says. -/
theorem timer_not_missed {actions : List Action}
    (fits : Meets (step numberOfCores) (fun clint _ => Fits numberOfCores clint) initial actions)
    (ran : perform (step numberOfCores) initial actions = some (clint, log)) :
    (∀ hart, hart < numberOfCores →
      0 < clint.compare hart → clint.compare hart < BitVec.allOnes 64 →
        clint.timerLine hart = true ∨ ∃ time, clint.notification = some time ∧
          time ≤ max ((clint.compare hart).toNat * scaler + scaler) clint.lastWrite) ∧
      ∀ before, actions = before ++ [.run] → ∀ hart, hart < numberOfCores →
        clint.timerLine hart =
          decide (0 < clint.compare hart ∧ clint.compare hart ≤ clint.time) := by
  refine ⟨?_, ?_⟩
  · have attended : Attended numberOfCores clint :=
      perform_keeps_state (fun holds meets moved => Attended.step holds meets moved)
        (attended_initial numberOfCores) fits ran
    intro hart owns positive below
    exact attended.covered hart owns ⟨positive, below⟩
  · rintro before rfl hart owns
    obtain ⟨middle, _, events, -, moved, -⟩ := perform_concat ran
    obtain ⟨-, lines, -, -⟩ := returns_run (returns_of_step moved).2
    exact lines hart owns

/-- Two harts set their compare registers; the value of the second comes first. -/
def twoTimers : List Action :=
  [.access 0 (.write 0x4000 [9, 0, 0, 0]), .access 500000 (.write 0x4008 [3, 0, 0, 0]),
    .advance 20000, .wake, .run]

theorem two_timers_not_missed :
    ∃ clint log, perform (step 2) initial twoTimers = some (clint, log) ∧
      (∀ hart, hart < 2 → 0 < clint.compare hart → clint.compare hart < BitVec.allOnes 64 →
        clint.timerLine hart = true ∨ ∃ time, clint.notification = some time ∧
          time ≤ max ((clint.compare hart).toNat * scaler + scaler) clint.lastWrite) ∧
      ∀ before, twoTimers = before ++ [.run] → ∀ hart, hart < 2 →
        clint.timerLine hart =
          decide (0 < clint.compare hart ∧ clint.compare hart ≤ clint.time) := by
  have runs : (perform (step 2) initial twoTimers).isSome = true := by decide +kernel
  obtain ⟨⟨clint, log⟩, ran⟩ := Option.isSome_iff_exists.mp runs
  have fits : Meets (step 2) (fun clint _ => Fits 2 clint) initial twoTimers := by decide +kernel
  exact ⟨clint, log, ran, timer_not_missed fits ran⟩

end SymexVP.Clint
