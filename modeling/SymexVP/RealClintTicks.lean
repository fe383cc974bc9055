import SymexVP.RealClint

/-!
# Ticks and deadlines on real time

A tick of 32768 Hz lasts 15625/512 microseconds, which the controller takes for 30: the time
runs ahead, by 265 of 15625 parts of a tick with each tick counted. For the way back the same
factor is used, so that a deadline is not lost to rounding; it is lost where 64 bits do not
hold the microseconds to it.
-/

namespace SymexVP.RealClint

open Exec

/-! ## The thread of a timer -/

namespace Timer

/-- No signal ends a sleep. -/
def never (_ : Nat) : Bool := false

theorem toNat_US_MAX : US_MAX.toNat = 999999 := by decide

theorem toNat_LONG_MAX : LONG_MAX.toNat = 0x7fffffffffffffff := by decide

theorem toNat_NS_MAX : NS_MAX.toNat = 999999999 := by decide

/-- The nanoseconds of some sleeps together. -/
def slept (sleeps : List (BitVec 64)) : Nat := (sleeps.map BitVec.toNat).sum

theorem returns_xnanosleep (index : Nat) (nsec : BitVec 64) :
    Returns (xnanosleep never index nsec) () false () [.nanosleep nsec] := rfl

/-- The loop ends with less than a second left, and has slept for the rest. -/
theorem returns_sleepLoop (index : Nat) (count : BitVec 64) (positive : 0 < count.toNat) :
    ∃ sleeps last left, Returns (sleepLoop never index count) () (some (last, left)) ()
        (sleeps.map Event.nanosleep) ∧
      (∀ nsec ∈ sleeps, nsec = NS_MAX) ∧ 0 < left.toNat ∧ left.toNat ≤ 999999 ∧
      count.toNat * 1000 ≤ slept sleeps + left.toNat * 1000 := by
  fun_induction sleepLoop never index count with
  | case1 index count more inductionHypothesis =>
      have less := BitVec.lt_def.mp more
      have rest : (count - US_MAX).toNat = count.toNat - 999999 := by
        rw [BitVec.toNat_sub_of_le (BitVec.le_of_lt more), toNat_US_MAX]
      rw [toNat_US_MAX] at less
      obtain ⟨sleeps, last, left, returned, all, least, most, enough⟩ :=
        inductionHypothesis (by omega)
      refine ⟨NS_MAX :: sleeps, last, left, ?_, ?_, least, most, ?_⟩
      · apply returns_bind_iff.mpr
        refine ⟨false, (), [.nanosleep NS_MAX], sleeps.map Event.nanosleep,
          returns_xnanosleep index NS_MAX, ?_, (List.map_cons ..).symm⟩
        simpa only [Bool.false_eq_true, if_false] using returned
      · exact List.forall_mem_cons.mpr ⟨rfl, all⟩
      · have whole : count.toNat = (count - US_MAX).toNat + 999999 := by omega
        have cons : slept (NS_MAX :: sleeps) = 999999999 + slept sleeps := by
          rw [slept, List.map_cons, List.sum_cons, toNat_NS_MAX]
          rfl
        rw [whole, cons, Nat.add_mul]
        clear whole cons
        linarith
  | case2 index count few =>
      have least : count.toNat ≤ 999999 := by
        rw [← toNat_US_MAX]
        exact BitVec.le_def.mp (BitVec.not_lt.mp few)
      exact ⟨[], index, count, rfl, nofun, positive, least, by simp [slept]⟩

/-- A thread that sleeps for a positive duration returns, after at least that time, from sleeps
the host accepts. -/
theorem returns_callback {duration : BitVec 64} (positive : 0 < duration.toNat) :
    ∃ sleeps, Returns (callback never duration) () () ()
        (sleeps.map Event.nanosleep ++ [.called]) ∧
      (∀ nsec ∈ sleeps, 0 ≤ nsec.toInt ∧ nsec.toInt ≤ 999999999) ∧
      duration.toNat * 1000 ≤ slept sleeps := by
  obtain ⟨sleeps, last, left, returned, all, least, most, enough⟩ :=
    returns_sleepLoop 0 duration positive
  have product : (left * 1000).toNat = left.toNat * 1000 := by
    rw [BitVec.toNat_mul]
    exact Nat.mod_eq_of_lt (by simp; omega)
  refine ⟨sleeps ++ [left * 1000], ?_, ?_, ?_⟩
  · apply returns_bind_iff.mpr
    refine ⟨some (last, left), (), sleeps.map Event.nanosleep,
      [.nanosleep (left * 1000), .called], returned, ?_, by simp⟩
    have grows : left < left * 1000 := by
      rw [BitVec.lt_def, product]
      omega
    have small : left * 1000 ≤ LONG_MAX := by
      rw [BitVec.le_def, product, toNat_LONG_MAX]
      exact Nat.le_trans (Nat.mul_le_mul_right 1000 most) (by decide)
    dsimp only
    rw [require_of grows, require_of small]
    rfl
  · intro nsec member
    rcases List.mem_append.mp member with earlier | same
    · rw [all nsec earlier]
      decide
    · rw [List.mem_singleton.mp same, BitVec.toInt_eq_toNat_cond, product]
      split <;> omega
  · have concat : slept (sleeps ++ [left * 1000]) = slept sleeps + left.toNat * 1000 := by
      rw [slept, List.map_append, List.sum_append, List.map_singleton, List.sum_singleton, product]
      rfl
    rw [concat]
    exact enough

/-- A duration of zero fails the overflow check. -/
theorem callback_zero :
    ((callback never 0).run ()).result = .error (.assertion "ns > count") := by
  unfold callback sleepLoop
  rfl

/-- The thread sleeps for at least the duration, in sleeps the host accepts, and calls back. -/
def Sleeps (duration : BitVec 64) : Prop :=
  ∃ sleeps : List (BitVec 64), Returns (callback never duration) () () ()
      (sleeps.map Event.nanosleep ++ [.called]) ∧
    (∀ nsec ∈ sleeps, 0 ≤ nsec.toInt ∧ nsec.toInt ≤ 999999999) ∧
    duration.toNat * 1000 ≤ slept sleeps

theorem sleeps_iff (duration : BitVec 64) : Sleeps duration ↔ 0 < duration.toNat := by
  constructor
  · rintro ⟨sleeps, returned, _⟩
    by_contra zero
    have same : duration = 0 := BitVec.eq_of_toNat_eq (Nat.eq_zero_of_not_pos zero)
    have failed := callback_zero
    rw [← same, returned] at failed
    cases failed
  · intro positive
    exact returns_callback positive

end Timer

/-! ## The frequency -/

theorem toNat_usecToTicks (usec : BitVec 64) : (usecToTicks usec).toNat = usec.toNat / 30 := by
  rw [usecToTicks, BitVec.toNat_udiv]
  rfl

/-- The state `update_and_get_mtime` leaves. -/
def timeTaken (usec : BitVec 64) (clint : State) : State :=
  { clint with mtime := clint.mtime.set 8 0 (usecToTicks usec) }

theorem time_timeTaken (usec : BitVec 64) (clint : State) :
    (timeTaken usec clint).time = usecToTicks usec :=
  RegisterMemory.get_set_self 8 clint.mtime 0 (usecToTicks usec)

theorem returns_updateAndGetMtime (usec : BitVec 64) (clint : State) :
    Returns (updateAndGetMtime usec) clint (usecToTicks usec) (timeTaken usec clint) [] := by
  rw [updateAndGetMtime, returns_bind_iff]
  refine ⟨(), timeTaken usec clint, [], [], rfl, ?_, rfl⟩
  rw [returns_bind_iff]
  exact ⟨_, _, [], [], rfl, returns_pure_iff.mpr ⟨time_timeTaken usec clint, rfl, rfl⟩, rfl⟩

/-- The time of 32768 Hz after so many microseconds, in ticks and parts of them. -/
def exactTicks (usec : BitVec 64) : ℚ := usec.toNat * 32768 / 1000000

/-- How far the time counted is ahead of the exact one. -/
theorem usecToTicks_sub_exactTicks (usec : BitVec 64) :
    ((usecToTicks usec).toNat : ℚ) - exactTicks usec =
      (265 * (usec.toNat / 30 : ℕ) - 512 * (usec.toNat % 30 : ℕ)) / 15625 := by
  have parts : (usec.toNat : ℚ) = 30 * (usec.toNat / 30 : ℕ) + (usec.toNat % 30 : ℕ) := by
    exact_mod_cast (Nat.div_add_mod usec.toNat 30).symm
  rw [exactTicks, toNat_usecToTicks, parts]
  ring

/-- The parts of a tick gained have not added up to a whole one. -/
theorem gained_lt_one_iff (counted late : ℕ) (less_late : late < 30) :
    |(265 * counted - 512 * late : ℚ) / 15625| < 1 ↔ 265 * counted < 15625 + 512 * late := by
  rw [abs_div, div_lt_one (by norm_num), abs_lt, abs_of_pos (by norm_num)]
  constructor
  · rintro ⟨_, less⟩
    have sum : (265 * counted : ℚ) < 15625 + 512 * late := by linarith
    exact_mod_cast sum
  · intro less
    have sum : (265 * counted : ℚ) < 15625 + 512 * late := by exact_mod_cast less
    have part : (late : ℚ) < 30 := by exact_mod_cast less_late
    have positive : (0 : ℚ) ≤ counted := Nat.cast_nonneg _
    exact ⟨by linarith, by linarith⟩

/-- The time read is within a tick of the exact one as long as the parts of a tick gained have
not added up to more than the part still to come. -/
theorem tick_error_lt_one_iff (clint : State) (usec : BitVec 64) :
    (∃ ticks next log, Returns (updateAndGetMtime usec) clint ticks next log ∧
        next.time = ticks ∧ |(next.time.toNat : ℚ) - exactTicks usec| < 1) ↔
      265 * (usec.toNat / 30) < 15625 + 512 * (usec.toNat % 30) := by
  have read := returns_updateAndGetMtime usec clint
  have stored := time_timeTaken usec clint
  rw [← gained_lt_one_iff _ _ (Nat.mod_lt _ (by decide)), ← usecToTicks_sub_exactTicks]
  constructor
  · rintro ⟨ticks, next, log, returned, time, error⟩
    obtain ⟨rfl, rfl, rfl⟩ := returned.unique read
    rw [time] at error
    exact error
  · intro less
    refine ⟨_, _, _, read, stored, ?_⟩
    rw [stored]
    exact less

/-- After 59 ticks the time is a whole tick ahead. -/
theorem not_tick_error_lt_one : ¬∀ (clint : State) (usec : BitVec 64), usec.toNat * 512 < 2 ^ 64 →
    ∃ ticks next log, Returns (updateAndGetMtime usec) clint ticks next log ∧
      next.time = ticks ∧ |(next.time.toNat : ℚ) - exactTicks usec| < 1 := by
  intro claimed
  obtain ⟨ticks, next, log, returned, time, error⟩ := claimed initial 1770 (by decide)
  obtain ⟨rfl, rfl, rfl⟩ := returned.unique (returns_updateAndGetMtime 1770 initial)
  rw [time, usecToTicks_sub_exactTicks, gained_lt_one_iff _ _ (Nat.mod_lt _ (by decide))] at error
  exact absurd error (by decide)

/-! ## Deadlines -/

theorem toNat_ticksToUsec (ticks : BitVec 64) :
    (ticksToUsec ticks).toNat = 30 * ticks.toNat % 2 ^ 64 := by
  rw [ticksToUsec, BitVec.toNat_mul, Nat.mul_comm]
  rfl

section Deadlines

variable {numberOfCores : Nat} {clint : State}

/-- The state a write leaves that puts the compare value of the hart ahead of the time. -/
def armed (usec : BitVec 64) (hart : Nat) (clint : State) : State :=
  { timeTaken usec clint with
    timers := Function.update (Function.update clint.timers hart none) hart
      (some (ticksToUsec (clint.compare hart - usecToTicks usec)))
    timerLine := Function.update clint.timerLine hart false }

/-- A compare value ahead of the time starts the timer of its hart. -/
theorem returns_postWriteMtimecmp {usec : BitVec 64} {address : Nat} (size : Nat)
    (aligned : address % 4 = 0) (inside : address / 8 < numberOfCores)
    (ahead : usecToTicks usec < clint.compare (address / 8)) :
    Returns (postWriteMtimecmp numberOfCores usec address size) clint ()
      (armed usec (address / 8) clint) [.triggerTimerInterrupt (address / 8) false] := by
  have early : ¬clint.compare (address / 8) ≤ usecToTicks usec := BitVec.not_le.mpr ahead
  have read := returns_updateAndGetMtime usec clint
  have started : Returns (do
      setTimer (address / 8) none
      if clint.compare (address / 8) ≤ usecToTicks usec then
        triggerTimerInterrupt (address / 8) true
      else do
        triggerTimerInterrupt (address / 8) false
        setTimer (address / 8)
          (some (ticksToUsec (clint.compare (address / 8) - usecToTicks usec))))
      (timeTaken usec clint) () (armed usec (address / 8) clint)
      [.triggerTimerInterrupt (address / 8) false] := by
    rw [if_neg early]
    rfl
  unfold postWriteMtimecmp
  dsimp only
  rw [require_of aligned, require_of inside]
  exact returns_bind_iff.mpr ⟨(), clint, [], _, rfl, returns_bind_iff.mpr ⟨(), clint, [], _, rfl,
    returns_bind_iff.mpr ⟨clint, clint, [], _, rfl, returns_bind_iff.mpr ⟨_, _, [], _, read,
      started, rfl⟩, rfl⟩, rfl⟩, rfl⟩

theorem returns_triggerTimerInterrupt (hart : Nat) (level : Bool) (clint : State) :
    Returns (triggerTimerInterrupt hart level) clint ()
      { clint with timerLine := Function.update clint.timerLine hart level }
      [.triggerTimerInterrupt hart level] := rfl

/-- The loop raises the lines of the harts it looks at and whose values have been reached, and
takes back none. -/
theorem returns_raiseReached (harts : List Nat) (clint : State) :
    ∃ last log, Returns (raiseReached harts) clint () last log ∧ last.mtime = clint.mtime ∧
      ∀ hart, clint.timerLine hart = true ∨ hart ∈ harts ∧ clint.compare hart ≤ clint.time →
        last.timerLine hart = true := by
  induction harts generalizing clint with
  | nil =>
      refine ⟨clint, [], rfl, rfl, ?_⟩
      rintro hart (up | ⟨member, _⟩)
      · exact up
      · cases member
  | cons first rest inductionHypothesis =>
      by_cases reached : clint.compare first ≤ clint.time
      · obtain ⟨last, log, returned, time, raised⟩ := inductionHypothesis
          { clint with timerLine := Function.update clint.timerLine first true }
        refine ⟨last, .triggerTimerInterrupt first true :: log, ?_, time, ?_⟩
        · refine returns_bind_iff.mpr ⟨clint, clint, [], _, rfl, ?_, rfl⟩
          refine returns_bind_iff.mpr ⟨(), _, _, log, returns_when_iff.mpr (.inl ⟨reached,
            returns_triggerTimerInterrupt first true clint⟩), returned, rfl⟩
        · intro hart cause
          apply raised
          by_cases same : hart = first
          · subst same
            exact .inl (Function.update_self ..)
          · rcases cause with up | ⟨member, past⟩
            · exact .inl ((Function.update_of_ne same ..).trans up)
            · exact .inr ⟨(List.mem_cons.mp member).resolve_left same, past⟩
      · obtain ⟨last, log, returned, time, raised⟩ := inductionHypothesis clint
        refine ⟨last, log, ?_, time, ?_⟩
        · refine returns_bind_iff.mpr ⟨clint, clint, [], _, rfl, ?_, rfl⟩
          exact returns_bind_iff.mpr ⟨(), clint, [], log,
            returns_when_iff.mpr (.inr ⟨reached, rfl, rfl⟩), returned, rfl⟩
        · rintro hart (up | ⟨member, past⟩)
          · exact raised hart (.inl up)
          · rcases List.mem_cons.mp member with rfl | later
            · exact absurd past reached
            · exact raised hart (.inr ⟨later, past⟩)

/-- The process finds the compare value of the hart reached, and raises its line. -/
def Raises (numberOfCores : Nat) (later : BitVec 64) (hart : Nat) (clint : State) : Prop :=
  ∃ last log, Returns (interrupt numberOfCores later) clint () last log ∧
    clint.compare hart ≤ last.time ∧ last.timerLine hart = true

theorem raises_iff {hart : Nat} (later : BitVec 64) (inside : hart < numberOfCores) :
    Raises numberOfCores later hart clint ↔ clint.compare hart ≤ usecToTicks later := by
  have read := returns_updateAndGetMtime later clint
  obtain ⟨last, log, returned, time, raised⟩ :=
    returns_raiseReached (List.range numberOfCores) (timeTaken later clint)
  have whole : Returns (interrupt numberOfCores later) clint () last log :=
    returns_bind_iff.mpr ⟨_, _, [], log, read, returned, rfl⟩
  have reached : last.time = usecToTicks later := by
    rw [← time_timeTaken later clint, State.time, State.time, time]
  constructor
  · rintro ⟨last', log', returned', past, _⟩
    obtain ⟨_, rfl, _⟩ := returned'.unique whole
    rw [reached] at past
    exact past
  · intro past
    refine ⟨last, log, whole, by rwa [reached], ?_⟩
    apply raised
    rw [time_timeTaken]
    exact .inr ⟨List.mem_range.mpr inside, past⟩

/-- After a write to the compare register of a hart its timer sleeps for a time after which,
whatever else was done to the controller, the value is reached and the line raised. -/
def MeetsDeadline (numberOfCores : Nat) (usec : BitVec 64) (address size : Nat) (clint : State) :
    Prop :=
  ∃ next log duration,
    Returns (postWriteMtimecmp numberOfCores usec address size) clint () next log ∧
    next.timers (address / 8) = some duration ∧ 0 < duration.toNat ∧ Timer.Sleeps duration ∧
    ∀ (later : BitVec 64) (reached : State), usec.toNat + duration.toNat ≤ later.toNat →
      reached.compare (address / 8) = clint.compare (address / 8) →
      Raises numberOfCores later (address / 8) reached

/-- The microseconds to a deadline, as many as 64 bits hold. -/
theorem duration_reaches_iff {limit cmp time : Nat} (large : 30 ≤ limit)
    (ahead : time / 30 < cmp) :
    (∀ later < limit, time + 30 * (cmp - time / 30) % limit ≤ later → cmp ≤ later / 30) ↔
      30 * (cmp - time / 30) < limit ∨ limit ≤ time + 30 * (cmp - time / 30) % limit := by
  generalize reached : 30 * (cmp - time / 30) = usecs
  constructor
  · intro claimed
    by_contra! late
    have short : usecs % limit ≤ usecs - limit := by
      rw [Nat.mod_eq_sub_mod late.1]
      exact Nat.mod_le _ _
    have past := claimed _ late.2 le_rfl
    omega
  · rintro (fits | late) later before passed
    · rw [Nat.mod_eq_of_lt fits] at passed
      omega
    · omega

/-- A write that puts the compare value ahead meets its deadline when the duration it starts the
timer with is positive, and the value is reached whenever the duration has passed. -/
theorem meetsDeadline_iff (usec : BitVec 64) (size : Nat) {address : Nat}
    (aligned : address % 4 = 0) (inside : address / 8 < numberOfCores)
    (ahead : usecToTicks usec < clint.compare (address / 8)) :
    let cmp := (clint.compare (address / 8)).toNat
    let duration := 30 * (cmp - usec.toNat / 30) % 2 ^ 64
    MeetsDeadline numberOfCores usec address size clint ↔
      0 < duration ∧ ∀ later < 2 ^ 64, usec.toNat + duration ≤ later → cmp ≤ later / 30 := by
  intro cmp duration
  have started : (ticksToUsec (clint.compare (address / 8) - usecToTicks usec)).toNat =
      duration := by
    rw [toNat_ticksToUsec, BitVec.toNat_sub_of_le (BitVec.le_of_lt ahead), toNat_usecToTicks]
  have returned := returns_postWriteMtimecmp size aligned inside ahead
  have timer : (armed usec (address / 8) clint).timers (address / 8) = _ := Function.update_self ..
  constructor
  · rintro ⟨next, log, duration', returned', timer', positive, _, raises⟩
    obtain ⟨_, rfl, _⟩ := returned'.unique returned
    obtain rfl := Option.some.inj (timer'.symm.trans timer)
    rw [started] at positive raises
    refine ⟨positive, fun later before passed => ?_⟩
    have wide : (BitVec.ofNat 64 later).toNat = later := by
      rw [BitVec.toNat_ofNat, Nat.mod_eq_of_lt before]
    have past := raises (BitVec.ofNat 64 later) clint (by rwa [wide]) rfl
    rw [raises_iff _ inside] at past
    rw [BitVec.le_def, toNat_usecToTicks, wide] at past
    exact past
  · rintro ⟨positive, reaches⟩
    refine ⟨_, _, _, returned, timer, started ▸ positive,
      (Timer.sleeps_iff _).mpr (started ▸ positive), ?_⟩
    intro later reached passed same
    rw [raises_iff later inside, same, BitVec.le_def, toNat_usecToTicks]
    exact reaches later.toNat later.isLt (started ▸ passed)

/-- A deadline is met where the microseconds to it fit into 64 bits, and otherwise only where
what is left of them is positive and reaches past the end of the clock. -/
theorem deadline_met_iff (numberOfCores : Nat) (usec : BitVec 64) (address size : Nat)
    (clint : State) (aligned : address % 4 = 0) (inside : address / 8 < numberOfCores)
    (ahead : usecToTicks usec < clint.compare (address / 8)) :
    let usecs := 30 * ((clint.compare (address / 8)).toNat - usec.toNat / 30)
    MeetsDeadline numberOfCores usec address size clint ↔
      usecs < 2 ^ 64 ∨ 0 < usecs % 2 ^ 64 ∧ 2 ^ 64 ≤ usec.toNat + usecs % 2 ^ 64 := by
  intro usecs
  have less := BitVec.lt_def.mp ahead
  rw [toNat_usecToTicks] at less
  have reaches := duration_reaches_iff (show 30 ≤ 2 ^ 64 by decide) less
  refine (meetsDeadline_iff usec size aligned inside ahead).trans ?_
  rw [reaches]
  constructor
  · rintro ⟨positive, fits | late⟩
    · exact .inl fits
    · exact .inr ⟨positive, late⟩
  · rintro (fits | ⟨positive, late⟩)
    · rw [Nat.mod_eq_of_lt fits]
      exact ⟨Nat.mul_pos (by decide) (Nat.sub_pos_of_lt less), .inl fits⟩
    · exact ⟨positive, .inr late⟩

/-- The compare value of the only hart. -/
def comparing (cmp : BitVec 64) : State :=
  { initial with mtimecmp := initial.mtimecmp.set 8 0 cmp }

theorem compare_comparing (cmp : BitVec 64) : (comparing cmp).compare 0 = cmp :=
  RegisterMemory.get_set_self 8 _ 0 cmp

/-- A second ahead. -/
theorem deadline_met_second : MeetsDeadline 1 0 0 8 (comparing 32768) := by
  have ahead : usecToTicks 0 < (comparing 32768).compare (0 / 8) := by
    rw [compare_comparing]
    decide
  refine (deadline_met_iff 1 0 0 8 (comparing 32768) rfl (by decide) ahead).mpr (.inl ?_)
  rw [compare_comparing]
  decide

/-- For a value of 2^63 ticks the duration is zero, which the thread does not take. -/
theorem not_deadline_met : ¬∀ (numberOfCores : Nat) (usec : BitVec 64) (address size : Nat)
    (clint : State), address % 4 = 0 → address / 8 < numberOfCores →
      usecToTicks usec < clint.compare (address / 8) →
      MeetsDeadline numberOfCores usec address size clint := by
  intro claimed
  have ahead : usecToTicks 0 < (comparing 0x8000000000000000).compare (0 / 8) := by
    rw [compare_comparing]
    decide
  have met := claimed 1 0 0 8 (comparing 0x8000000000000000) rfl (by decide) ahead
  have positive := ((meetsDeadline_iff 0 8 rfl (by decide) ahead).mp met).1
  rw [compare_comparing] at positive
  exact absurd positive (by decide)

end Deadlines

end SymexVP.RealClint
