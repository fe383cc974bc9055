import SymexVP.ActionRuns
import SymexVP.RealClintTicks

/-!
# Timers that sleep while the clock goes on

A write to a compare register stops the thread that sleeps for its hart, and may start another one.
A thread that has slept for its duration wakes, notifies the process `interrupt` and is gone. Time
goes by between any two of these steps, and the guest and the threads of other harts take theirs.

The line of a hart follows its compare register through all of this. A thread ends in the tick in
which the value is reached, so that it is neither woken too early nor left to sleep on, and what it
notifies of is still true when the process gets to run, unless the guest has seen to it already.
-/

namespace SymexVP.RealClint

open ActionRun Exec

/-! ## The host -/

/-- A thread of a `Timer`, started at a moment. -/
structure Thread where
  since : BitVec 64
  duration : BitVec 64
  deriving DecidableEq, Repr

/-- The first moment at which the thread may have slept for long enough. -/
def Thread.ends (thread : Thread) : Nat := thread.since.toNat + thread.duration.toNat

/-- The controller, its clock, the thread that sleeps for each hart, and whether `event` has been
notified since `interrupt` ran. -/
structure Host where
  clint : State
  now : BitVec 64
  threads : Nat → Option Thread
  notified : Bool

def Host.initial : Host := ⟨RealClint.initial, 0, fun _ => none, false⟩

inductive Action
  | elapse (usecs : Nat)
  | access (access : BusAccess)
  /-- A hart reads its counter `time`. -/
  | readTime
  /-- A thread has slept and calls back. -/
  | wake (hart : Nat)
  | interrupt
  deriving DecidableEq, Repr

def MTIMECMP_BASE : Nat := 0x4000

/-- The hart to which the compare register belongs that an access writes. -/
def compareWritten (numberOfCores : Nat) : BusAccess → Option Nat
  | .read _ _ => none
  | .write address _ =>
      if MTIMECMP_BASE ≤ address ∧ address < MTIMECMP_BASE + 8 * numberOfCores then
        some ((address - MTIMECMP_BASE) / 8)
      else none

/-- The compare registers after a write, and nothing else done yet. -/
def written (clint : State) (address : Nat) (data : List (BitVec 8)) : State :=
  { clint with mtimecmp := clint.mtimecmp.write (address - MTIMECMP_BASE) data }

/-- `Timer::pause` has stopped the thread of the hart, and `Timer::start` started another if the
timer has been given a duration. -/
def Host.restart (host : Host) (clint : State) : Option Nat → Host
  | none => { host with clint := clint }
  | some hart =>
      { host with
        clint := clint
        threads := Function.update host.threads hart ((clint.timers hart).map (⟨host.now, ·⟩)) }

/-- An assertion that fails ends the simulation. -/
def step (numberOfCores : Nat) (host : Host) : Action → Option (Host × List Event)
  | .elapse usecs =>
      if host.now.toNat + usecs < 2 ^ 64 then
        some ({ host with now := host.now + BitVec.ofNat 64 usecs }, [])
      else none
  | .access access =>
      let outcome := (transport numberOfCores host.now access).run host.clint
      match outcome.result with
      | .error _ => none
      | .ok _ =>
          some (host.restart outcome.state (compareWritten numberOfCores access), outcome.log)
  | .readTime =>
      let outcome := (updateAndGetMtime host.now).run host.clint
      some ({ host with clint := outcome.state }, outcome.log)
  | .wake hart => do
      let thread ← host.threads hart
      if thread.ends ≤ host.now.toNat then
        some ({ host with
          threads := Function.update host.threads hart none
          notified := true }, [])
      else none
  | .interrupt =>
      if host.notified then
        let outcome := (interrupt numberOfCores host.now).run host.clint
        some ({ host with
          clint := outcome.state
          notified := false }, outcome.log)
      else none

/-- A write stays within a compare register, and 64 bits hold the microseconds to the value that it
leaves there. -/
def Timely (numberOfCores : Nat) (host : Host) : Action → Prop
  | .access (.write address data) =>
      ∀ hart ∈ compareWritten numberOfCores (.write address data),
        address - MTIMECMP_BASE + data.length ≤ 8 * hart + 8 ∧
          30 * (((written host.clint address data).compare hart).toNat - host.now.toNat / 30) <
            2 ^ 64
  | _ => True

instance (numberOfCores : Nat) (host : Host) :
    (action : Action) → Decidable (Timely numberOfCores host action)
  | .access (.write address data) =>
      inferInstanceAs (Decidable (∀ hart ∈ compareWritten numberOfCores (.write address data), _))
  | .access (.read _ _) => isTrue trivial
  | .elapse _ | .readTime | .wake _ | .interrupt => isTrue trivial

/-! ## What the controller does in a step -/

section Controller

variable {numberOfCores : Nat} {now : BitVec 64} {clint last : State} {log : List Event}

/-- Neither the compare registers nor the lines of the timers are touched. -/
structure Spared (clint last : State) (log : List Event) : Prop where
  mtimecmp : last.mtimecmp = clint.mtimecmp
  timerLine : last.timerLine = clint.timerLine
  silent : ∀ hart level, .triggerTimerInterrupt hart level ∉ log

/-- The timer of a hart after a write that has left a value in its compare register. -/
structure Rearmed (now : BitVec 64) (hart : Nat) (clint last : State) (log : List Event) :
    Prop where
  mtimecmp : last.mtimecmp = clint.mtimecmp
  log_eq : log = [.triggerTimerInterrupt hart (decide (clint.compare hart ≤ usecToTicks now))]
  timerLine : last.timerLine =
    Function.update clint.timerLine hart (decide (clint.compare hart ≤ usecToTicks now))
  timers : last.timers hart =
    if clint.compare hart ≤ usecToTicks now then none
    else some (ticksToUsec (clint.compare hart - usecToTicks now))

/-- A compare value that has been reached raises the line. -/
theorem returns_postWriteMtimecmp_of_reached {address : Nat} (size : Nat)
    (aligned : address % 4 = 0) (inside : address / 8 < numberOfCores)
    (reached : clint.compare (address / 8) ≤ usecToTicks now) :
    Returns (postWriteMtimecmp numberOfCores now address size) clint ()
      { timeTaken now clint with
        timers := Function.update clint.timers (address / 8) none
        timerLine := Function.update clint.timerLine (address / 8) true }
      [.triggerTimerInterrupt (address / 8) true] := by
  have read := returns_updateAndGetMtime now clint
  unfold postWriteMtimecmp
  dsimp only
  rw [require_of aligned, require_of inside]
  refine returns_bind_iff.mpr ⟨(), clint, [], _, rfl, returns_bind_iff.mpr ⟨(), clint, [], _, rfl,
    returns_bind_iff.mpr ⟨clint, clint, [], _, rfl, returns_bind_iff.mpr ⟨_, _, [], _, read,
      ?_, rfl⟩, rfl⟩, rfl⟩, rfl⟩
  rw [if_pos reached]
  rfl

theorem rearmed_of_postWriteMtimecmp {address : Nat} (size : Nat) (aligned : address % 4 = 0)
    (inside : address / 8 < numberOfCores)
    (returned : Returns (postWriteMtimecmp numberOfCores now address size) clint () last log) :
    Rearmed now (address / 8) clint last log := by
  by_cases reached : clint.compare (address / 8) ≤ usecToTicks now
  · obtain ⟨-, rfl, rfl⟩ := returned.unique
      (returns_postWriteMtimecmp_of_reached size aligned inside reached)
    exact ⟨rfl, by rw [decide_eq_true reached], by rw [decide_eq_true reached], by
      rw [if_pos reached]
      exact Function.update_self ..⟩
  · obtain ⟨-, rfl, rfl⟩ := returned.unique
      (returns_postWriteMtimecmp size aligned inside (BitVec.not_le.mp reached))
    exact ⟨rfl, by rw [decide_eq_false reached], by rw [decide_eq_false reached]; rfl, by
      rw [if_neg reached]
      exact Function.update_self ..⟩

theorem spared_mtime (clint : State) (mtime : RegisterMemory) :
    Spared clint { clint with mtime := mtime } [] := ⟨rfl, rfl, by simp⟩

theorem spared_of_postWriteMsip (address size : Nat)
    (returned : Returns (postWriteMsip numberOfCores address size) clint () last log) :
    Spared clint last log := by
  unfold postWriteMsip at returned
  simp only [returns_bind_iff, returns_require_iff, returns_modify_iff, returns_get_iff,
    returns_emit_iff] at returned
  obtain ⟨_, _, _, _, ⟨-, rfl, rfl⟩, ⟨_, _, _, _, ⟨-, rfl, rfl⟩, ⟨_, _, _, _, ⟨rfl, rfl⟩,
    ⟨_, _, _, _, ⟨rfl, rfl, rfl⟩, ⟨rfl, rfl⟩, rfl⟩, rfl⟩, rfl⟩, rfl⟩ := returned
  exact ⟨rfl, rfl, by simp⟩

theorem spared_of_updateAndGetMtime {ticks : BitVec 64}
    (returned : Returns (updateAndGetMtime now) clint ticks last log) : Spared clint last log := by
  obtain ⟨-, rfl, rfl⟩ := returned.unique (returns_updateAndGetMtime now clint)
  exact ⟨rfl, rfl, by simp⟩

theorem contains_regsMtimecmp {address : Nat} :
    (regsMtimecmp numberOfCores now).contains address = true ↔
      MTIMECMP_BASE ≤ address ∧ address < MTIMECMP_BASE + 8 * numberOfCores := by
  rw [RegisterRange.contains_iff]
  simp only [regsMtimecmp, MTIMECMP_BASE]
  omega

theorem toLocal_regsMtimecmp (address : Nat) :
    (regsMtimecmp numberOfCores now).toLocal address = address - MTIMECMP_BASE := rfl

/-- A write to a compare register sees to the timer of its hart. -/
theorem transport_rearms {address hart : Nat} {src data : List (BitVec 8)}
    (writes : compareWritten numberOfCores (.write address src) = some hart)
    (returned : Returns (transport numberOfCores now (.write address src)) clint data last log) :
    Rearmed now hart (written clint address src) last log := by
  unfold compareWritten at writes
  dsimp only at writes
  split_ifs at writes with inside
  cases writes
  obtain ⟨range, found, processed⟩ := returns_route_iff.mp returned
  have first : (regsMtimecmp numberOfCores now).contains
      (BusAccess.write address src).address = true := contains_regsMtimecmp.mpr inside
  rw [List.find?_cons, first] at found
  cases found
  obtain ⟨⟨⟨aligned, -⟩, -⟩, -, called, -⟩ := RegisterRange.returns_write_iff.mp processed
  rw [toLocal_regsMtimecmp] at called
  unfold MTIMECMP_BASE at inside
  have multiple : address % 4 = 0 := aligned
  refine rearmed_of_postWriteMtimecmp src.length ?_ ?_ called
  · unfold MTIMECMP_BASE
    omega
  · unfold MTIMECMP_BASE
    omega

/-- Every other access spares the timers. -/
theorem transport_spares {access : BusAccess} {data : List (BitVec 8)}
    (spares : compareWritten numberOfCores access = none)
    (returned : Returns (transport numberOfCores now access) clint data last log) :
    Spared clint last log := by
  obtain ⟨range, found, processed⟩ := returns_route_iff.mp returned
  have member := List.mem_of_find?_eq_some found
  have contained : range.contains access.address = true := by simpa using List.find?_some found
  cases access with
  | read address count =>
      obtain ⟨-, -, called, -⟩ := RegisterRange.returns_read_iff.mp processed
      simp only [List.mem_cons, List.not_mem_nil, or_false] at member
      rcases member with rfl | rfl | rfl
      · obtain ⟨-, rfl, rfl⟩ := returns_pure_iff.mp called
        exact ⟨rfl, rfl, by simp⟩
      · obtain ⟨-, rfl, rfl⟩ := returns_pure_iff.mp called
        exact ⟨rfl, rfl, by simp⟩
      · obtain ⟨ticks, middle, first, second, read, ended, rfl⟩ := returns_bind_iff.mp called
        obtain ⟨-, rfl, rfl⟩ := returns_pure_iff.mp ended
        rw [List.append_nil]
        exact spared_of_updateAndGetMtime read
  | write address src =>
      obtain ⟨-, -, called, -⟩ := RegisterRange.returns_write_iff.mp processed
      simp only [List.mem_cons, List.not_mem_nil, or_false] at member
      rcases member with rfl | rfl | rfl
      · have inside := contains_regsMtimecmp.mp contained
        rw [BusAccess.address] at inside
        rw [compareWritten, if_pos inside] at spares
        cases spares
      · obtain ⟨mtimecmp, timerLine, silent⟩ := spared_of_postWriteMsip _ src.length called
        exact ⟨mtimecmp, timerLine, silent⟩
      · obtain ⟨-, rfl, rfl⟩ := returns_pure_iff.mp called
        exact spared_mtime clint _

/-- The loop of `interrupt` raises the lines of the harts whose values have been reached and no
other ones. -/
theorem returns_raiseReached_exact (harts : List Nat) (clint : State) :
    ∃ last log, Returns (raiseReached harts) clint () last log ∧ last.mtimecmp = clint.mtimecmp ∧
      (∀ hart, last.timerLine hart = true ↔
        clint.timerLine hart = true ∨ hart ∈ harts ∧ clint.compare hart ≤ clint.time) ∧
      ∀ hart level, .triggerTimerInterrupt hart level ∈ log → last.timerLine hart = true := by
  induction harts generalizing clint with
  | nil => exact ⟨clint, [], rfl, rfl, by simp, by simp⟩
  | cons first rest inductionHypothesis =>
      by_cases reached : clint.compare first ≤ clint.time
      · obtain ⟨last, log, returned, same, raised, told⟩ := inductionHypothesis
          { clint with timerLine := Function.update clint.timerLine first true }
        have up : last.timerLine first = true :=
          (raised first).mpr (.inl (Function.update_self ..))
        refine ⟨last, .triggerTimerInterrupt first true :: log, ?_, same, ?_, ?_⟩
        · refine returns_bind_iff.mpr ⟨clint, clint, [], _, rfl, ?_, rfl⟩
          refine returns_bind_iff.mpr ⟨(), _, _, log, returns_when_iff.mpr (.inl ⟨reached,
            returns_triggerTimerInterrupt first true clint⟩), returned, rfl⟩
        · intro hart
          by_cases equal : hart = first
          · subst equal
            simp [up, reached]
          · rw [raised hart]
            simp [equal, State.compare, State.time]
        · intro hart level member
          rcases List.mem_cons.mp member with head | tail
          · cases head
            exact up
          · exact told hart level tail
      · obtain ⟨last, log, returned, same, raised, told⟩ := inductionHypothesis clint
        refine ⟨last, log, ?_, same, ?_, told⟩
        · refine returns_bind_iff.mpr ⟨clint, clint, [], _, rfl, ?_, rfl⟩
          exact returns_bind_iff.mpr ⟨(), clint, [], log,
            returns_when_iff.mpr (.inr ⟨reached, rfl, rfl⟩), returned, rfl⟩
        · intro hart
          rw [raised hart]
          by_cases equal : hart = first
          · subst equal
            simp [reached]
          · simp [equal]

theorem returns_interrupt (numberOfCores : Nat) (now : BitVec 64) (clint : State) :
    ∃ last log, Returns (interrupt numberOfCores now) clint () last log ∧
      last.mtimecmp = clint.mtimecmp ∧
      (∀ hart, last.timerLine hart = true ↔ clint.timerLine hart = true ∨
        hart < numberOfCores ∧ clint.compare hart ≤ usecToTicks now) ∧
      ∀ hart level, .triggerTimerInterrupt hart level ∈ log → last.timerLine hart = true := by
  obtain ⟨last, log, returned, same, raised, told⟩ :=
    returns_raiseReached_exact (List.range numberOfCores) (timeTaken now clint)
  refine ⟨last, log, ?_, same, fun hart => ?_, told⟩
  · exact returns_bind_iff.mpr ⟨_, _, [], log, returns_updateAndGetMtime now clint, returned, rfl⟩
  · rw [raised hart, time_timeTaken, List.mem_range]
    rfl

end Controller

/-! ## The line of a hart -/

/-- The harts have been told about a timer. -/
def Told (hart : Nat) (log : List Event) : Prop := ∃ level, .triggerTimerInterrupt hart level ∈ log

theorem told_append {hart : Nat} {log events : List Event} :
    Told hart (log ++ events) ↔ Told hart log ∨ Told hart events := by
  simp only [Told, List.mem_append, exists_or]

/-- A line is up only where the value has been reached, a thread ends in the tick in which it is,
and until the line is up the process has been notified or a thread sleeps. -/
structure Kept (hart : Nat) (log : List Event) (host : Host) : Prop where
  early : host.clint.timerLine hart = true → host.clint.compare hart ≤ usecToTicks host.now
  thread : ∀ thread ∈ host.threads hart,
    Timer.Sleeps thread.duration ∧ thread.ends / 30 = (host.clint.compare hart).toNat
  told : Told hart log → host.clint.timerLine hart = true ∨
    host.notified = true ∧ host.clint.compare hart ≤ usecToTicks host.now ∨
    (host.threads hart).isSome = true

section Kept

variable {numberOfCores hart : Nat} {host next : Host} {log events : List Event}

theorem le_usecToTicks_iff {cmp now : BitVec 64} :
    cmp ≤ usecToTicks now ↔ cmp.toNat ≤ now.toNat / 30 := by
  rw [BitVec.le_def, toNat_usecToTicks]

/-- The timers of all harts are seen to. -/
def AllKept (numberOfCores : Nat) (log : List Event) (host : Host) : Prop :=
  ∀ hart < numberOfCores, Kept hart log host

theorem kept_initial (hart : Nat) : Kept hart [] .initial where
  early := by simp [Host.initial, initial]
  thread := by simp [Host.initial]
  told := by simp [Told]

/-- The controller spares the timers. -/
theorem Kept.spared (kept : Kept hart log host) {last : State}
    (spared : Spared host.clint last events) :
    Kept hart (log ++ events) { host with clint := last } := by
  have compare : last.compare hart = host.clint.compare hart := by
    rw [State.compare, spared.mtimecmp, State.compare]
  refine ⟨?_, ?_, ?_⟩
  · dsimp only
    rw [spared.timerLine, compare]
    exact kept.early
  · dsimp only
    rw [compare]
    exact kept.thread
  · rw [told_append]
    rintro (before | ⟨level, member⟩)
    · dsimp only
      rw [spared.timerLine, compare]
      exact kept.told before
    · exact absurd member (spared.silent hart level)

/-- Time goes by. -/
theorem Kept.elapse (kept : Kept hart log host) {now : BitVec 64}
    (later : host.now.toNat ≤ now.toNat) : Kept hart log { host with now := now } := by
  have stays : host.clint.compare hart ≤ usecToTicks host.now →
      host.clint.compare hart ≤ usecToTicks now := by
    rw [le_usecToTicks_iff, le_usecToTicks_iff]
    exact fun reached => reached.trans (Nat.div_le_div_right later)
  refine ⟨fun up => stays (kept.early up), kept.thread, fun before => ?_⟩
  rcases kept.told before with up | ⟨notified, reached⟩ | sleeping
  · exact .inl up
  · exact .inr (.inl ⟨notified, stays reached⟩)
  · exact .inr (.inr sleeping)

/-- A thread wakes. -/
theorem Kept.wake (kept : Kept hart log host) {other : Nat} {thread : Thread}
    (sleeping : host.threads other = some thread) (ended : thread.ends ≤ host.now.toNat) :
    Kept hart log { host with
      threads := Function.update host.threads other none
      notified := true } := by
  by_cases same : hart = other
  · subst same
    obtain ⟨-, tick⟩ := kept.thread thread sleeping
    have reached : host.clint.compare hart ≤ usecToTicks host.now := by
      rw [le_usecToTicks_iff, ← tick]
      exact Nat.div_le_div_right ended
    exact ⟨kept.early, by simp, fun _ => .inr (.inl ⟨rfl, reached⟩)⟩
  · refine ⟨kept.early, ?_, fun before => ?_⟩
    · dsimp only
      rw [Function.update_of_ne same]
      exact kept.thread
    · dsimp only
      rw [Function.update_of_ne same]
      rcases kept.told before with up | ⟨-, reached⟩ | sleeping
      · exact .inl up
      · exact .inr (.inl ⟨rfl, reached⟩)
      · exact .inr (.inr sleeping)

/-- The process runs. -/
theorem Kept.interrupt (kept : Kept hart log host) (inside : hart < numberOfCores) {last : State}
    (returned : Returns (interrupt numberOfCores host.now) host.clint () last events) :
    Kept hart (log ++ events) { host with
      clint := last
      notified := false } := by
  obtain ⟨last', log', returned', same, raised, told⟩ :=
    returns_interrupt numberOfCores host.now host.clint
  obtain ⟨-, rfl, rfl⟩ := returned.unique returned'
  have compare : last.compare hart = host.clint.compare hart := by
    rw [State.compare, same, State.compare]
  refine ⟨fun up => ?_, ?_, fun before => ?_⟩
  · dsimp only at up ⊢
    rw [compare]
    rcases (raised hart).mp up with up | ⟨-, reached⟩
    · exact kept.early up
    · exact reached
  · dsimp only
    rw [compare]
    exact kept.thread
  · dsimp only
    rcases told_append.mp before with before | ⟨level, member⟩
    · rcases kept.told before with up | ⟨-, reached⟩ | sleeping
      · exact .inl ((raised hart).mpr (.inl up))
      · exact .inl ((raised hart).mpr (.inr ⟨inside, reached⟩))
      · exact .inr (.inr sleeping)
    · exact .inl (told hart level member)

/-- The guest has written the compare register of the hart. -/
theorem Kept.rearmed {middle last : State}
    (short : 30 * ((middle.compare hart).toNat - host.now.toNat / 30) < 2 ^ 64)
    (rearmed : Rearmed host.now hart middle last events) :
    Kept hart log (host.restart last (some hart)) := by
  obtain ⟨same, -, lines, timer⟩ := rearmed
  have compare : last.compare hart = middle.compare hart := by
    rw [State.compare, same, State.compare]
  have line : last.timerLine hart = decide (middle.compare hart ≤ usecToTicks host.now) := by
    rw [lines, Function.update_self]
  generalize middle.compare hart = cmp at short compare line timer
  have started : (host.restart last (some hart)).threads hart =
      (last.timers hart).map (⟨host.now, ·⟩) := Function.update_self ..
  by_cases reached : cmp ≤ usecToTicks host.now
  · rw [if_pos reached] at timer
    rw [decide_eq_true reached] at line
    refine ⟨fun _ => ?_, ?_, fun _ => .inl line⟩
    · change last.compare hart ≤ _
      rw [compare]
      exact reached
    · rw [started, timer]
      rintro thread ⟨⟩
  · have ahead := reached
    rw [le_usecToTicks_iff] at ahead
    rw [if_neg reached] at timer
    rw [decide_eq_false reached] at line
    have duration : (ticksToUsec (cmp - usecToTicks host.now)).toNat =
        30 * (cmp.toNat - host.now.toNat / 30) := by
      rw [toNat_ticksToUsec, BitVec.toNat_sub_of_le (BitVec.le_of_lt (BitVec.not_le.mp reached)),
        toNat_usecToTicks, Nat.mod_eq_of_lt short]
    refine ⟨fun up => ?_, ?_, fun _ => .inr (.inr ?_)⟩
    · change last.timerLine hart = true at up
      rw [line] at up
      cases up
    · rw [started, timer]
      rintro thread ⟨⟩
      refine ⟨(Timer.sleeps_iff _).mpr (by rw [duration]; omega), ?_⟩
      change _ = (last.compare hart).toNat
      rw [compare, Thread.ends]
      dsimp only
      omega
    · rw [started, timer]
      rfl

/-- The guest has written the compare register of another hart. -/
theorem Kept.spared_of_ne (kept : Kept hart log host) {other : Nat} {middle last : State}
    (differs : hart ≠ other) (same : middle.compare hart = host.clint.compare hart)
    (lines : middle.timerLine = host.clint.timerLine)
    (rearmed : Rearmed host.now other middle last events) :
    Kept hart (log ++ events) (host.restart last (some other)) := by
  have compare : last.compare hart = host.clint.compare hart := by
    rw [State.compare, rearmed.mtimecmp, ← same, State.compare]
  have line : last.timerLine hart = host.clint.timerLine hart := by
    rw [rearmed.timerLine, Function.update_of_ne differs, lines]
  have threads : (host.restart last (some other)).threads hart = host.threads hart :=
    Function.update_of_ne differs ..
  refine ⟨?_, ?_, ?_⟩
  · change last.timerLine hart = true → last.compare hart ≤ _
    rw [line, compare]
    exact kept.early
  · rw [threads]
    change ∀ thread ∈ host.threads hart, _ ∧ _ = (last.compare hart).toNat
    rw [compare]
    exact kept.thread
  · rw [threads, told_append]
    change _ → last.timerLine hart = true ∨ _ ∧ last.compare hart ≤ _ ∨ _
    rw [line, compare]
    rintro (before | ⟨level, member⟩)
    · exact kept.told before
    · rw [rearmed.log_eq, List.mem_singleton] at member
      cases member
      exact absurd rfl differs

/-- A write that stays within the compare register of one hart leaves those of the others. -/
theorem compare_written {address other : Nat} {src : List (BitVec 8)}
    (writes : compareWritten numberOfCores (.write address src) = some other)
    (fits : address - MTIMECMP_BASE + src.length ≤ 8 * other + 8) (differs : hart ≠ other)
    (clint : State) : (written clint address src).compare hart = clint.compare hart := by
  unfold compareWritten at writes
  dsimp only at writes
  split_ifs at writes
  have start := Option.some.inj writes
  have apart : 8 * hart + 8 ≤ address - MTIMECMP_BASE ∨
      address - MTIMECMP_BASE + src.length ≤ 8 * hart := by omega
  rw [State.compare, written]
  dsimp only
  rw [RegisterMemory.get_write_of_disjoint apart, State.compare]

theorem timerLine_written (clint : State) (address : Nat) (src : List (BitVec 8)) :
    (written clint address src).timerLine = clint.timerLine := by
  rw [written]

theorem allKept_step (kept : AllKept numberOfCores log host) {action : Action}
    (timely : Timely numberOfCores host action)
    (taken : step numberOfCores host action = some (next, events)) :
    AllKept numberOfCores (log ++ events) next := by
  intro hart inside
  cases action with
  | elapse usecs =>
      simp only [step] at taken
      split_ifs at taken with fits
      cases taken
      rw [List.append_nil]
      refine (kept hart inside).elapse ?_
      rw [BitVec.toNat_add, BitVec.toNat_ofNat]
      omega
  | access access =>
      simp only [step] at taken
      split at taken
      · cases taken
      · rename_i data result
        cases taken
        have returned : Returns (transport numberOfCores host.now access) host.clint data
            ((transport numberOfCores host.now access).run host.clint).state
            ((transport numberOfCores host.now access).run host.clint).log := by
          rw [Returns, ← result]
        cases writes : compareWritten numberOfCores access with
        | none => exact (kept hart inside).spared (transport_spares writes returned)
        | some other =>
            cases access with
            | read address count => cases writes
            | write address src =>
                obtain ⟨fits, short⟩ := timely other writes
                have rearmed := transport_rearms writes returned
                by_cases same : hart = other
                · subst same
                  exact Kept.rearmed short rearmed
                · exact (kept hart inside).spared_of_ne same
                    (compare_written writes fits same host.clint) (timerLine_written ..) rearmed
  | readTime =>
      cases taken
      exact (kept hart inside).spared
        (spared_of_updateAndGetMtime (returns_updateAndGetMtime host.now host.clint))
  | wake other =>
      obtain ⟨thread, sleeping, taken⟩ := Option.bind_eq_some_iff.mp taken
      split_ifs at taken with ended
      cases taken
      rw [List.append_nil]
      exact (kept hart inside).wake sleeping ended
  | interrupt =>
      simp only [step] at taken
      split_ifs at taken
      cases taken
      obtain ⟨last, log', returned, -⟩ := returns_interrupt numberOfCores host.now host.clint
      have ran : (interrupt numberOfCores host.now).run host.clint = _ := returned
      rw [ran]
      exact (kept hart inside).interrupt inside returned

end Kept

/-! ## Runs -/

/-- Whatever the guest, the clock and the threads of the host do, and in whichever order: the line
of a hart is up only if its compare value has been reached; a thread that sleeps for it returns, and
ends in the tick in which it is; and the line of a hart that has been told about its timer is up
when a tick has passed since, once nothing that is due has been left undone. -/
theorem timers_keep_time (numberOfCores : Nat) (actions : List Action) (last : Host)
    (log : List Event) (ran : perform (step numberOfCores) .initial actions = some (last, log))
    (timely : Meets (step numberOfCores) (Timely numberOfCores) .initial actions)
    (hart : Nat) (inside : hart < numberOfCores) :
    (last.clint.timerLine hart = true → last.clint.compare hart ≤ usecToTicks last.now) ∧
      (∀ thread ∈ last.threads hart, Timer.Sleeps thread.duration ∧
        thread.ends / 30 = (last.clint.compare hart).toNat) ∧
      (Told hart log → last.notified = false →
        (∀ thread ∈ last.threads hart, last.now.toNat < thread.ends) →
        last.clint.compare hart < usecToTicks last.now → last.clint.timerLine hart = true) := by
  have kept : AllKept numberOfCores ([] ++ log) last :=
    perform_keeps (fun holds meets taken => allKept_step holds meets taken)
      (fun hart _ => kept_initial hart) timely ran
  obtain ⟨early, thread, told⟩ := kept hart inside
  refine ⟨early, thread, fun before quiet asleep passed => ?_⟩
  rcases told before with up | ⟨notified, -⟩ | sleeping
  · exact up
  · rw [quiet] at notified
    cases notified
  · obtain ⟨sleeper, present⟩ := Option.isSome_iff_exists.mp sleeping
    have tick := (thread sleeper present).2
    have later := asleep sleeper present
    rw [BitVec.lt_def, toNat_usecToTicks] at passed
    omega

/-- One hart sleeps until its thread wakes, for another one the value has been reached before it is
written, and the first one goes to sleep again. -/
def nap : List Action :=
  [.access (.write 0x4000 [10, 0, 0, 0]), .elapse 100, .access (.write 0x4008 [2, 0, 0, 0]),
    .elapse 200, .wake 0, .readTime, .interrupt, .access (.read 0xBFF8 4),
    .access (.write 0x4000 [20, 0, 0, 0]), .elapse 50]

theorem timers_keep_time_nap : ∃ last log,
    perform (step 2) .initial nap = some (last, log) ∧
      (last.clint.timerLine 0 = true → last.clint.compare 0 ≤ usecToTicks last.now) ∧
      (∀ thread ∈ last.threads 0, Timer.Sleeps thread.duration ∧
        thread.ends / 30 = (last.clint.compare 0).toNat) ∧
      (Told 0 log → last.notified = false →
        (∀ thread ∈ last.threads 0, last.now.toNat < thread.ends) →
        last.clint.compare 0 < usecToTicks last.now → last.clint.timerLine 0 = true) := by
  have enabled : (perform (step 2) .initial nap).isSome = true := by decide +kernel
  obtain ⟨⟨last, log⟩, ran⟩ := Option.isSome_iff_exists.mp enabled
  exact ⟨last, log, ran, timers_keep_time 2 nap last log ran (by decide +kernel) 0 (by decide)⟩

end SymexVP.RealClint
