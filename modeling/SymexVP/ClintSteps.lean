import SymexVP.Clint

/-!
# Steps of the core local interrupt controller

What an action has done if it returns. Only a read of `mtime` and a write that reaches
`mtime` change the time without looking at it; everything else brings it up to the
simulation's time or leaves it alone. Notifications come from writes to the compare
registers and from the loop over the harts, and none of them is dropped for a later one.
-/

namespace SymexVP.Clint

open Exec

variable {numberOfCores : Nat} {clint next : State} {action : Action} {log events : List Event}

theorem returns_of_step (moved : step numberOfCores clint action = some (next, events)) :
    enabled clint action = true ∧ Returns (act numberOfCores action) clint () next events := by
  unfold step at moved
  split at moved
  case isTrue can =>
    split at moved
    case h_1 ran =>
      cases moved
      exact ⟨can, ran⟩
    case h_2 => cases moved
  case isFalse => cases moved

/-! ## Time -/

@[simp]
theorem time_setTime (value : BitVec 64) (clint : State) : (setTime value clint).time = value :=
  RegisterMemory.get_set_self 8 clint.mtime 0 value

/-- The state with its time brought up. -/
def updated (clint : State) : State :=
  if clint.time < ticks clint.timeStamp then setTime (ticks clint.timeStamp) clint else clint

theorem returns_updateAndGetMtime {value : BitVec 64}
    (returned : Returns updateAndGetMtime clint value next log) :
    next = updated clint ∧ value = next.time ∧ log = [] := by
  simp only [updateAndGetMtime, returns_bind_iff, returns_get_iff, returns_when_iff,
    returns_modify_iff, returns_pure_iff] at returned
  obtain ⟨_, _, _, _, ⟨rfl, rfl, rfl⟩, ⟨_, _, _, _, chosen, ⟨_, _, _, _, ⟨rfl, rfl, rfl⟩,
    ⟨rfl, rfl, rfl⟩, rfl⟩, rfl⟩, rfl⟩ := returned
  rcases chosen with ⟨behind, rfl, rfl⟩ | ⟨ahead, rfl, rfl⟩
  · exact ⟨(if_pos behind).symm, rfl, rfl⟩
  · exact ⟨(if_neg ahead).symm, rfl, rfl⟩

theorem time_le_updated (clint : State) : clint.time ≤ (updated clint).time := by
  unfold updated
  split
  case isTrue behind =>
    rw [time_setTime]
    exact BitVec.le_of_lt behind
  case isFalse => exact BitVec.le_refl clint.time

theorem ticks_le_updated (clint : State) : ticks clint.timeStamp ≤ (updated clint).time := by
  unfold updated
  split
  case isTrue behind =>
    rw [time_setTime]
    exact BitVec.le_refl _
  case isFalse ahead => exact BitVec.not_lt.mp ahead

/-- Bringing the time up changes nothing else. -/
theorem updated_eq (clint : State) :
    updated clint = { clint with mtime := (updated clint).mtime } := by
  unfold updated
  split <;> rfl

/-! ## The bus -/

/-- A read of the time sets it to the local time of the initiator. -/
theorem returns_transport_read {delay address count : Nat} {data : List (BitVec 8)}
    (returned : Returns (transport numberOfCores delay (.read address count)) clint data next log) :
    ((regsMtime (delay + accessTime)).contains address = true ∧
        next = setTime (ticks (clint.timeStamp + (delay + accessTime))) clint ∧
        log = [.observed next.time]) ∨ next = clint ∧ log = [] := by
  obtain ⟨range, found, returned⟩ := returns_route_iff.mp returned
  obtain ⟨-, ⟨inside, -⟩, called, -⟩ := RegisterRange.returns_read_iff.mp returned
  have member := List.mem_of_find?_eq_some found
  simp only [registerRanges, List.mem_cons, List.not_mem_nil, or_false] at member
  rcases member with rfl | rfl | rfl
  · simp only [regsMtime, preReadMtime, returns_bind_iff, returns_get_iff, returns_modify_iff,
      returns_emit_iff] at called
    obtain ⟨_, _, _, _, ⟨rfl, rfl, rfl⟩, ⟨_, _, _, _, ⟨rfl, rfl⟩, ⟨rfl, rfl⟩, rfl⟩, rfl⟩ := called
    exact .inl ⟨inside, rfl, by rw [time_setTime]; rfl⟩
  · generalize RegisterRange.toLocal _ address = offset at called
    obtain ⟨-, rfl, rfl⟩ := returns_pure_iff.mp called
    exact .inr ⟨rfl, rfl⟩
  · obtain ⟨-, rfl, rfl⟩ := returns_pure_iff.mp called
    exact .inr ⟨rfl, rfl⟩

/-- The state after a write to the compare registers by an initiator that is some time ahead. -/
def compareWritten (ahead : Nat) (mem : RegisterMemory) (clint : State) : State :=
  { notify ahead clint with
    mtimecmp := mem
    lastWrite := clint.timeStamp + ahead }

theorem returns_postWriteMtimecmp {delay address size : Nat} {value : Unit} {mem : RegisterMemory}
    (returned : Returns (postWriteMtimecmp delay address size) { clint with mtimecmp := mem }
      value next log) :
    next = compareWritten delay mem clint ∧ log = [] := by
  obtain ⟨rfl, rfl⟩ := returns_modify_iff.mp returned
  exact ⟨rfl, rfl⟩

/-- What a write can do: change the time, change a compare register and notify the process, or
change a software interrupt and tell its hart. -/
theorem returns_transport_write {delay address : Nat} {src data : List (BitVec 8)}
    (returned : Returns (transport numberOfCores delay (.write address src)) clint data next log) :
    ((regsMtime (delay + accessTime)).contains address = true ∧
        (∃ mem, next = { clint with mtime := mem }) ∧ log = []) ∨
      ((∃ mem, next = compareWritten (delay + accessTime) mem clint) ∧ log = []) ∨
      ((∃ mem, next = { clint with msip := mem }) ∧
        ∃ hart level, log = [.triggerSoftwareInterrupt hart level]) := by
  unfold transport at returned
  generalize delay + accessTime = ahead at returned ⊢
  obtain ⟨range, found, returned⟩ := returns_route_iff.mp returned
  obtain ⟨-, ⟨inside, -⟩, called, -⟩ := RegisterRange.returns_write_iff.mp returned
  have member := List.mem_of_find?_eq_some found
  simp only [registerRanges, List.mem_cons, List.not_mem_nil, or_false] at member
  rcases member with rfl | rfl | rfl
  · generalize RegisterRange.toLocal _ address = offset at called
    obtain ⟨-, rfl, rfl⟩ := returns_pure_iff.mp called
    exact .inl ⟨inside, ⟨_, rfl⟩, rfl⟩
  · generalize RegisterRange.toLocal _ address = offset at called
    generalize RegisterMemory.write _ offset src = mem at called
    have called : Returns (postWriteMtimecmp ahead offset src.length)
        { clint with mtimecmp := mem } () next log := called
    obtain ⟨rfl, rfl⟩ := returns_postWriteMtimecmp called
    exact .inr (.inl ⟨⟨mem, rfl⟩, rfl⟩)
  · generalize RegisterRange.toLocal _ address = offset at called
    simp only [regsMsip, postWriteMsip, returns_bind_iff, returns_require_iff, returns_get_iff,
      returns_modify_iff, returns_emit_iff] at called
    obtain ⟨_, _, _, _, ⟨-, rfl, rfl⟩, ⟨_, _, _, _, ⟨-, rfl, rfl⟩, ⟨_, _, _, _, ⟨rfl, rfl⟩,
      ⟨_, _, _, _, ⟨rfl, rfl, rfl⟩, ⟨rfl, rfl⟩, rfl⟩, rfl⟩, rfl⟩, rfl⟩ := called
    exact .inr (.inr ⟨⟨_, rfl⟩, _, _, rfl⟩)

/-! ## The loop over the harts -/

/-- The level `run` sets the timer line of a hart to. -/
def State.due (clint : State) (hart : Nat) : Bool :=
  decide (0 < clint.compare hart ∧ clint.compare hart ≤ clint.time)

/-- A compare value for which the process notifies itself. -/
def State.Timed (clint : State) (hart : Nat) : Prop :=
  0 < clint.compare hart ∧ clint.compare hart < BitVec.allOnes 64

/-- The pending notification is due by some time. -/
def State.NotifiedBy (clint : State) (limit : Nat) : Prop :=
  ∃ time, clint.irqEvent = some time ∧ time ≤ limit

theorem notifiedBy_notify (delay : Nat) (clint : State) :
    (notify delay clint).NotifiedBy (clint.timeStamp + delay) := by
  refine ⟨_, rfl, ?_⟩
  split
  · exact le_rfl
  · exact Nat.min_le_right _ _

theorem State.NotifiedBy.notify {limit : Nat} (notified : clint.NotifiedBy limit) (delay : Nat) :
    (Clint.notify delay clint).NotifiedBy limit := by
  obtain ⟨time, pending, bound⟩ := notified
  refine ⟨_, rfl, ?_⟩
  rw [pending]
  exact (Nat.min_le_left _ _).trans bound

/-- Some rounds of the loop have been done between two states. -/
structure Loops (clint next : State) : Prop where
  mtime : next.mtime = clint.mtime
  mtimecmp : next.mtimecmp = clint.mtimecmp
  timeStamp : next.timeStamp = clint.timeStamp
  woken : next.woken = clint.woken
  sooner : ∀ limit, clint.NotifiedBy limit → next.NotifiedBy limit

theorem Loops.trans {last : State} (earlier : Loops clint next) (later : Loops next last) :
    Loops clint last where
  mtime := later.mtime.trans earlier.mtime
  mtimecmp := later.mtimecmp.trans earlier.mtimecmp
  timeStamp := later.timeStamp.trans earlier.timeStamp
  woken := later.woken.trans earlier.woken
  sooner limit notified := later.sooner limit (earlier.sooner limit notified)

theorem Loops.compare (loops : Loops clint next) (hart : Nat) :
    next.compare hart = clint.compare hart := by
  rw [State.compare, loops.mtimecmp, State.compare]

theorem Loops.time (loops : Loops clint next) : next.time = clint.time := by
  rw [State.time, loops.mtime, State.time]

theorem Loops.due (loops : Loops clint next) (hart : Nat) : next.due hart = clint.due hart := by
  rw [State.due, loops.compare, loops.time, State.due]

theorem returns_triggerTimerInterrupt {hart : Nat} {level : Bool} {value : Unit}
    (returned : Returns (triggerTimerInterrupt hart level) clint value next log) :
    next = { clint with
        timerLine := fun other => if other = hart then level else clint.timerLine other } ∧
      log = [.triggerTimerInterrupt hart level] := by
  simp only [triggerTimerInterrupt, returns_bind_iff, returns_modify_iff, returns_emit_iff]
    at returned
  obtain ⟨_, _, _, _, ⟨rfl, rfl⟩, ⟨rfl, rfl⟩, rfl⟩ := returned
  exact ⟨rfl, rfl⟩

/-- One round sets one line, and notifies the process if the compare value lies ahead. -/
theorem returns_evaluate {hart : Nat} {value : Unit}
    (returned : Returns (evaluate hart) clint value next log) :
    Loops clint next ∧
      (next.timerLine = fun other =>
        if other = hart then clint.due hart else clint.timerLine other) ∧
      (clint.due hart = false → clint.Timed hart →
        next.NotifiedBy (clint.timeStamp + untilGoal (clint.compare hart) clint.time)) ∧
      log = [.triggerTimerInterrupt hart (clint.due hart)] := by
  simp only [evaluate, returns_bind_iff, returns_get_iff] at returned
  obtain ⟨_, _, _, _, ⟨rfl, rfl, rfl⟩, chosen, rfl⟩ := returned
  split at chosen
  case isTrue reached =>
    have due : clint.due hart = true := decide_eq_true reached
    obtain ⟨rfl, rfl⟩ := returns_triggerTimerInterrupt chosen
    rw [due]
    exact ⟨⟨rfl, rfl, rfl, rfl, fun _ notified => notified⟩, rfl, nofun, rfl⟩
  case isFalse ahead =>
    have due : clint.due hart = false := decide_eq_false ahead
    rw [due]
    obtain ⟨_, _, _, _, lowered, rest, rfl⟩ := returns_bind_iff.mp chosen
    obtain ⟨rfl, rfl⟩ := returns_triggerTimerInterrupt lowered
    rcases returns_when_iff.mp rest with ⟨-, notified⟩ | ⟨untimed, rfl, rfl⟩
    · obtain ⟨rfl, rfl⟩ := returns_modify_iff.mp notified
      refine ⟨⟨rfl, rfl, rfl, rfl, ?_⟩, rfl, fun _ _ => notifiedBy_notify _ _, rfl⟩
      intro limit pending
      have lowered : State.NotifiedBy { clint with
          timerLine := fun other => if other = hart then false else clint.timerLine other }
          limit := pending
      exact lowered.notify _
    · exact ⟨⟨rfl, rfl, rfl, rfl, fun _ notified => notified⟩, rfl,
        fun _ timed => absurd timed untimed, rfl⟩

/-- The loop sets the line of each of its harts. -/
theorem returns_evaluateAll {harts : List Nat} {value : Unit}
    (returned : Returns (evaluateAll harts) clint value next log) :
    Loops clint next ∧
      (∀ hart, next.timerLine hart =
        if hart ∈ harts then clint.due hart else clint.timerLine hart) ∧
      (∀ hart ∈ harts, clint.due hart = false → clint.Timed hart →
        next.NotifiedBy (clint.timeStamp + untilGoal (clint.compare hart) clint.time)) ∧
      log = harts.map fun hart => .triggerTimerInterrupt hart (clint.due hart) := by
  induction harts generalizing clint log with
  | nil =>
      obtain ⟨-, rfl, rfl⟩ := returns_pure_iff.mp returned
      exact ⟨⟨rfl, rfl, rfl, rfl, fun _ notified => notified⟩, fun _ => rfl, nofun, rfl⟩
  | cons first rest later =>
      obtain ⟨_, middle, _, _, looked, continued, rfl⟩ := returns_bind_iff.mp returned
      obtain ⟨one, line, soon, rfl⟩ := returns_evaluate looked
      obtain ⟨others, lines, sooner, rfl⟩ := later continued
      refine ⟨one.trans others, ?_, ?_, ?_⟩
      · intro hart
        rw [lines, line, one.due]
        by_cases same : hart = first
        · subst same
          simp
        · simp [same]
      · intro hart member low timed
        rcases List.mem_cons.mp member with rfl | inside
        · exact others.sooner _ (soon low timed)
        · have notified := sooner hart inside (by rw [one.due, low])
            (by rwa [State.Timed, one.compare])
          rwa [one.timeStamp, one.compare, one.time] at notified
      · simp [one.due]

/-- One round of the process. -/
theorem returns_run {value : Unit} (returned : Returns (run numberOfCores) clint value next log) :
    Loops (updated { clint with woken := false }) next ∧
      (∀ hart, hart < numberOfCores → next.timerLine hart = next.due hart) ∧
      (∀ hart, hart < numberOfCores → next.due hart = false → next.Timed hart →
        next.NotifiedBy (next.timeStamp + untilGoal (next.compare hart) next.time)) ∧
      ∃ lines : List (Nat × Bool),
        log = lines.map (fun line => .triggerTimerInterrupt line.1 line.2) ++ [.ran] := by
  simp only [run, returns_bind_iff, returns_modify_iff, returns_emit_iff] at returned
  obtain ⟨_, _, _, _, ⟨rfl, rfl⟩, ⟨_, _, _, _, brought, ⟨_, _, _, _, looped, ⟨rfl, rfl⟩, rfl⟩,
    rfl⟩, rfl⟩ := returned
  obtain ⟨rfl, -, rfl⟩ := returns_updateAndGetMtime brought
  obtain ⟨loops, lines, soon, rfl⟩ := returns_evaluateAll looped
  refine ⟨loops, ?_, ?_, ?_⟩
  · intro hart owns
    rw [lines, if_pos (List.mem_range.mpr owns), loops.due]
  · intro hart owns low timed
    have notified := soon hart (List.mem_range.mpr owns) (by rw [← loops.due, low])
      (by rwa [State.Timed, ← loops.compare])
    rwa [← loops.timeStamp, ← loops.compare, ← loops.time] at notified
  · refine ⟨(List.range numberOfCores).map fun hart =>
      (hart, (updated { clint with woken := false }).due hart), ?_⟩
    rw [List.map_map]
    rfl

end SymexVP.Clint
