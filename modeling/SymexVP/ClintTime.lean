import SymexVP.ClintSteps

/-!
# The time of the core local interrupt controller

The time moves forward when it is brought up to the simulation's time. A read over the
bus sets it to the local time of the initiator instead, which may lie before that of an
earlier reader, and the range of the time is writable like any other.
-/

namespace SymexVP.Clint

open ActionRun Exec

variable {numberOfCores : Nat} {clint next : State} {action : Action} {log events : List Event}

/-- The value of the time that an event shows. -/
def Event.observation : Event → Option (BitVec 64)
  | .observed value => some value
  | _ => none

def observations (log : List Event) : List (BitVec 64) := log.filterMap Event.observation

/-- A read of the time is not made from before the time, and no write is made to it. -/
def Forward (clint : State) : Action → Prop
  | .access delay (.read address _) =>
      (regsMtime (delay + accessTime)).contains address = true →
        clint.time ≤ ticks (clint.timeStamp + (delay + accessTime))
  | .access delay (.write address _) =>
      (regsMtime (delay + accessTime)).contains address = false
  | _ => True

instance : ∀ (clint : State) (action : Action), Decidable (Forward clint action)
  | _, .access _ (.read _ _) => by unfold Forward; infer_instance
  | _, .access _ (.write _ _) => by unfold Forward; infer_instance
  | _, .advance _ | _, .readTime | _, .wake | _, .run => isTrue trivial

/-- What has been shown is in order, and the time has reached it. -/
structure Shown (log : List Event) (clint : State) : Prop where
  ordered : (observations log).Pairwise (· ≤ ·)
  reached : ∀ value ∈ observations log, value ≤ clint.time

theorem shown_initial : Shown [] initial := ⟨List.Pairwise.nil, nofun⟩

theorem Shown.quiet (shown : Shown log clint) (grows : clint.time ≤ next.time)
    (hides : observations events = []) : Shown (log ++ events) next := by
  have same : observations (log ++ events) = observations log := by
    rw [observations, List.filterMap_append]
    exact (congrArg (observations log ++ ·) hides).trans (List.append_nil _)
  refine ⟨?_, ?_⟩
  · rw [same]
    exact shown.ordered
  · rw [same]
    intro value seen
    exact BitVec.le_trans (shown.reached value seen) grows

theorem Shown.observe (shown : Shown log clint) (grows : clint.time ≤ next.time) :
    Shown (log ++ [.observed next.time]) next := by
  have more : observations (log ++ [.observed next.time]) = observations log ++ [next.time] := by
    rw [observations, List.filterMap_append]
    rfl
  have earlier : ∀ value ∈ observations log, value ≤ next.time := by
    intro value seen
    exact BitVec.le_trans (shown.reached value seen) grows
  refine ⟨?_, ?_⟩
  · rw [more, List.pairwise_append]
    refine ⟨shown.ordered, List.pairwise_singleton _ _, ?_⟩
    intro value seen last same
    rw [List.mem_singleton.mp same]
    exact earlier value seen
  · rw [more]
    intro value seen
    rcases List.mem_append.mp seen with before | same
    · exact earlier value before
    · rw [List.mem_singleton.mp same]
      exact BitVec.le_refl _

theorem time_after_write {delay address : Nat} {src data : List (BitVec 8)}
    (outside : (regsMtime (delay + accessTime)).contains address = false)
    (returned : Returns (transport numberOfCores delay (.write address src)) clint data next log) :
    next.time = clint.time ∧ observations log = [] := by
  rcases returns_transport_write returned with ⟨inside, -⟩ | ⟨⟨mem, rfl⟩, rfl⟩ |
    ⟨⟨mem, rfl⟩, hart, level, rfl⟩
  · rw [outside] at inside
    cases inside
  · exact ⟨rfl, rfl⟩
  · exact ⟨rfl, rfl⟩

theorem returns_access {delay : Nat} {access : BusAccess} {value : Unit}
    (returned : Returns (act numberOfCores (.access delay access)) clint value next log) :
    ∃ data, Returns (transport numberOfCores delay access) clint data next log := by
  obtain ⟨data, reached, earlier, later, accessed, rest, rfl⟩ := returns_bind_iff.mp returned
  obtain ⟨-, rfl, rfl⟩ := returns_pure_iff.mp rest
  exact ⟨data, by rwa [List.append_nil]⟩

theorem Shown.run {value : Unit} (shown : Shown log clint)
    (returned : Returns (run numberOfCores) clint value next events) :
    Shown (log ++ events) next := by
  obtain ⟨loops, -, -, lines, rfl⟩ := returns_run returned
  refine shown.quiet ?_ ?_
  · rw [loops.time]
    exact time_le_updated { clint with woken := false }
  · simp [observations, Event.observation, List.filterMap_append, List.filterMap_map]

theorem Shown.step (shown : Shown log clint) (forward : Forward clint action)
    (moved : step numberOfCores clint action = some (next, events)) :
    Shown (log ++ events) next := by
  obtain ⟨-, returned⟩ := returns_of_step moved
  cases action with
  | advance duration =>
      obtain ⟨rfl, rfl⟩ := returns_modify_iff.mp returned
      exact shown.quiet (BitVec.le_refl _) rfl
  | access delay access =>
      obtain ⟨data, accessed⟩ := returns_access returned
      cases access with
      | read address count =>
          rcases returns_transport_read accessed with ⟨inside, rfl, rfl⟩ | ⟨rfl, rfl⟩
          · refine shown.observe ?_
            rw [time_setTime]
            exact forward inside
          · exact shown.quiet (BitVec.le_refl _) rfl
      | write address src =>
          obtain ⟨same, hides⟩ := time_after_write forward accessed
          refine shown.quiet ?_ hides
          rw [same]
          exact BitVec.le_refl _
  | readTime =>
      obtain ⟨value, reached, earlier, later, brought, shows, rfl⟩ :=
        returns_bind_iff.mp returned
      obtain ⟨rfl, rfl, rfl⟩ := returns_updateAndGetMtime brought
      obtain ⟨rfl, rfl⟩ := returns_emit_iff.mp shows
      exact shown.observe (time_le_updated clint)
  | wake =>
      obtain ⟨rfl, rfl⟩ := returns_modify_iff.mp returned
      exact shown.quiet (BitVec.le_refl _) rfl
  | run => exact shown.run returned

/-- Along every run whose reads of the time do not come from before it and whose writes leave
its range alone, the values shown are in order and no write changes the time. -/
theorem time_forward {actions : List Action}
    (forward : Meets (step numberOfCores) Forward initial actions)
    (ran : perform (step numberOfCores) initial actions = some (clint, log)) :
    (observations log).Pairwise (· ≤ ·) ∧
      ∀ before delay address src middle shown,
        actions = before ++ [.access delay (.write address src)] →
        perform (step numberOfCores) initial before = some (middle, shown) →
          clint.time = middle.time := by
  refine ⟨?_, ?_⟩
  · have kept := perform_keeps (fun holds meets moved => Shown.step holds meets moved)
      shown_initial forward ran
    rw [List.nil_append] at kept
    exact kept.ordered
  · rintro before delay address src middle shown rfl reached
    obtain ⟨other, _, events, same, moved, -⟩ := perform_concat ran
    rw [reached] at same
    cases same
    obtain ⟨data, accessed⟩ := returns_access (returns_of_step moved).2
    exact (time_after_write (forward.concat reached).2 accessed).1

/-- A hart sets its compare register, the process runs, and two readers follow each other. -/
def laterAndLater : List Action :=
  [.access 0 (.write 0x4000 [3, 0, 0, 0]), .advance 20000, .wake, .run,
    .access 1000000 (.read 0xBFF8 8), .readTime, .access 2000000 (.read 0xBFF8 8),
    .access 0 (.write 0x4004 [0, 0, 0, 0])]

theorem later_and_later_forward :
    ∃ clint log, perform (step 1) initial laterAndLater = some (clint, log) ∧
      observations log = [1, 1, 2] ∧
      (observations log).Pairwise (· ≤ ·) ∧
        ∀ before delay address src middle shown,
          laterAndLater = before ++ [.access delay (.write address src)] →
          perform (step 1) initial before = some (middle, shown) → clint.time = middle.time := by
  have shown : (perform (step 1) initial laterAndLater).map (fun (_, log) => observations log) =
      some [1, 1, 2] := by decide +kernel
  obtain ⟨⟨clint, log⟩, ran, values⟩ := Option.map_eq_some_iff.mp shown
  have forward : Meets (step 1) Forward initial laterAndLater := by decide +kernel
  exact ⟨clint, log, ran, values, time_forward forward ran⟩

/-- The second reader is not as far ahead as the first. -/
def aheadAndBehind : List Action :=
  [.access 2000000 (.read 0xBFF8 8), .access 0 (.read 0xBFF8 8)]

theorem ahead_and_behind_backwards :
    (∃ clint log, perform (step 1) initial aheadAndBehind = some (clint, log) ∧
      ¬(observations log).Pairwise (· ≤ ·)) ∧
    ∃ clint log, perform (step 1) initial [.access 0 (.write 0xBFF8 [7, 0, 0, 0])] =
      some (clint, log) ∧ clint.time ≠ initial.time := by
  have back : (perform (step 1) initial aheadAndBehind).map (fun (_, log) => observations log) =
      some [2, 0] := by decide +kernel
  have set : (perform (step 1) initial [.access 0 (.write 0xBFF8 [7, 0, 0, 0])]).map
      (fun (clint, _) => clint.time) = some 7 := by decide +kernel
  obtain ⟨⟨clint, log⟩, ran, values⟩ := Option.map_eq_some_iff.mp back
  obtain ⟨⟨other, more⟩, wrote, time⟩ := Option.map_eq_some_iff.mp set
  refine ⟨⟨clint, log, ran, ?_⟩, other, more, wrote, ?_⟩
  · simp only at values
    rw [values]
    decide
  · simp only at time
    rw [time]
    decide +kernel

end SymexVP.Clint
