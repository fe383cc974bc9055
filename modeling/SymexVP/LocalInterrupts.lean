import SymexVP.ExternalInterrupts
import SymexVP.ClintTimer

/-!
# Timer and software interrupts of the board

On the board of `symex_main.cpp` the core local interrupt controller is the only device of the
hart's bus with a process of its own, and the hart is the target of its two lines. While the
hart waits or synchronises, the time goes on and the process runs, in whatever order.

The pending bits of the two interrupts are the lines of the controller in every state, and
nothing raises the external one. So the software interrupt is taken exactly while its line is
up, and the timer interrupt exactly while its line is up and the software interrupt does not
come first. A timer that is set is not missed, because it is not in the runs of the controller.
-/

namespace SymexVP.Clint

open ActionRun Exec

/-! ## The controller on the bus -/

/-- What happens to the controller while the hart does not run. -/
inductive Happening
  | advance (duration : Nat)
  | wake
  | run

def Happening.action : Happening → Action
  | .advance duration => .advance duration
  | .wake => .wake
  | .run => .run

/-- What decides when the hart waits, and what happens then. -/
structure Kernel where
  State : Type
  needSync : State → Nat → Bool
  sync : Clint.State → State → Nat → State × List Happening
  waitWfi : Clint.State → State → Option (State × List Happening)
  waitUnlocked : Clint.State → State → Option (State × List Happening)

/-- The calls into the hart of the board. -/
def Event.signal : Event → Option Signal
  | .triggerTimerInterrupt hart level => if hart = 0 then some (.timer level) else none
  | .triggerSoftwareInterrupt hart level => if hart = 0 then some (.software level) else none
  | _ => none

def Happening.affects (happening : Happening) (clint : State) : State × List Signal :=
  attempt (step 1) Event.signal clint happening.action

/-- A transaction of the hart with the controller. The hart counts its time in nanoseconds. -/
def serve (clint : State) (access : BusAccess) (delay : Nat) :
    Option ((Response × List (BitVec 8) × Nat) × State × List Signal) :=
  match (transport 1 (delay * 1000) access).run clint with
  | ⟨.ok data, next, events⟩ =>
      some ((.ok, data, delay + 20), next, events.filterMap Event.signal)
  | ⟨.error _, _, _⟩ => none

/-- The world with the controller in it. No other device of the board is outside the model. -/
def wired (kernel : Kernel) : World where
  State := State × kernel.State
  needSync state time := kernel.needSync state.2 time
  sync state time :=
    let (rest, happenings) := kernel.sync state.1 state.2 time
    let (clint, signals) := happen Happening.affects happenings state.1
    ((clint, rest), signals)
  waitWfi state :=
    (kernel.waitWfi state.1 state.2).map fun (rest, happenings) =>
      let (clint, signals) := happen Happening.affects happenings state.1
      ((clint, rest), signals)
  waitUnlocked state :=
    (kernel.waitUnlocked state.1 state.2).map fun (rest, happenings) =>
      let (clint, signals) := happen Happening.affects happenings state.1
      ((clint, rest), signals)
  updateAndGetMtime state :=
    let (clint, _) := attempt (step 1) Event.signal state.1 .readTime
    (clint.time, (clint, state.2))
  notifyUart state _ _ := state
  transport _ state command address bytes delay :=
    (serve state.1 (Plic.accessOf command address bytes) delay).map
      fun (answer, clint, signals) => (answer, (clint, state.2), signals)

/-! ## The lines of the hart -/

section Lines

variable {start clint next : State} {action : Action} {log events : List Event}

/-- The level of the line for software interrupts. -/
def State.softwareLine (clint : State) : Bool := clint.msip.get 4 0 != 0

/-- The hart has been told the levels of its lines. -/
structure Told (start : State) (log : List Event) (clint : State) : Prop where
  timer : Signal.lineAfter Mip.mtip.lo (log.filterMap Event.signal) (start.timerLine 0) =
    clint.timerLine 0
  software : Signal.lineAfter Mip.msip.lo (log.filterMap Event.signal) start.softwareLine =
    clint.softwareLine

/-- Nothing is told, and no line has changed. -/
theorem told_quiet (hides : log.filterMap Event.signal = []) (mtime mtimecmp : RegisterMemory)
    (timeStamp : Nat) (irqEvent : Option Nat) (woken : Bool) (lastWrite : Nat) :
    Told clint log { clint with mtime, mtimecmp, timeStamp, irqEvent, woken, lastWrite } := by
  constructor
  · rw [hides]
    rfl
  · rw [hides]
    rfl

/-- The callback tells the hart the level of its register, whose other bits it clears. -/
theorem told_postWriteMsip {mem : RegisterMemory} {offset size : Nat} {value : Unit}
    (returned : Returns (postWriteMsip 1 offset size) { clint with msip := mem } value next log) :
    Told clint log next := by
  simp only [postWriteMsip, returns_bind_iff, returns_require_iff, returns_get_iff,
    returns_modify_iff, returns_emit_iff] at returned
  obtain ⟨_, _, _, _, ⟨-, rfl, rfl⟩, ⟨_, _, _, _, ⟨inside, rfl, rfl⟩, ⟨_, _, _, _, ⟨rfl, rfl⟩,
    ⟨_, _, _, _, ⟨rfl, rfl, rfl⟩, ⟨rfl, rfl⟩, rfl⟩, rfl⟩, rfl⟩, rfl⟩ := returned
  rw [Nat.lt_one_iff.mp inside]
  exact ⟨rfl, rfl⟩

theorem told_write {delay address : Nat} {src data : List (BitVec 8)}
    (returned : Returns (transport 1 delay (.write address src)) clint data next log) :
    Told clint log next := by
  unfold transport at returned
  generalize delay + accessTime = ahead at returned
  obtain ⟨range, found, returned⟩ := returns_route_iff.mp returned
  obtain ⟨-, -, called, -⟩ := RegisterRange.returns_write_iff.mp returned
  have member := List.mem_of_find?_eq_some found
  simp only [registerRanges, List.mem_cons, List.not_mem_nil, or_false] at member
  rcases member with rfl | rfl | rfl
  · generalize RegisterRange.toLocal _ address = offset at called
    obtain ⟨-, rfl, rfl⟩ := returns_pure_iff.mp called
    exact told_quiet rfl _ _ _ _ _ _
  · generalize RegisterRange.toLocal _ address = offset at called
    generalize RegisterMemory.write _ offset src = mem at called
    have called : Returns (postWriteMtimecmp ahead offset src.length)
        { clint with mtimecmp := mem } () next log := called
    obtain ⟨rfl, rfl⟩ := returns_postWriteMtimecmp called
    exact told_quiet rfl _ _ _ _ _ _
  · generalize RegisterRange.toLocal _ address = offset at called
    generalize RegisterMemory.write _ offset src = mem at called
    have called : Returns (postWriteMsip 1 offset src.length) { clint with msip := mem } ()
        next log := called
    exact told_postWriteMsip called

theorem msip_evaluateAll (harts : List Nat) :
    Steps (Unchanged State.msip) (evaluateAll harts) := by
  have triggers : ∀ hart level, Steps (Unchanged State.msip) (triggerTimerInterrupt hart level) :=
    fun hart level => Steps.bind (Steps.modify fun _ => rfl) fun _ => Steps.emit _
  induction harts with
  | nil => exact Steps.pure ()
  | cons hart rest inductionHypothesis =>
      refine (Steps.get.bind fun clint => Steps.ite (triggers hart true) ?_).bind
        fun _ => inductionHypothesis
      exact (triggers hart false).bind fun _ => Steps.when fun _ => Steps.modify fun _ => rfl

/-- The process of the controller tells the hart its line, and leaves the other one alone. -/
theorem told_run {value : Unit} (returned : Returns (run 1) clint value next log) :
    Told clint log next := by
  simp only [run, returns_bind_iff, returns_modify_iff, returns_emit_iff] at returned
  obtain ⟨_, _, _, _, ⟨rfl, rfl⟩, ⟨_, reached, _, _, brought, ⟨_, last, _, _, looped, ⟨rfl, rfl⟩,
    rfl⟩, rfl⟩, rfl⟩ := returned
  obtain ⟨rfl, -, rfl⟩ := returns_updateAndGetMtime brought
  have same : last.msip = (updated { clint with woken := false }).msip := by
    have kept := msip_evaluateAll (List.range 1) (updated { clint with woken := false })
    rwa [looped] at kept
  obtain ⟨-, lines, -, rfl⟩ := returns_evaluateAll looped
  constructor
  · rw [lines 0]
    rfl
  · rw [State.softwareLine, State.softwareLine, same, updated_eq]
    rfl

theorem told_of_step (moved : step 1 clint action = some (next, events)) :
    Told clint events next := by
  obtain ⟨-, returned⟩ := returns_of_step moved
  cases action with
  | advance duration =>
      obtain ⟨rfl, rfl⟩ := returns_modify_iff.mp returned
      exact told_quiet rfl _ _ _ _ _ _
  | access delay access =>
      obtain ⟨data, accessed⟩ := returns_access returned
      cases access with
      | read address count =>
          rcases returns_transport_read accessed with ⟨-, rfl, rfl⟩ | ⟨rfl, rfl⟩
          · exact told_quiet rfl _ _ _ _ _ _
          · exact told_quiet rfl _ _ _ _ _ _
      | write address src => exact told_write accessed
  | readTime =>
      obtain ⟨value, reached, earlier, later, brought, shows, rfl⟩ := returns_bind_iff.mp returned
      obtain ⟨rfl, -, rfl⟩ := returns_updateAndGetMtime brought
      obtain ⟨rfl, rfl⟩ := returns_emit_iff.mp shows
      rw [updated_eq]
      exact told_quiet rfl _ _ _ _ _ _
  | wake =>
      obtain ⟨rfl, rfl⟩ := returns_modify_iff.mp returned
      exact told_quiet rfl _ _ _ _ _ _
  | run => exact told_run returned

theorem Told.append (told : Told start log clint) (more : Told clint events next) :
    Told start (log ++ events) next := by
  constructor
  · rw [List.filterMap_append, Signal.lineAfter_append, told.timer, more.timer]
  · rw [List.filterMap_append, Signal.lineAfter_append, told.software, more.software]

theorem told_of_perform {actions : List Action}
    (ran : perform (step 1) start actions = some (clint, log)) : Told start log clint :=
  perform_invariant (fun told moved => Told.append told (told_of_step moved))
    (told_quiet rfl _ _ _ _ _ _) ran

/-- The controller has no line for external interrupts. -/
theorem lineAfter_meip (log : List Event) (start : Bool) :
    Signal.lineAfter Mip.meip.lo (log.filterMap Event.signal) start = start := by
  induction log with
  | nil => rfl
  | cons event rest inductionHypothesis =>
      cases event with
      | triggerTimerInterrupt hart level | triggerSoftwareInterrupt hart level =>
          rw [List.filterMap_cons, Event.signal]
          split_ifs <;> exact inductionHypothesis
      | observed | ran => exact inductionHypothesis

end Lines

/-! ## The controller and the hart -/

/-- The bits of machine mode. -/
def Line (index : Nat) : Prop :=
  index = Mip.meip.lo ∨ index = Mip.msip.lo ∨ index = Mip.mtip.lo

/-- A transaction that returns is an access in a step of the controller. -/
theorem shows_serve {clint next : State} {access : BusAccess} {delay : Nat}
    {answer : Response × List (BitVec 8) × Nat} {signals : List Signal}
    (served : serve clint access delay = some (answer, next, signals)) :
    Shows (step 1) Event.signal Line clint next signals := by
  unfold serve at served
  split at served
  · next data reached events ran =>
      cases served
      have moved : step 1 clint (.access (delay * 1000) access) = some (next, events ++ []) := by
        simp only [step, enabled, act, bind_run, ran]
        rfl
      rw [List.append_nil] at moved
      exact Shows.of_step moved
  · cases served

/-- The controller drives the hart's bits of machine mode. -/
theorem drives (kernel : Kernel) :
    Drives (wired kernel) (step 1) Event.signal Line Prod.fst where
  hardware := by
    rintro index (rfl | rfl | rfl) <;> decide
  does := by
    have happens : ∀ happenings clint, Shows (step 1) Event.signal Line clint
        (happen Happening.affects happenings clint).1
        (happen Happening.affects happenings clint).2 :=
      shows_happen fun one clint => shows_attempt (step 1) Event.signal Line clint one.action
    intro before after signals does
    cases does with
    | sync => exact happens _ before.1
    | waitWfi woken | waitUnlocked woken =>
        obtain ⟨happened, -, same⟩ := Option.map_eq_some_iff.mp woken
        cases same
        exact happens _ before.1
    | updateAndGetMtime =>
        have silent : (attempt (step 1) Event.signal before.1 .readTime).2 = [] := by
          unfold attempt
          split
          · next taken =>
              obtain ⟨value, reached, earlier, later, brought, shows, rfl⟩ :=
                returns_bind_iff.mp (returns_of_step taken).2
              obtain ⟨-, -, rfl⟩ := returns_updateAndGetMtime brought
              obtain ⟨-, rfl⟩ := returns_emit_iff.mp shows
              rfl
          · rfl
        have shown := shows_attempt (step 1) Event.signal Line before.1 .readTime
        rw [silent] at shown
        exact shown
    | notifyUart => exact Shows.nothing fun _ _ _ => rfl
    | transport answered =>
        obtain ⟨served, found, same⟩ := Option.map_eq_some_iff.mp answered
        cases same
        exact shows_serve found

/-! ## Interrupts that arrive -/

/-- The interrupt is enabled for the hart and not delegated. -/
structure Accepted {P : Platform} (interrupt : Interrupt) (state : SymexVP.State P) : Prop where
  enabled : state.hart.csrs.mie.getLsbD interrupt.code = true
  kept : state.hart.csrs.mideleg.getLsbD interrupt.code = false

theorem highest_machineSoftware {pending : BitVec 32}
    (first : pending.getLsbD Interrupt.machineExternal.code = false) :
    Iss.Highest pending .machineSoftware ↔
      pending.getLsbD Interrupt.machineSoftware.code = true := by
  refine ⟨fun highest => highest.1, fun set => ⟨set, [.machineExternal], _, rfl, ?_⟩⟩
  intro other before
  rw [List.mem_singleton.mp before, first]

theorem highest_machineTimer {pending : BitVec 32}
    (first : pending.getLsbD Interrupt.machineExternal.code = false) :
    Iss.Highest pending .machineTimer ↔
      pending.getLsbD Interrupt.machineTimer.code = true ∧
        pending.getLsbD Interrupt.machineSoftware.code = false := by
  constructor
  · intro highest
    refine ⟨highest.1, Bool.eq_false_of_not_eq_true fun set => ?_⟩
    have other := Iss.highest_iff.mp ((highest_machineSoftware first).mpr set)
    rw [Iss.highest_iff.mp highest] at other
    cases other
  · rintro ⟨set, clear⟩
    refine ⟨set, [.machineExternal, .machineSoftware], _, rfl, ?_⟩
    intro other before
    rcases List.mem_pair.mp before with rfl | rfl
    · exact first
    · exact clear

section Arrive

variable {P : Platform} {device : P.world.State → State}

/-- The hart sees the lines of a controller that takes steps of its own, and no external
interrupt. After a run in which every compare value can be represented as a time, a timer that
is set has its line up, or the process will look at it in time. -/
def SeesLines (device : P.world.State → State) (state : SymexVP.State P) : Prop :=
  ∃ actions log, perform (step 1) initial actions = some (device state.board.world, log) ∧
    state.board.mip.getLsbD Mip.meip.lo = false ∧
    state.board.mip.getLsbD Mip.msip.lo = (device state.board.world).softwareLine ∧
    state.board.mip.getLsbD Mip.mtip.lo = (device state.board.world).timerLine 0 ∧
    (Meets (step 1) (fun clint _ => Fits 1 clint) initial actions →
      (device state.board.world).Timed 0 →
        state.board.mip.getLsbD Mip.mtip.lo = true ∨
          ∃ time, (device state.board.world).notification = some time ∧
            time ≤ max (((device state.board.world).compare 0).toNat * scaler + scaler)
              (device state.board.world).lastWrite)

/-- After its instruction a step takes the software interrupt exactly if the line is up then and
the interrupt is accepted, and the timer interrupt exactly if its line is up, the interrupt is
accepted and the other one does not come first. -/
def TakesLocal (device : P.world.State → State) (input : P.clover.terms.Assignment)
    (state : SymexVP.State P) : Prop :=
  ∀ taken, ((Iss.runStep input).run state).result = .ok taken → taken ≠ .breakpoint →
    (Iss.executed input state).result = .ok () →
      let looked := Iss.afterInstruction input state
      let clint := device looked.board.world
      let control := Iss.control ((Iss.runStep input).run state).state
      (Iss.Interrupted .machineSoftware looked taken control ↔
        Iss.Interruptible machineMode looked ∧
          clint.softwareLine = true ∧ Accepted .machineSoftware looked) ∧
      (Iss.Interrupted .machineTimer looked taken control ↔
        Iss.Interruptible machineMode looked ∧
          (clint.timerLine 0 = true ∧ Accepted .machineTimer looked) ∧
          ¬(clint.softwareLine = true ∧ Accepted .machineSoftware looked))

theorem routedTo_iff {state : SymexVP.State P} {interrupt : Interrupt} :
    (Iss.routedTo machineMode state).getLsbD interrupt.code = true ↔
      state.board.mip.getLsbD interrupt.code = true ∧ Accepted interrupt state := by
  rw [Iss.getLsbD_routedTo (by cases interrupt <;> decide)]
  simp only [Bool.and_eq_true, Bool.not_eq_true']
  constructor
  · rintro ⟨⟨enabled, pending⟩, kept⟩
    exact ⟨pending, enabled, kept⟩
  · rintro ⟨pending, enabled, kept⟩
    exact ⟨⟨enabled, pending⟩, kept⟩

variable (drives : Drives P.world (step 1) Event.signal Line device)

include drives

theorem seesLines_of_evolves {start state : SymexVP.State P} (reset : Iss.Reset start)
    (fresh : device start.board.world = initial)
    (evolves : Evolves SymexVP.State.surface start state) : SeesLines device state := by
  obtain ⟨actions, log, ran, seen⟩ := drives.follows_reset reset evolves
  rw [fresh] at ran
  have told := told_of_perform ran
  have timer : state.board.mip.getLsbD Mip.mtip.lo = (device state.board.world).timerLine 0 :=
    (seen _ (.inr (.inr rfl))).trans told.timer
  refine ⟨actions, log, ran, (seen _ (.inl rfl)).trans (lineAfter_meip log false),
    (seen _ (.inr (.inl rfl))).trans told.software, timer, fun fits timed => ?_⟩
  have attended : Attended 1 (device state.board.world) :=
    perform_keeps_state (fun holds meets moved => Attended.step holds meets moved)
      (attended_initial 1) fits ran
  rw [timer]
  exact attended.covered 0 Nat.one_pos timed

theorem local_of_reaches {input : P.clover.terms.Assignment} {start state : SymexVP.State P}
    (reset : Iss.Reset start) (fresh : device start.board.world = initial)
    (reached : Reaches (Iss.runStep input) start state) :
    SeesLines device state ∧ SeesLines device (Iss.afterInstruction input state) ∧
      TakesLocal device input state := by
  have sees := seesLines_of_evolves drives reset fresh (Iss.evolves_afterInstruction input reached)
  refine ⟨seesLines_of_evolves drives reset fresh (Iss.evolves_of_reaches input reached), sees, ?_⟩
  intro taken returned went ran looked clint control
  obtain ⟨-, -, -, external, software, timer, -⟩ := sees
  have first :
      (Iss.routedTo machineMode looked).getLsbD Interrupt.machineExternal.code = false := by
    refine Bool.eq_false_of_not_eq_true fun set => ?_
    exact absurd ((routedTo_iff.mp set).1.symm.trans external) (by decide)
  have raisedSoftware : looked.board.mip.getLsbD Interrupt.machineSoftware.code =
      clint.softwareLine := software
  have raisedTimer : looked.board.mip.getLsbD Interrupt.machineTimer.code =
      clint.timerLine 0 := timer
  constructor
  · rw [Iss.interrupted_iff input returned went ran, highest_machineSoftware first, routedTo_iff,
      raisedSoftware]
  · rw [Iss.interrupted_iff input returned went ran, highest_machineTimer first, routedTo_iff,
      ← Bool.not_eq_true, routedTo_iff, raisedSoftware, raisedTimer]

end Arrive

abbrev board (clover : Clover) (kernel : Kernel) (depth : Nat) : Platform :=
  symexPlatform clover (wired kernel) depth

/-- A kernel that synchronises after every instruction, and then lets the time go on until the
notification of the controller is due. -/
def eagerKernel : Kernel where
  State := Unit
  needSync _ _ := true
  sync clint rest _ :=
    (rest, match clint.irqEvent with
      | none => []
      | some due => [.advance (due - clint.timeStamp), .wake, .run])
  waitWfi _ _ := none
  waitUnlocked _ _ := none

/-- A program in the memory of such a board. -/
def eagerStart (words : List (BitVec 32)) :
    SymexVP.State (board Clover.reference eagerKernel 2) :=
  ⟨Iss.initialHart ⟨false⟩ 0 0 0,
    Iss.initialBoard (Iss.programMemory words) [] (initial, ())⟩

/-- Every symbolic variable is zero. -/
def eagerInput : (board Clover.reference eagerKernel 2).clover.terms.Assignment := fun _ => 0

end SymexVP.Clint
