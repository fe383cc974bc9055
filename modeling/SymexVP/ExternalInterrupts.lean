import SymexVP.InterruptLines
import SymexVP.PlicDelivery
import SymexVP.PlicCompletions

/-!
# External interrupts of the board

On the HiFive board the interrupt controller is a device of the hart's bus, and the hart is the
target of its line. Around it there are devices whose gateways are triggered while the hart
waits, synchronises or accesses them, whatever they are and whatever they look at.

The pending bit of the external interrupt is the controller's line in every state, and the
controller is in a state of a run of its own. So what holds for the runs of the controller
holds on the board, and the hart takes the external interrupt exactly while the line is up.
-/

namespace SymexVP.Plic

open ActionRun Exec

/-! ## The controller on the bus -/

/-- An interrupt that a device of the board may trigger. -/
structure Gateway (config : Config) where
  id : Nat
  positive : 0 < id
  inside : id < config.numberInterrupts

/-- What the other processes and the other devices do to the controller and the hart. -/
inductive Happening (config : Config)
  | gateway (gateway : Gateway config)
  /-- The process of the controller runs, if it has been notified. -/
  | run
  /-- Calls of the CLINT into the hart. -/
  | timer (status : Bool)
  | software (status : Bool)

/-- The board around the controller. -/
structure Surroundings (config : Config) where
  State : Type
  needSync : State → Nat → Bool
  sync : Plic.State → State → Nat → State × List (Happening config)
  waitWfi : Plic.State → State → Option (State × List (Happening config))
  waitUnlocked : Plic.State → State → Option (State × List (Happening config))
  updateAndGetMtime : State → BitVec 64 × State
  notifyUart : State → Option Nat → Bool → State
  transport : (device : Nat) → Plic.State → State → Command → BitVec 64 → List (BitVec 8) → Nat →
    Option ((Response × List (BitVec 8) × Nat) × State × List (Happening config))

/-- The calls into the first hart, in machine mode as `irq_level` says. -/
def Event.signal : Event → Option Signal
  | .triggerExternalInterrupt hart =>
      if hart = 0 then some (.triggerExternal machineMode) else none
  | .clearExternalInterrupt hart =>
      if hart = 0 then some (.clearExternal machineMode) else none
  | _ => none

section Wired

variable (config : Config)

/-- `happens` says that none of the other processes fails. -/
def Happening.affects (happening : Happening config) (plic : State) : State × List Signal :=
  match happening with
  | .gateway which => attempt (step config) Event.signal plic (.trigger which.id)
  | .run => attempt (step config) Event.signal plic .run
  | .timer status => (plic, [.timer status])
  | .software status => (plic, [.software status])

/-- The number of the controller's port on the bus of the board. -/
def device : Nat := 2

def accessOf (command : Command) (address : BitVec 64) (bytes : List (BitVec 8)) : BusAccess :=
  match command with
  | .read => .read address.toNat bytes.length
  | .write => .write address.toNat bytes

/-- A transaction of the hart with the controller, which takes four cycles of 10 ns. -/
def serve (plic : State) (access : BusAccess) (delay : Nat) :
    Option ((Response × List (BitVec 8) × Nat) × State × List Signal) :=
  match (transport config access).run plic with
  | ⟨.ok data, next, events⟩ =>
      some ((.ok, data, delay + 40), next, events.filterMap Event.signal)
  | ⟨.error _, _, _⟩ => none

variable (surroundings : Surroundings config)

/-- The world with the controller in it. -/
def wired : World where
  State := State × surroundings.State
  needSync state time := surroundings.needSync state.2 time
  sync state time :=
    let (rest, happenings) := surroundings.sync state.1 state.2 time
    let (plic, signals) := happen (Happening.affects config) happenings state.1
    ((plic, rest), signals)
  waitWfi state :=
    (surroundings.waitWfi state.1 state.2).map fun (rest, happenings) =>
      let (plic, signals) := happen (Happening.affects config) happenings state.1
      ((plic, rest), signals)
  waitUnlocked state :=
    (surroundings.waitUnlocked state.1 state.2).map fun (rest, happenings) =>
      let (plic, signals) := happen (Happening.affects config) happenings state.1
      ((plic, rest), signals)
  updateAndGetMtime state :=
    let (time, rest) := surroundings.updateAndGetMtime state.2
    (time, (state.1, rest))
  notifyUart state delay triggers := (state.1, surroundings.notifyUart state.2 delay triggers)
  transport number state command address bytes delay :=
    if number = device then
      (serve config state.1 (accessOf command address bytes) delay).map
        fun (answer, plic, signals) => (answer, (plic, state.2), signals)
    else
      (surroundings.transport number state.1 state.2 command address bytes delay).map
        fun (answer, rest, happenings) =>
          let (plic, signals) := happen (Happening.affects config) happenings state.1
          (answer, (plic, rest), signals)

end Wired

/-! ## The other processes never fail -/

section Total

/-- The computation returns from every state. -/
abbrev Total {α : Type} (body : PlicM α) : Prop :=
  Exec.Meets (fun _ => True) (fun _ => True) (fun _ => False) body

theorem Total.bind {α β : Type} {first : PlicM α} {rest : α → PlicM β} (head : Total first)
    (tail : ∀ value, Total (rest value)) : Total (first >>= rest) :=
  Exec.Meets.bind head fun value _ => tail value

theorem total_get : Total (Exec.get : PlicM State) :=
  Exec.Meets.get.mono (fun _ _ => trivial) fun _ same => same

theorem total_modify (change : State → State) : Total (Exec.modify change : PlicM Unit) :=
  Exec.Meets.modify fun _ _ => trivial

variable {config : Config} (covers : config.Covers)

include covers

theorem total_hasPending {hart : Nat} (owns : hart < config.numberCores) :
    Total (hartHasPendingEnabledInterrupts config hart) := by
  intro plic _
  have looks : Looks True (hartHasPendingEnabledInterrupts config hart) plic _ :=
    looks_hasPending (fun _ => covers) fun _ => owns
  have looked := looks.returns_of_inside trivial
  refine ⟨trivial, fun _ _ => trivial, fun fault failed => ?_⟩
  rw [looked] at failed
  cases failed

theorem total_raiseAll {harts : List Nat} (own : ∀ hart ∈ harts, hart < config.numberCores) :
    Total (raiseAll config harts) := by
  induction harts with
  | nil => exact Exec.Meets.pure trivial
  | cons hart rest inductionHypothesis =>
      refine Total.bind ?_ fun _ =>
        inductionHypothesis fun other member => own other (List.mem_cons_of_mem hart member)
      refine total_get.bind fun plic => Exec.Meets.when fun _ => ?_
      refine (total_hasPending covers (own hart List.mem_cons_self)).bind fun found => ?_
      exact Exec.Meets.when fun _ => (total_modify _).bind fun _ => Exec.Meets.emit _

/-- A gateway and the process of the controller return in every state. -/
theorem happens (plic : State) :
    (∀ gateway : Gateway config, (step config plic (.trigger gateway.id)).isSome = true) ∧
      (step config plic .run).isSome = true := by
  have some : ∀ {action : Action}, Total (act config action) →
      (step config plic action).isSome = true := by
    intro action total
    have returned := (total plic trivial).2.2
    unfold step
    generalize (act config action).run plic = outcome at returned ⊢
    obtain ⟨result, next, events⟩ := outcome
    cases result with
    | ok value => rfl
    | error fault => exact (returned fault rfl).elim
  constructor
  · intro gateway
    have word : gateway.id / 32 < config.numberInterruptEntries := by
      have inside := gateway.inside
      unfold Config.Covers at covers
      omega
    refine some fun plic _ => ?_
    simp only [act, gatewayTriggerInterrupt, checkIndex,
      require_of (And.intro gateway.positive gateway.inside), require_of word]
    exact ⟨trivial, fun _ _ => trivial, fun fault failed => by cases failed⟩
  · refine some (total_get.bind fun plic => Exec.Meets.when fun _ => ?_)
    refine (total_modify _).bind fun _ => ?_
    exact total_raiseAll covers fun hart member => List.mem_range.mp member

end Total

/-! ## The line of the hart -/

section Line

variable {config : Config} {plic next : State}

/-- The pending bit of the external interrupt. -/
abbrev line : Nat := Mip.meip.lo

theorem lineAfter_signal (log : List Event) (lines : Nat → Bool) :
    Signal.lineAfter line (log.filterMap Event.signal) (lines 0) = levels lines log 0 := by
  induction log generalizing lines with
  | nil => rfl
  | cons event rest inductionHypothesis =>
      cases event with
      | triggerExternalInterrupt hart =>
          refine Eq.trans ?_ (inductionHypothesis fun other =>
            if other = hart then true else lines other)
          by_cases own : hart = 0
          · subst own
            rfl
          · have unseen : Event.signal (.triggerExternalInterrupt hart) = none := if_neg own
            rw [if_neg (Ne.symm own), List.filterMap_cons_none unseen]
      | clearExternalInterrupt hart =>
          refine Eq.trans ?_ (inductionHypothesis fun other =>
            if other = hart then false else lines other)
          by_cases own : hart = 0
          · subst own
            rfl
          · have unseen : Event.signal (.clearExternalInterrupt hart) = none := if_neg own
            rw [if_neg (Ne.symm own), List.filterMap_cons_none unseen]
      | gateway | claimed | answered => exact inductionHypothesis lines

/-- The harts are told every change of their lines. -/
theorem levels_of_step {action : Action} {events : List Event}
    (moved : step config plic action = some (next, events)) :
    levels plic.hartEip events = next.hartEip := by
  have returned := returns_of_step moved
  cases action with
  | trigger id =>
      obtain ⟨-, rfl, rfl⟩ := returns_gateway returned
      rfl
  | run =>
      obtain ⟨_, _, _, _, looked, chosen, rfl⟩ := returns_bind_iff.mp returned
      obtain ⟨rfl, rfl, rfl⟩ := returns_get_iff.mp looked
      rcases returns_when_iff.mp chosen with ⟨-, ran⟩ | ⟨-, rfl, rfl⟩
      · exact (returns_run ran).2.1
      · rfl
  | access access =>
      cases access with
      | read address count =>
          obtain ⟨data, reached, _, _, accessed, answered, rfl⟩ := returns_bind_iff.mp returned
          obtain ⟨rfl, rfl⟩ := returns_emit_iff.mp answered
          rcases returns_transport_read accessed with
            ⟨rfl, rfl⟩ | ⟨_, -, -, -, -, -, -, rfl, rfl, -⟩
          · rfl
          · rfl
      | write address src =>
          obtain ⟨_, reached, _, _, accessed, rest, rfl⟩ := returns_bind_iff.mp returned
          obtain ⟨-, rfl, rfl⟩ := returns_pure_iff.mp rest
          rw [List.append_nil, ← hartEip_written config plic address src]
          rcases returns_transport_write accessed with ⟨rfl, rfl⟩ | ⟨offset, called⟩
          · rfl
          · rcases returns_postWriteHartConfig called with ⟨-, rfl, rfl⟩ |
              ⟨-, -, -, ⟨-, raised, rfl, rfl⟩ | ⟨-, rfl, rfl⟩⟩
            · rfl
            · exact line_self raised
            · rfl

theorem levels_of_perform {actions : List Action} {log : List Event}
    (ran : perform (step config) plic actions = some (next, log)) :
    levels plic.hartEip log = next.hartEip := by
  induction actions generalizing plic log with
  | nil =>
      cases ran
      rfl
  | cons action rest inductionHypothesis =>
      obtain ⟨middle, events, more, moved, continued, rfl⟩ := perform_cons ran
      rw [levels_append, levels_of_step moved]
      exact inductionHypothesis continued

/-- What is shown to the line by what happens to the controller. -/
abbrev ShowsLine (config : Config) (plic next : State) (signals : List Signal) : Prop :=
  Shows (step config) Event.signal (· = line) plic next signals

theorem shows_affects (happening : Happening config) (plic : State) :
    ShowsLine config plic (happening.affects config plic).1 (happening.affects config plic).2 := by
  cases happening with
  | gateway which => exact shows_attempt (step config) Event.signal _ plic _
  | run => exact shows_attempt (step config) Event.signal _ plic _
  | timer status | software status =>
      refine Shows.nothing fun index equal start => ?_
      subst equal
      rfl

/-- A transaction that returns is an access in a step of the controller. -/
theorem shows_serve {access : BusAccess} {delay : Nat}
    {answer : Response × List (BitVec 8) × Nat} {signals : List Signal}
    (served : serve config plic access delay = some (answer, next, signals)) :
    ShowsLine config plic next signals := by
  unfold serve at served
  split at served
  · next data reached events ran =>
      cases served
      have accessed : Returns (transport config access) plic data next events := ran
      cases access with
      | read address count =>
          have moved : step config plic (.access (.read address count)) =
              some (next, events ++ [.answered data]) :=
            step_of_returns (returns_bind_iff.mpr
              ⟨_, _, _, _, accessed, returns_emit_iff.mpr ⟨rfl, rfl⟩, rfl⟩)
          have shown : ShowsLine config plic next
              ((events ++ [Event.answered data]).filterMap Event.signal) := Shows.of_step moved
          rw [List.filterMap_append] at shown
          exact (List.append_nil (events.filterMap Event.signal)) ▸ shown
      | write address src =>
          have moved : step config plic (.access (.write address src)) =
              some (next, events ++ []) :=
            step_of_returns (returns_bind_iff.mpr
              ⟨_, _, _, _, accessed, returns_pure_iff.mpr ⟨rfl, rfl, rfl⟩, rfl⟩)
          rw [List.append_nil] at moved
          exact Shows.of_step moved
  · cases served

end Line

/-- The controller drives the external interrupt of the hart. -/
theorem drives (config : Config) (surroundings : Surroundings config) :
    Drives (wired config surroundings) (step config) Event.signal (· = line) Prod.fst where
  hardware := by
    rintro _ rfl
    decide
  does := by
    intro before after signals does
    cases does with
    | sync => exact shows_happen shows_affects _ before.1
    | waitWfi woken | waitUnlocked woken =>
        obtain ⟨happened, -, same⟩ := Option.map_eq_some_iff.mp woken
        cases same
        exact shows_happen shows_affects _ before.1
    | updateAndGetMtime | notifyUart => exact Shows.nothing fun _ _ _ => rfl
    | transport answered =>
        unfold wired at answered
        dsimp only at answered
        split at answered
        · obtain ⟨served, found, same⟩ := Option.map_eq_some_iff.mp answered
          cases same
          exact shows_serve found
        · obtain ⟨happened, -, same⟩ := Option.map_eq_some_iff.mp answered
          cases same
          exact shows_happen shows_affects _ before.1

/-! ## Interrupts that arrive -/

section Arrive

variable {config : Config} {P : Platform} {device : P.world.State → State}

/-- The hart sees the line of a controller that takes steps of its own; after a run whose writes
uncover nothing the line is up when there is something to deliver, unless the process of the
controller has yet to run. -/
def SeesLine (config : Config) (device : P.world.State → State) (state : SymexVP.State P) : Prop :=
  ∃ actions log,
    perform (step config) (initial config) actions = some (device state.board.world, log) ∧
    state.board.mip.getLsbD line = (device state.board.world).hartEip 0 ∧
    (Meets (step config) (UncoversNothing config) (initial config) actions →
      hasPending config (device state.board.world) 0 = true →
        (device state.board.world).eRun = false → state.board.mip.getLsbD line = true)

/-- A step takes the external interrupt after its instruction exactly if the line is up then, the
interrupt is enabled and not delegated, and machine mode can be interrupted. -/
def TakesExternal (device : P.world.State → State) (input : P.clover.terms.Assignment)
    (state : SymexVP.State P) : Prop :=
  ∀ taken, ((Iss.runStep input).run state).result = .ok taken → taken ≠ .breakpoint →
    (Iss.executed input state).result = .ok () →
      (Iss.Interrupted .machineExternal (Iss.afterInstruction input state) taken
          (Iss.control ((Iss.runStep input).run state).state) ↔
        (device (Iss.afterInstruction input state).board.world).hartEip 0 = true ∧
          (Iss.afterInstruction input state).hart.csrs.mie.getLsbD line = true ∧
          (Iss.afterInstruction input state).hart.csrs.mideleg.getLsbD line = false ∧
          Iss.Interruptible machineMode (Iss.afterInstruction input state))

/-- No interrupt is tested before the external one of machine mode. -/
theorem highest_machineExternal {pending : BitVec 32} :
    Iss.Highest pending .machineExternal ↔ pending.getLsbD line = true := by
  refine ⟨fun highest => highest.1, fun set => ⟨set, [], _, rfl, ?_⟩⟩
  rintro _ ⟨⟩

variable (drives : Drives P.world (step config) Event.signal (· = line) device)

include drives

theorem seesLine_of_evolves {start state : SymexVP.State P} (reset : Iss.Reset start)
    (fresh : device start.board.world = initial config)
    (evolves : Evolves SymexVP.State.surface start state) : SeesLine config device state := by
  obtain ⟨actions, log, ran, seen⟩ := drives.follows_reset reset evolves
  rw [fresh] at ran
  have level : state.board.mip.getLsbD line = (device state.board.world).hartEip 0 := by
    have lines : levels (fun _ => false) log = (device state.board.world).hartEip :=
      levels_of_perform ran
    rw [← lines, ← lineAfter_signal log fun _ => false]
    exact seen line rfl
  refine ⟨actions, log, ran, level, fun uncovers pending asleep => ?_⟩
  have attended : Attended config ([] ++ log) (device state.board.world) :=
    perform_keeps (fun holds meets moved => Attended.step holds meets moved)
      (attended_initial config) uncovers ran
  rw [level]
  have owns := config.coresPositive
  refine (attended.delivers 0 owns (hasPending_iff.mp pending)).resolve_right ?_
  rw [asleep]
  exact Bool.false_ne_true

theorem external_of_reaches {input : P.clover.terms.Assignment} {start state : SymexVP.State P}
    (reset : Iss.Reset start) (fresh : device start.board.world = initial config)
    (reached : Reaches (Iss.runStep input) start state) :
    SeesLine config device state ∧ SeesLine config device (Iss.afterInstruction input state) ∧
      TakesExternal device input state := by
  have sees := seesLine_of_evolves drives reset fresh (Iss.evolves_afterInstruction input reached)
  refine ⟨seesLine_of_evolves drives reset fresh (Iss.evolves_of_reaches input reached), sees, ?_⟩
  intro taken returned went ran
  obtain ⟨-, -, -, level, -⟩ := sees
  rw [Iss.interrupted_iff input returned went ran, highest_machineExternal,
    Iss.getLsbD_routedTo (by decide), level]
  simp only [Bool.and_eq_true, Bool.not_eq_true']
  tauto

end Arrive

/-! ## The HiFive board -/

abbrev board (clover : Clover) (surroundings : Surroundings hifive) (depth : Nat) : Platform :=
  hifivePlatform clover (wired hifive surroundings) depth

/-- A board with a device that triggers its gateway whenever the hart synchronises, which it does
after every instruction, and nothing else. -/
def busySurroundings : Surroundings hifive where
  State := Unit
  needSync _ _ := true
  sync _ rest _ := (rest, [.gateway ⟨3, by decide, by decide⟩, .run])
  waitWfi _ _ := none
  waitUnlocked _ _ := none
  updateAndGetMtime rest := (0, rest)
  notifyUart rest _ _ := rest
  transport _ _ rest _ _ bytes delay := some ((.ok, bytes.map fun _ => 0, delay), rest, [])

/-- A program in the memory of such a board. -/
def busyStart (words : List (BitVec 32)) :
    SymexVP.State (board Clover.reference busySurroundings 2) :=
  ⟨Iss.initialHart ⟨false⟩ 0 0x80000000 0,
    Iss.initialBoard (Iss.programMemory words) [] (initial hifive, ())⟩

/-- Every symbolic variable is zero. -/
def busyInput : (board Clover.reference busySurroundings 2).clover.terms.Assignment := fun _ => 0

end SymexVP.Plic
