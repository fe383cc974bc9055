import SymexVP.WorldRuns
import SymexVP.TrapRouting
import SymexVP.ActionRuns

/-!
# Interrupt lines

A call of a device into the hart sets or clears one bit of the pending interrupts. The bits
of machine mode cannot be written by software, so that each of them is the level its device
gave it last. A device of the world that takes steps of its own therefore takes the same steps
in every run of the hart, and its lines can be read off what these steps have shown.

An interrupt is taken in the step after whose instruction it is the first one pending that is
enabled for machine mode, and in no other.
-/

namespace SymexVP

open ActionRun BitFields

namespace Signal

/-- The pending bit that a call sets or clears. -/
def line : Signal → Option Nat
  | .triggerExternal level | .clearExternal level => (externalBit level).map BitField.lo
  | .timer _ => some Mip.mtip.lo
  | .software _ => some Mip.msip.lo

def level : Signal → Bool
  | .triggerExternal _ => true
  | .clearExternal _ => false
  | .timer status | .software status => status

theorem len_of_externalBit {level : PrivilegeLevel} {field : BitField 32}
    (found : externalBit level = some field) : field.len = 1 := by
  unfold externalBit at found
  split_ifs at found <;> cases found <;> rfl

/-- Setting a field of one bit. -/
theorem getLsbD_setBit {field : BitField 32} (single : field.len = 1) (mip value : BitVec 32)
    (index : Nat) :
    (field.set mip value).getLsbD index =
      if field.lo = index then value.getLsbD 0 else mip.getLsbD index := by
  rw [BitField.getLsbD_set, single]
  by_cases same : field.lo = index
  · subst same
    simp
  · rw [if_neg same, if_neg (by omega)]

theorem getLsbD_apply (mip : BitVec 32) (signal : Signal) (index : Nat) :
    (signal.apply mip).getLsbD index =
      if signal.line = some index then signal.level else mip.getLsbD index := by
  cases signal with
  | triggerExternal level | clearExternal level =>
      simp only [apply]
      cases found : externalBit level with
      | none => simp [line, found]
      | some field =>
          dsimp only
          rw [getLsbD_setBit (len_of_externalBit found)]
          simp [line, found, Signal.level]
  | timer status | software status =>
      simp only [apply, line, Signal.level]
      rw [getLsbD_setBit rfl]
      cases status <;> simp

/-- What calls make of a line. -/
def lineAfter (index : Nat) (signals : List Signal) (start : Bool) : Bool :=
  signals.foldl (fun current signal =>
    if signal.line = some index then signal.level else current) start

theorem lineAfter_append (index : Nat) (earlier later : List Signal) (start : Bool) :
    lineAfter index (earlier ++ later) start =
      lineAfter index later (lineAfter index earlier start) := List.foldl_append

theorem getLsbD_foldl_apply (signals : List Signal) (mip : BitVec 32) (index : Nat) :
    (signals.foldl apply mip).getLsbD index = lineAfter index signals (mip.getLsbD index) := by
  induction signals generalizing mip with
  | nil => rfl
  | cons signal rest inductionHypothesis =>
      rw [List.foldl_cons, inductionHypothesis, getLsbD_apply]
      rfl

end Signal

/-! ## A device with lines -/

section Device

variable {σ α β ω : Type}

/-- A device takes steps of its own, and of the calls into the hart some lines see those that
these steps show and no others. -/
def Shows (step : σ → α → Option (σ × List ω)) (signal : ω → Option Signal) (lines : Nat → Prop)
    (before after : σ) (signals : List Signal) : Prop :=
  ∃ actions log, perform step before actions = some (after, log) ∧
    ∀ index, lines index → ∀ start,
      Signal.lineAfter index signals start =
        Signal.lineAfter index (log.filterMap signal) start

namespace Shows

variable {step : σ → α → Option (σ × List ω)} {signal : ω → Option Signal} {lines : Nat → Prop}
  {before middle after : σ} {signals more : List Signal}

theorem nothing
    (unseen : ∀ index, lines index → ∀ start, Signal.lineAfter index signals start = start) :
    Shows step signal lines before before signals :=
  ⟨[], [], rfl, unseen⟩

theorem of_step {action : α} {events : List ω} (moved : step before action = some (after, events)) :
    Shows step signal lines before after (events.filterMap signal) :=
  ⟨[action], events ++ [], perform_of_step moved rfl, fun _ _ _ => by rw [List.append_nil]⟩

theorem append (earlier : Shows step signal lines before middle signals)
    (later : Shows step signal lines middle after more) :
    Shows step signal lines before after (signals ++ more) := by
  obtain ⟨actions, log, ran, seen⟩ := earlier
  obtain ⟨others, shown, continued, seen'⟩ := later
  refine ⟨actions ++ others, log ++ shown, perform_append ran continued, ?_⟩
  intro index line start
  rw [Signal.lineAfter_append, seen index line, seen' index line, List.filterMap_append,
    Signal.lineAfter_append]

end Shows

/-- What an action does to a device and calls in the hart; one that is impossible does not
happen. -/
def attempt (step : σ → α → Option (σ × List ω)) (signal : ω → Option Signal) (device : σ)
    (action : α) : σ × List Signal :=
  match step device action with
  | some (next, events) => (next, events.filterMap signal)
  | none => (device, [])

theorem shows_attempt (step : σ → α → Option (σ × List ω)) (signal : ω → Option Signal)
    (lines : Nat → Prop) (device : σ) (action : α) :
    Shows step signal lines device (attempt step signal device action).1
      (attempt step signal device action).2 := by
  unfold attempt
  split
  · next taken => exact Shows.of_step taken
  · exact Shows.nothing fun _ _ _ => rfl

/-- What happens to a device, one thing after the other. -/
def happen (affects : β → σ → σ × List Signal) : List β → σ → σ × List Signal
  | [], device => (device, [])
  | first :: rest, device =>
      let (middle, signals) := affects first device
      let (last, more) := happen affects rest middle
      (last, signals ++ more)

theorem shows_happen {step : σ → α → Option (σ × List ω)} {signal : ω → Option Signal}
    {lines : Nat → Prop} {affects : β → σ → σ × List Signal}
    (each : ∀ one device,
      Shows step signal lines device (affects one device).1 (affects one device).2)
    (happenings : List β) (device : σ) :
    Shows step signal lines device (happen affects happenings device).1
      (happen affects happenings device).2 := by
  induction happenings generalizing device with
  | nil => exact Shows.nothing fun _ _ _ => rfl
  | cons first rest inductionHypothesis => exact (each first device).append (inductionHypothesis _)

/-- Every operation of the world is a run of a device in it that lines of the hart see; software
cannot write these. -/
structure Drives (world : World) (step : σ → α → Option (σ × List ω)) (signal : ω → Option Signal)
    (lines : Nat → Prop) (device : world.State → σ) : Prop where
  hardware : ∀ index, lines index → CsrMask.MIP_WRITE.getLsbD index = false
  does : ∀ {before after : world.State} {signals : List Signal}, world.Does before signals after →
    Shows step signal lines (device before) (device after) signals

end Device

namespace Drives

variable {σ α ω : Type} {P : Platform} {step : σ → α → Option (σ × List ω)}
  {signal : ω → Option Signal} {lines : Nat → Prop} {device : P.world.State → σ}

/-- The device takes steps of its own, and these give its lines. -/
def Follows (step : σ → α → Option (σ × List ω)) (signal : ω → Option Signal)
    (lines : Nat → Prop) (device : P.world.State → σ) (before after : Surface P) : Prop :=
  ∃ actions log, perform step (device before.world) actions = some (device after.world, log) ∧
    ∀ index, lines index → after.mip.getLsbD index =
      Signal.lineAfter index (log.filterMap signal) (before.mip.getLsbD index)

theorem Follows.next {before middle after : Surface P}
    (drives : Drives P.world step signal lines device)
    (follows : Follows step signal lines device before middle) (moved : middle.Step after) :
    Follows step signal lines device before after := by
  obtain ⟨actions, log, ran, levels⟩ := follows
  cases moved with
  | does does =>
      obtain ⟨more, shown, continued, seen⟩ := drives.does does
      refine ⟨actions ++ more, log ++ shown, perform_append ran continued, ?_⟩
      intro index line
      rw [Signal.getLsbD_foldl_apply, seen index line, levels index line, List.filterMap_append,
        Signal.lineAfter_append]
  | written mask value software =>
      refine ⟨actions, log, ran, fun index line => ?_⟩
      have masked : mask.getLsbD index = false := by
        have bit := congrArg (BitVec.getLsbD · index) software
        simp only [BitVec.getLsbD_and, BitVec.getLsbD_not, drives.hardware index line] at bit
        by_cases inside : index < 32
        · simpa [inside] using bit
        · exact BitVec.getLsbD_of_ge _ _ (Nat.le_of_not_lt inside)
      show (merge mask middle.mip value).getLsbD index = _
      rw [getLsbD_merge, masked]
      exact levels index line

theorem follows {κ : Type} {surface : κ → Surface P} {before after : κ}
    (drives : Drives P.world step signal lines device) (evolves : Evolves surface before after) :
    Follows step signal lines device (surface before) (surface after) :=
  evolves.keeps (fun moved follows => Follows.next drives follows moved)
    ⟨[], [], rfl, fun _ _ => rfl⟩

/-- From reset, when every line is down. -/
theorem follows_reset {start state : State P} (drives : Drives P.world step signal lines device)
    (reset : Iss.Reset start) (evolves : Evolves State.surface start state) :
    ∃ actions log,
      perform step (device start.board.world) actions = some (device state.board.world, log) ∧
      ∀ index, lines index → state.board.mip.getLsbD index =
        Signal.lineAfter index (log.filterMap signal) false := by
  obtain ⟨actions, log, ran, seen⟩ := drives.follows evolves
  refine ⟨actions, log, ran, fun index line => (seen index line).trans ?_⟩
  have low : start.surface.mip.getLsbD index = false := by
    cases reset
    exact BitVec.getLsbD_zero
  rw [low]

end Drives

/-! ## Interrupts into machine mode -/

namespace Iss

open Exec

variable {P : Platform} (input : P.clover.terms.Assignment)

/-- The state an instruction leaves, in which interrupts are looked at. -/
abbrev afterInstruction (state : State P) : State P := (executed input state).state

theorem evolves_afterInstruction {start state : State P}
    (reached : Reaches (runStep input) start state) :
    Evolves State.surface start (afterInstruction input state) :=
  (evolves_of_reaches input reached).trans (evolves_execStep input (begun state))

/-- A step takes the interrupt into machine mode: it is recorded as the cause, and the next
instruction as the one to return to. -/
structure Interrupted (interrupt : Interrupt) (state : State P) (taken : Taken)
    (after : Control) : Prop where
  taken : taken = .interrupt machineMode
  recorded : Mcause.interrupt.get after.csrs.mcause = 1
  code : Mcause.exceptionCode.get after.csrs.mcause = BitVec.ofNat 32 interrupt.code
  returns : after.csrs.mepc = state.hart.pc
  level : after.prv = machineMode

theorem highest_iff {pending : BitVec 32} {interrupt : Interrupt} :
    Highest pending interrupt ↔ highestPriority pending = some interrupt := by
  refine ⟨?_, highest_of_find⟩
  rintro ⟨set, earlier, later, split, clear⟩
  refine List.find?_eq_some_iff_append.mpr ⟨set, earlier, later, split, fun other before => ?_⟩
  rw [clear other before]
  rfl

theorem code_injective {first second : Interrupt}
    (same : BitVec.ofNat 32 first.code = BitVec.ofNat 32 second.code) : first = second := by
  cases first <;> cases second <;> first | rfl | exact absurd same (by decide)

/-- The control state in which an interrupt enters machine mode. -/
theorem interrupted_entered {state : State P} {pending : BitVec 32} {first : Interrupt}
    (highest : highestPriority pending = some first) :
    Interrupted first state (.interrupt machineMode)
      (control ((switchToTrapHandler machineMode).run
        ((prepareInterrupt ⟨machineMode, pending⟩).run state).state).state) := by
  have code : (BitVec.ofNat 32 first.code).toNat < 2 ^ 31 := by cases first <;> decide
  rw [prepareInterrupt_run (by rfl) highest, switchToTrapHandler_run (by rfl)]
  exact {
    taken := rfl
    recorded := cause_interrupt (by decide) _ _
    code := cause_code code _ _
    returns := rfl
    level := rfl }

/-- An interrupt is taken into machine mode exactly if, after the instruction, machine mode can
be interrupted and no interrupt for it comes before. -/
theorem interrupted_iff {state : State P} {taken : Taken} {interrupt : Interrupt}
    (returned : ((runStep input).run state).result = .ok taken) (went : taken ≠ .breakpoint)
    (ran : (executed input state).result = .ok ()) :
    Interrupted interrupt (afterInstruction input state) taken
        (control ((runStep input).run state).state) ↔
      Interruptible machineMode (afterInstruction input state) ∧
        Highest (routedTo machineMode (afterInstruction input state)) interrupt := by
  have nonzero : ∀ {pending : BitVec 32}, Highest pending interrupt → pending ≠ 0 := by
    rintro pending ⟨set, -⟩ rfl
    exact absurd set (by simp)
  have selects : Interruptible machineMode (afterInstruction input state) →
      Highest (routedTo machineMode (afterInstruction input state)) interrupt →
      computePendingInterrupts (afterInstruction input state) =
        ⟨machineMode, routedTo machineMode (afterInstruction input state)⟩ := by
    intro able highest
    rw [computePendingInterrupts_spec, if_pos ⟨nonzero highest, able⟩]
  have took := stepTakes_runStep input returned
  generalize ended : ((runStep input).run state).state = last at took ⊢
  cases took with
  | breakpoint same => exact absurd rfl went
  | nothing running ran calm same =>
      refine ⟨fun interrupted => absurd interrupted.taken Taken.noConfusion, ?_⟩
      rintro ⟨able, highest⟩
      rw [selects able highest] at calm
      cases calm
  | trap raised mode running trapped prepared switched same =>
      rw [ran] at trapped
      cases trapped
  | interrupt pending running ran selected chosen prepared switched same =>
      by_cases machine : pending.targetMode = machineMode
      · obtain ⟨-, able, all, some⟩ :=
          (interruptIsSelected (afterInstruction input state)).1 (by rw [selected]; exact chosen)
        rw [selected, machine] at able all
        obtain ⟨first, found, -⟩ := prepareInterrupt_of_ok (machine ▸ rfl) prepared
        obtain ⟨mode, set⟩ := pending
        obtain rfl : mode = machineMode := machine
        have entered := @interrupted_entered P (afterInstruction input state) _ _ found
        rw [← same] at entered
        rw [← all, highest_iff]
        constructor
        · intro interrupted
          have codes := interrupted.code.symm.trans entered.code
          rw [code_injective codes]
          exact ⟨able, found⟩
        · rintro ⟨-, highest⟩
          rw [found] at highest
          cases highest
          exact entered
      · constructor
        · intro interrupted
          exact absurd (Taken.interrupt.inj interrupted.taken) machine
        · rintro ⟨able, highest⟩
          rw [selects able highest] at selected
          exact absurd (congrArg PendingInterrupts.targetMode selected).symm machine

theorem getLsbD_routedTo {state : State P} {index : Nat} (inside : index < 32) :
    (routedTo machineMode state).getLsbD index =
      (state.hart.csrs.mie.getLsbD index && state.board.mip.getLsbD index &&
        !state.hart.csrs.mideleg.getLsbD index) := by
  rw [routedTo, routed, if_pos rfl, BitVec.getLsbD_and, BitVec.getLsbD_and, BitVec.getLsbD_not]
  simp [inside]

end Iss

end SymexVP
