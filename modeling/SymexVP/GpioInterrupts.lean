import Mathlib.Tactic
import SymexVP.Gpio

/-!
# Pending pins and their interrupts

What the guest expects of a register for pending interrupts is a latch for each pin: an
edge sets it and triggers an interrupt, unless it is set already, and an acknowledgement
clears it. The pins follow such latches as long as a write to the register clears the
latches of its mask and leaves the others alone.

The register is inverted and a write replaces it, so that a pin outside the mask becomes
pending. Nothing has triggered its interrupt, and its edges are dropped until it is
acknowledged itself.
-/

namespace SymexVP.GPIO

/-! ## Latches -/

/-- Which pins are pending for an edge. -/
abbrev Latch := Edge → Fin 32 → Bool

def Latch.after (latch : Latch) : Event → Latch
  | .edge edge pin _ => fun edge' pin' => decide (edge' = edge ∧ pin' = pin) || latch edge' pin'
  | .acknowledge edge mask =>
      fun edge' pin' => !(decide (edge' = edge) && mask.getLsbD pin') && latch edge' pin'

def Latch.afterAll (latch : Latch) (log : List Event) : Latch := log.foldl Latch.after latch

variable (intGpioBase : Nat)

/-- An edge triggers the interrupt of its pin if the pin is not pending. -/
def Expected (latch : Latch) : Event → Prop
  | .edge edge pin fired =>
      fired = if latch edge pin = true then none else some (intGpioBase + pin.val)
  | .acknowledge _ _ => True

def Latched : Latch → List Event → Prop
  | _, [] => True
  | latch, event :: rest => Expected intGpioBase latch event ∧ Latched (latch.after event) rest

variable {intGpioBase}

theorem Latch.afterAll_append (latch : Latch) (first second : List Event) :
    latch.afterAll (first ++ second) = (latch.afterAll first).afterAll second :=
  List.foldl_append

theorem latched_append (latch : Latch) (first second : List Event) :
    Latched intGpioBase latch (first ++ second) ↔
      Latched intGpioBase latch first ∧ Latched intGpioBase (latch.afterAll first) second := by
  induction first generalizing latch with
  | nil => exact (and_iff_right trivial).symm
  | cons event first inductionHypothesis =>
      rw [List.cons_append, Latched, Latched, inductionHypothesis, and_assoc]
      rfl

/-- Every edge of a log finds the latch that the events in front of it leave. -/
theorem Latched.expected {latch : Latch} {before after : List Event} {event : Event}
    (latched : Latched intGpioBase latch (before ++ event :: after)) :
    Expected intGpioBase (latch.afterAll before) event :=
  ((latched_append latch before (event :: after)).mp latched).2.1

/-- Whether a pin is acknowledged in a log. -/
def Acknowledged (edge : Edge) (pin : Fin 32) (log : List Event) : Prop :=
  ∃ mask, .acknowledge edge mask ∈ log ∧ mask.getLsbD pin = true

theorem acknowledged_cons {edge : Edge} {pin : Fin 32} {event : Event} {log : List Event} :
    Acknowledged edge pin (event :: log) ↔
      (∃ mask, event = .acknowledge edge mask ∧ mask.getLsbD pin = true) ∨
        Acknowledged edge pin log := by
  simp only [Acknowledged, List.mem_cons, or_and_right, exists_or, eq_comm]

/-- Without a further edge, a pin is pending if it was and has not been acknowledged. -/
theorem Latch.afterAll_of_quiet {edge : Edge} {pin : Fin 32} {latch : Latch} {log : List Event}
    (quiet : ∀ fired, .edge edge pin fired ∉ log) :
    latch.afterAll log edge pin = true ↔ latch edge pin = true ∧ ¬Acknowledged edge pin log := by
  induction log generalizing latch with
  | nil => simp [Latch.afterAll, Acknowledged]
  | cons event log inductionHypothesis =>
      have later := @inductionHypothesis (latch.after event)
        fun fired member => quiet fired (List.mem_cons_of_mem _ member)
      rw [Latch.afterAll, List.foldl_cons, ← Latch.afterAll, later, acknowledged_cons]
      cases event with
      | edge edge' pin' fired =>
          have other : ¬(edge = edge' ∧ pin = pin') := by
            rintro ⟨rfl, rfl⟩
            exact quiet fired List.mem_cons_self
          simp [Latch.after, other]
      | acknowledge edge' mask =>
          by_cases same : edge = edge'
          · subst same
            simp [Latch.after]
            tauto
          · simp [Latch.after, same, Ne.symm same]

/-! ## The pins follow the latches -/

def pending (gpio : State) : Latch :=
  fun edge pin => !(gpio.registers edge.pending).getLsbD pin

variable (intGpioBase)

/-- The interrupts are the ones of the latches, which are then those of the pins. -/
structure Follows (gpio : State) (events : List Event) (next : State) : Prop where
  latched : Latched intGpioBase (pending gpio) events
  pending : pending next = (pending gpio).afterAll events

variable {intGpioBase} {gpio middle next last : State} {events more : List Event}

theorem Follows.silent (unchanged : GPIO.pending next = GPIO.pending gpio) :
    Follows intGpioBase gpio [] next := ⟨trivial, unchanged⟩

theorem Follows.trans (first : Follows intGpioBase gpio events middle)
    (second : Follows intGpioBase middle more last) :
    Follows intGpioBase gpio (events ++ more) last := by
  constructor
  · rw [latched_append, ← first.pending]
    exact ⟨first.latched, second.latched⟩
  · rw [second.pending, first.pending, Latch.afterAll_append]

/-- What becomes of the pending pins depends on the two registers alone. -/
theorem pending_congr
    (same : ∀ edge : Edge, next.registers edge.pending = gpio.registers edge.pending) :
    pending next = pending gpio := by
  funext edge pin
  rw [pending, pending, same]

theorem pending_assign {register : Register} (new : BitVec 32)
    (other : ∀ edge : Edge, edge.pending ≠ register) :
    pending (gpio.assign register new) = pending gpio :=
  pending_congr fun edge => gpio.assign_other new (other edge)

/-- A register for pending interrupts with a new value. -/
theorem pending_assign_pending (edge edge' : Edge) (new : BitVec 32) (pin : Fin 32) :
    pending (gpio.assign edge.pending new) edge' pin =
      if edge' = edge then !new.getLsbD pin else pending gpio edge' pin := by
  by_cases same : edge' = edge
  · rw [if_pos same, pending, same, State.assign_self]
  · rw [if_neg same, pending, State.assign_other _ _ (Edge.pending_injective.ne same), pending]

/-- The bits of a register after one of them is cleared. -/
theorem getLsbD_clear (register : BitVec 32) (pin pin' : Fin 32) :
    (register &&& ~~~(1#32 <<< pin.val)).getLsbD pin' =
      (register.getLsbD pin' && !decide (pin' = pin)) := by
  have inside := pin'.isLt
  rw [BitVec.getLsbD_and, BitVec.getLsbD_not, ← BitVec.twoPow_eq, BitVec.getLsbD_twoPow]
  simp [Fin.ext_iff, eq_comm]

theorem follows_observe (edge : Edge) (gpio : State) (pin : Fin 32) :
    Follows intGpioBase gpio (observe intGpioBase edge gpio pin).2
      (observe intGpioBase edge gpio pin).1 := by
  unfold observe
  split_ifs with enabled waiting
  · have set : pending gpio edge pin = true := by
      simpa [pending] using waiting
    refine ⟨⟨?_, trivial⟩, ?_⟩
    · rw [Expected, if_pos set]
    · funext edge' pin'
      by_cases here : edge' = edge ∧ pin' = pin
      · obtain ⟨rfl, rfl⟩ := here
        simp [Latch.afterAll, Latch.after, set]
      · simp [Latch.afterAll, Latch.after, here]
  · have unset : pending gpio edge pin = false := by
      simpa [pending] using waiting
    refine ⟨⟨?_, trivial⟩, ?_⟩
    · rw [Expected, unset, if_neg Bool.false_ne_true]
    · funext edge' pin'
      rw [pending_assign_pending]
      by_cases same : edge' = edge
      · rw [if_pos same, same, getLsbD_clear]
        simp [Latch.afterAll, Latch.after, pending, Bool.or_comm]
      · simp [Latch.afterAll, Latch.after, same]
  · exact .silent rfl

theorem follows_changePin (serverSnapshot : BitVec 64) (diff : BitVec 32) (gpio : State)
    (pin : Fin 32) :
    Follows intGpioBase gpio (changePin intGpioBase serverSnapshot diff gpio pin).2
      (changePin intGpioBase serverSnapshot diff gpio pin).1 := by
  unfold changePin
  split_ifs
  · exact follows_observe .rise gpio pin
  · exact follows_observe .fall gpio pin
  · exact .silent rfl

theorem follows_changePins (serverSnapshot : BitVec 64) (diff : BitVec 32) (gpio : State)
    (pins : List (Fin 32)) :
    Follows intGpioBase gpio (changePins intGpioBase serverSnapshot diff gpio pins).2
      (changePins intGpioBase serverSnapshot diff gpio pins).1 := by
  induction pins generalizing gpio with
  | nil => exact .silent rfl
  | cons pin pins inductionHypothesis =>
      exact (follows_changePin serverSnapshot diff gpio pin).trans (inductionHypothesis _)

theorem follows_takeOver (gpio : State) :
    Follows intGpioBase gpio (takeOver intGpioBase gpio).2 (takeOver intGpioBase gpio).1 := by
  have changed := @follows_changePins intGpioBase gpio.server (difference gpio) gpio
    (List.finRange 32)
  constructor
  · exact changed.latched
  · exact (pending_assign _ (by rintro (_ | _) <;> nofun)).trans changed.pending

theorem registers_asyncOnchange (gpio : State) (change : PinChange) :
    (asyncOnchange gpio change).registers = gpio.registers := by
  unfold asyncOnchange
  split
  · rfl
  · split <;> rfl

theorem pending_arrivals (gpio : State) (arriving : List PinChange) :
    pending (arriving.foldl asyncOnchange gpio) = pending gpio := by
  induction arriving generalizing gpio with
  | nil => rfl
  | cons change arriving inductionHypothesis =>
      rw [List.foldl_cons, inductionHypothesis]
      exact pending_congr fun edge => congrFun (registers_asyncOnchange gpio change) edge.pending

theorem follows_synchronousChange (gpio : State) (arrivals : List (List PinChange)) :
    Follows intGpioBase gpio (synchronousChange intGpioBase gpio arrivals).2
      (synchronousChange intGpioBase gpio arrivals).1 := by
  induction arrivals generalizing gpio with
  | nil =>
      rw [synchronousChange]
      split_ifs
      · exact .silent rfl
      · exact follows_takeOver gpio
  | cons arriving rest inductionHypothesis =>
      have taken := @follows_takeOver intGpioBase gpio
      have reached := taken.trans (.silent (pending_arrivals _ arriving))
      rw [List.append_nil] at reached
      rw [synchronousChange]
      split_ifs with same
      · exact .silent rfl
      · dsimp only
        split_ifs
        · exact reached.trans (inductionHypothesis _)
        · exact reached

/-! ## Acknowledgements -/

/-- A write of `mask` acknowledges the pins of the mask, and no other pin changes. -/
def AcknowledgesExactly (gpio : State) (edge : Edge) (mask : BitVec 32) : Prop :=
  ∀ pin : Fin 32, pending (registerAccessCallback gpio edge.pending mask) edge pin =
    (pending gpio edge pin && !mask.getLsbD pin)

/-- The pins outside of `mask` are pending already. -/
def OthersPending (gpio : State) (edge : Edge) (mask : BitVec 32) : Prop :=
  ∀ pin : Fin 32, mask.getLsbD pin = false → pending gpio edge pin = true

instance (gpio : State) (edge : Edge) (mask : BitVec 32) :
    Decidable (OthersPending gpio edge mask) :=
  inferInstanceAs (Decidable (∀ pin : Fin 32, mask.getLsbD pin = false →
    pending gpio edge pin = true))

theorem write_pending (gpio : State) (edge : Edge) (mask : BitVec 32) :
    registerAccessCallback gpio edge.pending mask = gpio.assign edge.pending mask := by
  cases edge <;> rfl

theorem acknowledgesExactly_iff (gpio : State) (edge : Edge) (mask : BitVec 32) :
    AcknowledgesExactly gpio edge mask ↔ OthersPending gpio edge mask := by
  refine forall_congr' fun pin => ?_
  rw [write_pending, pending_assign_pending, if_pos rfl]
  cases mask.getLsbD pin <;> cases pending gpio edge pin <;> decide

theorem follows_acknowledge {edge : Edge} {mask : BitVec 32}
    (others : OthersPending gpio edge mask) :
    Follows intGpioBase gpio [.acknowledge edge mask]
      (registerAccessCallback gpio edge.pending mask) := by
  refine ⟨⟨trivial, trivial⟩, ?_⟩
  funext edge' pin
  by_cases same : edge' = edge
  · subst same
    rw [(acknowledgesExactly_iff gpio edge' mask).mpr others pin]
    simp [Latch.afterAll, Latch.after, Bool.and_comm]
  · rw [write_pending, pending_assign_pending, if_neg same]
    simp [Latch.afterAll, Latch.after, same]

theorem keeps_eq_some {register : Register} {edge : Edge} (keeps : register.keeps = some edge) :
    register = edge.pending := by
  cases register <;> cases keeps <;> rfl

theorem ne_of_keeps_none {register : Register} (keeps : register.keeps = none) (edge : Edge) :
    edge.pending ≠ register := by
  rintro rfl
  cases edge <;> cases keeps

/-- A write to any other register. -/
theorem pending_write_other {register : Register} (other : ∀ edge : Edge, edge.pending ≠ register)
    (new : BitVec 32) : pending (registerAccessCallback gpio register new) = pending gpio := by
  have value (edge : Edge) : edge.pending ≠ .value := by cases edge <;> nofun
  cases register with
  | value => rfl
  | port | pullupEn =>
      exact pending_congr fun edge => (State.assign_other _ _ (value edge)).trans
        (State.assign_other _ _ (other edge))
  | _ => exact pending_assign new other

/-- What is asked of an action: an acknowledgement leaves out only pins that are pending. -/
def WellAcknowledged (gpio : State) : Action → Prop
  | .write register mask => ∀ edge ∈ register.keeps, OthersPending gpio edge mask
  | _ => True

instance (gpio : State) : ∀ action, Decidable (WellAcknowledged gpio action)
  | .write register mask =>
      inferInstanceAs (Decidable (∀ edge ∈ register.keeps, OthersPending gpio edge mask))
  | .asyncOnchange _ => .isTrue trivial
  | .synchronousChange _ => .isTrue trivial

/-! ## Runs -/

theorem follows_step {action : Action} (condition : WellAcknowledged gpio action)
    (taken : step intGpioBase gpio action = some (next, events)) :
    Follows intGpioBase gpio events next := by
  cases action with
  | write register new =>
      cases taken
      unfold writeEvents
      cases kept : register.keeps with
      | none => exact .silent (pending_write_other (ne_of_keeps_none kept) new)
      | some edge =>
          rw [keeps_eq_some kept]
          exact follows_acknowledge (condition edge kept)
  | asyncOnchange change =>
      cases taken
      exact .silent (pending_arrivals gpio [change])
  | synchronousChange arrivals =>
      have follows := @follows_synchronousChange intGpioBase gpio arrivals
      rwa [Option.some.inj taken] at follows

theorem follows_perform {actions : List Action}
    (meets : ActionRun.Meets (step intGpioBase) WellAcknowledged gpio actions)
    (ran : ActionRun.perform (step intGpioBase) gpio actions = some (last, events)) :
    Follows intGpioBase gpio events last := by
  have keeps {log events : List Event} {state next : State} {action : Action}
      (follows : Follows intGpioBase gpio log state) (condition : WellAcknowledged state action)
      (taken : step intGpioBase state action = some (next, events)) :
      Follows intGpioBase gpio (log ++ events) next :=
    follows.trans (follows_step condition taken)
  have start : Follows intGpioBase gpio [] gpio := .silent rfl
  exact ActionRun.perform_keeps keeps start meets ran

/-! ## What the guest relies on -/

variable (intGpioBase) in
/-- An enabled edge triggers the interrupt of its pin once if the pin is not pending, and a further
one triggers it again if and only if the pin was acknowledged in between. -/
structure TriggersOnce (gpio : State) (log : List Event) : Prop where
  first : ∀ before edge pin fired after, log = before ++ .edge edge pin fired :: after →
    fired = if (pending gpio).afterAll before edge pin = true then none
      else some (intGpioBase + pin.val)
  again : ∀ before edge pin fired between fired' after,
    log = before ++ .edge edge pin fired :: (between ++ .edge edge pin fired' :: after) →
    (∀ other, .edge edge pin other ∉ between) →
    (fired' = some (intGpioBase + pin.val) ↔ Acknowledged edge pin between)

theorem triggersOnce_of_follows (follows : Follows intGpioBase gpio events last) :
    TriggersOnce intGpioBase gpio events := by
  constructor
  · rintro before edge pin fired after rfl
    exact follows.latched.expected
  · rintro before edge pin fired between fired' after rfl quiet
    have latched := follows.latched
    rw [← List.cons_append, ← List.append_assoc] at latched
    have expected := latched.expected
    have waiting :
        (pending gpio).afterAll (before ++ .edge edge pin fired :: between) edge pin = true ↔
          ¬Acknowledged edge pin between := by
      rw [Latch.afterAll_append, Latch.afterAll, List.foldl_cons, ← Latch.afterAll,
        Latch.afterAll_of_quiet quiet]
      simp [Latch.after]
    rw [expected]
    by_cases acknowledged : Acknowledged edge pin between
    · rw [if_neg fun set => waiting.mp set acknowledged]
      exact iff_of_true rfl acknowledged
    · rw [if_pos (waiting.mpr acknowledged)]
      exact iff_of_false nofun acknowledged

/-- A pin rises three times, and everything is acknowledged before the third. -/
def session : List Action :=
  [.write .inputEn 1, .write .riseIntrEn 1, .asyncOnchange ⟨0, .high⟩, .synchronousChange [],
    .asyncOnchange ⟨0, .low⟩, .synchronousChange [[⟨0, .high⟩]],
    .write .riseIntrPending (BitVec.allOnes 32), .asyncOnchange ⟨0, .low⟩, .synchronousChange [],
    .asyncOnchange ⟨0, .high⟩, .synchronousChange []]

/-- The log of a run. -/
def shownBy (actions : List Action) : Option (List Event) :=
  (ActionRun.perform (step 8) initial actions).map Prod.snd

theorem perform_of_shownBy {actions : List Action} {log : List Event}
    (shown : shownBy actions = some log) :
    ∃ last, ActionRun.perform (step 8) initial actions = some (last, log) := by
  obtain ⟨⟨last, events⟩, ran, rfl⟩ := Option.map_eq_some_iff.mp shown
  exact ⟨last, ran⟩

/-- Pin 0 is acknowledged, and the first edge of pin 1 triggers nothing. -/
def lostEdge : List Action :=
  [.write .inputEn 3, .write .riseIntrEn 3, .write .riseIntrPending 1,
    .asyncOnchange ⟨1, .high⟩, .synchronousChange []]

end SymexVP.GPIO
