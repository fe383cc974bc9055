import SymexVP.Spi

/-!
# Bytes on their way through the SPI controller

Each target sees the bytes that were written to TXDATA while its pin was selected, and is
not touched by anything else. The answers of all targets go through the one queue in their
order; an answer gets lost exactly where sixteen others wait for the guest.
-/

namespace SymexVP.Spi

open ActionRun RoutedSystem

variable {interface : SpiInterface}

/-! ## Targets -/

/-- The byte a write of TXDATA hands over: the register was empty before. -/
def sentByte (address : Nat) (data : List Byte) : Byte :=
  (writeBytes 0 (address % 4) data).setWidth 8

/-- A write of TXDATA is for the selected target, and a write of CSID selects another one. -/
def router (interface : SpiInterface) :
    Router Pin Pin (Action interface) (Byte ⊕ interface.Input) where
  target csid
    | .write address data =>
        if find address = some .txdata then some (csid, .inl (sentByte address data)) else none
    | .other pin input => some (pin, .inr input)
    | .read _ _ => none
  next csid
    | .write address data =>
        if find address = some .csid then writeBytes csid (address % 4) data else csid
    | _ => csid

/-- A target by itself. -/
def exchange (target : interface.State) : Byte ⊕ interface.Input → Option (interface.State × List Byte)
  | .inl sent => (interface.write target sent).map fun (after, reply) => (after, [reply])
  | .inr input => (interface.receive target input).map fun after => (after, [])

def answered : Event → Option (Pin × Byte)
  | .exchanged pin _ reply => some (pin, reply)
  | _ => none

def view (interface : SpiInterface) :
    View Pin Pin (Byte ⊕ interface.Input) interface.State Byte (State interface) Event where
  routing := State.csid
  component := State.targets
  exchange := exchange
  answered := answered

/-- TXDATA is cleared behind every write. -/
def Cleared (spi : State interface) : Prop := spi.registers .txdata = 0

section Steps

variable {spi next : State interface} {events : List Event} {action : Action interface}

@[simp] theorem assign_self (spi : State interface) (register : Register) (value : BitVec 32) :
    (spi.assign register value).registers register = value := Function.update_self ..

theorem assign_of_ne {register other : Register} (different : other ≠ register)
    (spi : State interface) (value : BitVec 32) :
    (spi.assign register value).registers other = spi.registers other :=
  Function.update_of_ne different ..

/-! ## Steps -/

/-- The register behind a write. -/
def State.written (spi : State interface) (register : Register) (address : Nat) (data : List Byte) :
    BitVec 32 :=
  writeBytes (spi.registers register) (address % 4) data

/-- The controller behind a byte that a target has taken. -/
def State.sent (spi : State interface) (target : interface.State) (rxqueue : List Byte) :
    State interface :=
  let spi := { spi with
    rxqueue := rxqueue
    targets := Function.update spi.targets spi.csid (some target) }
  (if spi.marks then spi.assign .ip (spi.registers .ip ||| SPI_IP_TXWM) else spi).assign .txdata 0

/-- All that a step can do. -/
inductive Took (spi : State interface) : Action interface → State interface → List Event → Prop
  | read {address count : Nat} {register : Register} (found : find address = some register)
      (plain : register = .rxdata → spi.targets spi.csid = none) :
      Took spi (.read address count) spi
        [.read register (spi.registers register)
          (readBytes (spi.registers register) (address % 4) count)]
  | fetchNothing {address count : Nat} {target : interface.State}
      (found : find address = some .rxdata) (selected : spi.targets spi.csid = some target)
      (empty : spi.rxqueue = []) :
      Took spi (.read address count) (spi.assign .rxdata (1 <<< 31))
        [.read .rxdata (1 <<< 31) (readBytes (1 <<< 31) (address % 4) count)]
  | fetch {address count : Nat} {target : interface.State} {reply : Byte} {rest : List Byte}
      (found : find address = some .rxdata) (selected : spi.targets spi.csid = some target)
      (waiting : spi.rxqueue = reply :: rest) :
      Took spi (.read address count) { spi.assign .rxdata (reply.setWidth 32) with rxqueue := rest }
        [.popped reply, .read .rxdata (reply.setWidth 32)
          (readBytes (reply.setWidth 32) (address % 4) count)]
  | write {address : Nat} {data : List Byte} {register : Register}
      (found : find address = some register) (other : register ≠ .txdata) :
      Took spi (.write address data) (spi.assign register (spi.written register address data)) []
  | sendNothing {address : Nat} {data : List Byte} (found : find address = some .txdata)
      (unselected : spi.targets spi.csid = none) :
      Took spi (.write address data) (spi.assign .txdata 0) []
  | send {address : Nat} {data : List Byte} {target after : interface.State} {reply : Byte}
      (found : find address = some .txdata) (selected : spi.targets spi.csid = some target)
      (taken : interface.write target ((spi.written .txdata address data).setWidth 8) =
        some (after, reply)) :
      Took spi (.write address data)
        ((spi.assign .txdata (spi.written .txdata address data)).sent after
          (enqueue spi.rxqueue reply).1)
        (.exchanged spi.csid ((spi.written .txdata address data).setWidth 8) reply ::
          (enqueue spi.rxqueue reply).2)
  | other {pin : Pin} {input : interface.Input} {target after : interface.State}
      (present : spi.targets pin = some target) (received : interface.receive target input = some after) :
      Took spi (.other pin input)
        { spi with targets := Function.update spi.targets pin (some after) } []

theorem took_readAccess {address count : Nat} {register : Register}
    (found : find address = some register) :
    Took spi (.read address count) (readAccess spi register (address % 4) count).1
      (readAccess spi register (address % 4) count).2 := by
  unfold readAccess
  by_cases rxdata : register = .rxdata
  · subst rxdata
    rw [if_pos rfl]
    unfold Spi.fetch
    cases selected : spi.targets spi.csid with
    | none => exact .read found fun _ => selected
    | some target =>
        cases waiting : spi.rxqueue with
        | nil =>
            simp only [assign_self]
            exact .fetchNothing found selected waiting
        | cons reply rest =>
            have value : (spi.assign .rxdata (reply.setWidth 32)).registers .rxdata =
                reply.setWidth 32 := assign_self ..
            dsimp only
            rw [value]
            exact .fetch found selected waiting
  · rw [if_neg rxdata]
    exact .read found fun same => absurd same rxdata

theorem assign_assign (spi : State interface) (register : Register) (first second : BitVec 32) :
    (spi.assign register first).assign register second = spi.assign register second := by
  simp only [State.assign, Function.update_idem]

theorem csid_assign_txdata (spi : State interface) (value : BitVec 32) :
    (spi.assign .txdata value).csid = spi.csid := assign_of_ne (by decide) ..

theorem took_send {address : Nat} {data : List Byte} (found : find address = some .txdata)
    (sent : Spi.send (spi.assign .txdata (spi.written .txdata address data)) = some (next, events)) :
    Took spi (.write address data) next events := by
  unfold Spi.send at sent
  dsimp only at sent
  rw [csid_assign_txdata] at sent
  cases selected : (spi.assign .txdata (spi.written .txdata address data)).targets spi.csid with
  | none =>
      rw [selected] at sent
      cases sent
      rw [assign_assign]
      exact .sendNothing found selected
  | some target =>
      rw [selected] at sent
      dsimp only at sent
      rw [assign_self] at sent
      obtain ⟨⟨after, reply⟩, taken, sent⟩ := Option.bind_eq_some_iff.mp sent
      cases sent
      have took := @Took.send _ spi _ _ _ _ _ found selected taken
      simp only [State.sent, csid_assign_txdata] at took
      exact took

theorem took_writeAccess {address : Nat} {data : List Byte} {register : Register}
    (found : find address = some register)
    (written : writeAccess spi register (address % 4) data = some (next, events)) :
    Took spi (.write address data) next events := by
  unfold writeAccess at written
  by_cases txdata : register = .txdata
  · subst txdata
    rw [if_pos rfl] at written
    exact took_send found written
  · rw [if_neg txdata] at written
    cases written
    exact .write found txdata

/-- A step does one of these things. -/
theorem took_of_step (taken : step spi action = some (next, events)) : Took spi action next events := by
  cases action with
  | read address count =>
      cases found : find address with
      | none => simp [step, found] at taken
      | some register =>
          simp only [step, found] at taken
          split_ifs at taken
          have access := @took_readAccess _ spi _ count _ found
          rwa [Option.some.inj taken] at access
  | write address data =>
      cases found : find address with
      | none => simp [step, found] at taken
      | some register =>
          simp only [step, found] at taken
          split_ifs at taken
          exact took_writeAccess found taken
  | other pin input =>
      obtain ⟨target, present, taken⟩ := Option.bind_eq_some_iff.mp taken
      obtain ⟨after, received, taken⟩ := Option.bind_eq_some_iff.mp taken
      cases taken
      exact .other present received

/-! ## What a byte changes -/

theorem targets_sent (spi : State interface) (target : interface.State) (rxqueue : List Byte) :
    (spi.sent target rxqueue).targets = Function.update spi.targets spi.csid (some target) := by
  unfold State.sent
  dsimp only
  split_ifs <;> rfl

theorem rxqueue_sent (spi : State interface) (target : interface.State) (rxqueue : List Byte) :
    (spi.sent target rxqueue).rxqueue = rxqueue := by
  unfold State.sent
  dsimp only
  split_ifs <;> rfl

theorem csid_sent (spi : State interface) (target : interface.State) (rxqueue : List Byte) :
    (spi.sent target rxqueue).csid = spi.csid := by
  unfold State.sent
  dsimp only
  rw [csid_assign_txdata]
  split_ifs
  · exact assign_of_ne (by decide) ..
  · rfl

theorem cleared_sent (spi : State interface) (target : interface.State) (rxqueue : List Byte) :
    Cleared (spi.sent target rxqueue) := assign_self ..

theorem txdata_ne_rxdata : Register.txdata ≠ .rxdata := by decide

theorem csid_ne_rxdata : Register.csid ≠ .rxdata := by decide

theorem cleared_of_took (cleared : Cleared spi) (took : Took spi action next events) :
    Cleared next := by
  cases took with
  | read => exact cleared
  | fetchNothing => exact (assign_of_ne txdata_ne_rxdata ..).trans cleared
  | @fetch _ _ _ reply =>
      exact (assign_of_ne txdata_ne_rxdata spi (reply.setWidth 32)).trans cleared
  | write found other => exact (assign_of_ne (Ne.symm other) ..).trans cleared
  | sendNothing => exact assign_self ..
  | send => exact cleared_sent ..
  | other => exact cleared

/-! ## Targets by themselves -/

theorem answersOf_enqueue (pin : Pin) (rxqueue : List Byte) (reply : Byte) :
    answersOf answered pin (enqueue rxqueue reply).2 = [] := by
  unfold enqueue
  split
  · rfl
  · split_ifs <;> rfl

/-- A step that is for no target, and leaves them all. -/
theorem passes_nothing (meant : (router interface).target spi.csid action = none)
    (routing : next.csid = (router interface).next spi.csid action)
    (same : next.targets = spi.targets)
    (silent : ∀ pin, answersOf answered pin events = []) :
    Passes (router interface) (view interface) spi action next events where
  routing := routing
  idle pin _ := ⟨congrFun same pin, silent pin⟩
  served pin input target goal _ := by
    have impossible := meant.symm.trans goal
    cases impossible

/-- A step that is for a pin without a target. -/
theorem passes_absent {pin : Pin} {input : Byte ⊕ interface.Input}
    (meant : (router interface).target spi.csid action = some (pin, input))
    (routing : next.csid = (router interface).next spi.csid action) (absent : spi.targets pin = none)
    (same : next.targets = spi.targets) (silent : ∀ other, answersOf answered other events = []) :
    Passes (router interface) (view interface) spi action next events where
  routing := routing
  idle other _ := ⟨congrFun same other, silent other⟩
  served other received target goal present := by
    cases meant.symm.trans goal
    have impossible := absent.symm.trans present
    cases impossible

/-- A step that is for one target. -/
theorem passes_input {pin : Pin} {input : Byte ⊕ interface.Input} {target after : interface.State}
    {answers : List Byte} (meant : (router interface).target spi.csid action = some (pin, input))
    (routing : next.csid = (router interface).next spi.csid action)
    (present : spi.targets pin = some target) (exchanged : exchange target input = some (after, answers))
    (updated : next.targets = Function.update spi.targets pin (some after))
    (shown : ∀ other, answersOf answered other events = if pin = other then answers else []) :
    Passes (router interface) (view interface) spi action next events where
  routing := routing
  idle other apart := by
    have different : pin ≠ other := by
      rintro rfl
      exact apart input meant
    refine ⟨?_, ?_⟩
    · exact (congrFun updated other).trans (Function.update_of_ne (Ne.symm different) ..)
    · exact (shown other).trans (if_neg different)
  served other received component goal found := by
    cases meant.symm.trans goal
    cases present.symm.trans found
    refine ⟨after, answers, exchanged, ?_, (shown pin).trans (if_pos rfl)⟩
    exact (congrFun updated pin).trans (Function.update_self ..)

theorem passes_of_took (cleared : Cleared spi) (took : Took spi action next events) :
    Passes (router interface) (view interface) spi action next events := by
  cases took with
  | read => exact passes_nothing rfl rfl rfl fun _ => rfl
  | fetchNothing => exact passes_nothing rfl (assign_of_ne csid_ne_rxdata ..) rfl fun _ => rfl
  | @fetch _ _ _ reply =>
      have kept := assign_of_ne csid_ne_rxdata spi (reply.setWidth 32)
      exact passes_nothing rfl kept rfl fun _ => rfl
  | @write address data register found other =>
      refine passes_nothing ?_ ?_ rfl fun _ => rfl
      · exact if_neg fun same => other (Option.some.inj (found.symm.trans same))
      · dsimp only [router]
        by_cases csid : register = .csid
        · subst csid
          rw [if_pos found]
          exact assign_self ..
        · rw [if_neg fun same => csid (Option.some.inj (found.symm.trans same))]
          exact assign_of_ne (Ne.symm csid) ..
  | @sendNothing address data found unselected =>
      refine passes_absent (if_pos found) ?_ unselected rfl fun _ => rfl
      dsimp only [router]
      rw [found, if_neg (by decide), csid_assign_txdata]
  | @send address data target after reply found selected taken =>
      have byte : (spi.written .txdata address data).setWidth 8 = sentByte address data := by
        rw [State.written, show spi.registers .txdata = 0 from cleared]
        rfl
      refine @passes_input _ _ _ _ _ spi.csid (.inl (sentByte address data)) target after [reply] ?_
        ?_ selected ?_ ?_ ?_
      · exact if_pos found
      · dsimp only [router]
        rw [found, if_neg (by decide), csid_sent, csid_assign_txdata]
      · rw [exchange, ← byte, taken]
        rfl
      · rw [targets_sent, csid_assign_txdata]
        rfl
      · intro other
        rw [← List.singleton_append, answersOf_append, answersOf_enqueue, List.append_nil]
        by_cases same : spi.csid = other
        · simp [answersOf, answered, same]
        · simp [answersOf, answered, same]
  | @other pin input target after present received =>
      refine @passes_input _ _ _ _ _ pin (.inr input) target after [] rfl rfl present ?_ rfl ?_
      · rw [exchange, received]
        rfl
      · intro other
        exact (ite_self []).symm

end Steps

/-- A controller with targets at some pins, as a platform puts it together. -/
def assembled (connections : List (Pin × interface.State)) : State interface :=
  connections.foldl (fun spi (pin, target) => connect spi pin target) (initial interface)

theorem connect_frame (spi : State interface) (pin : Pin) (target : interface.State) :
    (connect spi pin target).registers = spi.registers ∧
      (connect spi pin target).rxqueue = spi.rxqueue := by
  unfold connect
  split_ifs
  · exact ⟨rfl, rfl⟩
  · split <;> exact ⟨rfl, rfl⟩

theorem assembled_frame (connections : List (Pin × interface.State)) :
    (assembled connections).registers = (initial interface).registers ∧
      (assembled connections).rxqueue = [] := by
  unfold assembled
  induction connections using List.reverseRecOn with
  | nil => exact ⟨rfl, rfl⟩
  | append_singleton connections connection inductionHypothesis =>
      obtain ⟨registers, rxqueue⟩ := inductionHypothesis
      have frame := connect_frame (connections.foldl (fun spi (pin, target) =>
        connect spi pin target) (initial interface)) connection.1 connection.2
      rw [List.foldl_append]
      exact ⟨frame.1.trans registers, frame.2.trans rxqueue⟩

theorem cleared_assembled (connections : List (Pin × interface.State)) :
    Cleared (assembled connections) :=
  congrFun (assembled_frame connections).1 .txdata

theorem serve_target {spi last : State interface} {actions : List (Action interface)}
    {log : List Event} {pin : Pin} {target : interface.State} (cleared : Cleared spi)
    (ran : perform step spi actions = some (last, log)) (present : spi.targets pin = some target) :
    ∃ after, last.targets pin = some after ∧
      serve exchange target ((router interface).inputs pin spi.csid actions) =
        some (after, answersOf answered pin log) := by
  have component : (view interface).component spi pin = some target := present
  exact serve_of_perform (fun cleared taken => cleared_of_took cleared (took_of_step taken))
    (fun cleared taken => passes_of_took cleared (took_of_step taken)) cleared ran component

/-- Whatever the guest does, a target is where the bytes written to TXDATA under its pin and its
own inputs bring it, one after the other, and these bytes were answered by nothing else. -/
theorem target_takes_its_bytes (interface : SpiInterface)
    (connections : List (Pin × interface.State)) (actions : List (Action interface))
    (last : State interface) (log : List Event)
    (ran : perform step (assembled connections) actions = some (last, log)) (pin : Pin)
    (target : interface.State) (present : (assembled connections).targets pin = some target) :
    ∃ after, last.targets pin = some after ∧
      serve exchange target ((router interface).inputs pin 0 actions) =
        some (after, answersOf answered pin log) := by
  have selected : (assembled connections).csid = 0 :=
    congrFun (assembled_frame connections).1 .csid
  have served := serve_target (cleared_assembled connections) ran present
  rwa [selected] at served

/-- A target that answers a byte with the one before it. -/
def shiftRegister : SpiInterface where
  State := Byte
  Input := Empty
  write held byte := some (byte, held)
  receive _ := Empty.elim

/-- Two shift registers and a guest that goes to and fro between them. -/
def alternating : List (Action shiftRegister) :=
  [.write 0x48 [0x11], .write 0x10 [2, 0, 0, 0], .write 0x48 [0x22], .write 0x10 [0, 0, 0, 0],
    .write 0x48 [0x33], .read 0x4C 4]

def twoRegisters : List (Pin × shiftRegister.State) := [(0, (0xaa : Byte)), (2, (0xbb : Byte))]

theorem target_takes_its_bytes_alternating :
    ∃ last log after, perform step (assembled twoRegisters) alternating = some (last, log) ∧
      last.targets 0 = some after ∧
      serve exchange (0xaa : Byte) ((router shiftRegister).inputs 0 0 alternating) =
        some (after, answersOf answered 0 log) := by
  have enabled : (perform step (assembled twoRegisters) alternating).isSome = true := by
    decide +kernel
  obtain ⟨⟨last, log⟩, ran⟩ := Option.isSome_iff_exists.mp enabled
  obtain ⟨after, found, served⟩ := target_takes_its_bytes shiftRegister twoRegisters alternating
    last log ran 0 (0xaa : Byte) rfl
  exact ⟨last, log, after, ran, found, served⟩

/-! ## The queue -/

/-- The answers that went into the queue. -/
def repliesOf (log : List Event) : List Byte :=
  log.filterMap fun
    | .exchanged _ _ reply => some reply
    | _ => none

/-- The answers that left the queue. -/
def removedIn (log : List Event) : List Byte :=
  log.filterMap fun
    | .dropped reply | .popped reply => some reply
    | _ => none

/-- The answers that left it for the guest. -/
def poppedIn (log : List Event) : List Byte :=
  log.filterMap fun
    | .popped reply => some reply
    | _ => none

/-- The bytes the guest finds in RXDATA; the highest bit tells that there is none. -/
def receivedIn (log : List Event) : List Byte :=
  log.filterMap fun
    | .read .rxdata value _ => if value.getLsbD 31 then none else some (value.setWidth 8)
    | _ => none

/-- A byte is handed to a target only where the queue has a place for the answer. -/
def HasRoom (spi : State interface) : Action interface → Prop
  | .write address _ =>
      find address = some .txdata → (spi.targets spi.csid).isSome = true →
        spi.rxqueue.length < queueSize
  | _ => True

/-- RXDATA is read only while a target is selected. -/
def ReadsSelected (spi : State interface) : Action interface → Prop
  | .read address _ => find address = some .rxdata → (spi.targets spi.csid).isSome = true
  | _ => True

instance (spi : State interface) : (action : Action interface) → Decidable (HasRoom spi action)
  | .write _ _ => inferInstanceAs (Decidable (_ → _ → _))
  | .read _ _ | .other _ _ => isTrue trivial

instance (spi : State interface) : (action : Action interface) → Decidable (ReadsSelected spi action)
  | .read _ _ => inferInstanceAs (Decidable (_ → _))
  | .write _ _ | .other _ _ => isTrue trivial

theorem enqueue_spec (rxqueue : List Byte) (reply : Byte) :
    (rxqueue.length < queueSize ∧ enqueue rxqueue reply = (rxqueue ++ [reply], [])) ∨
      (queueSize ≤ rxqueue.length ∧ ∃ oldest rest, rxqueue ++ [reply] = oldest :: rest ∧
        enqueue rxqueue reply = (rest, [.dropped oldest])) := by
  unfold enqueue
  cases appended : rxqueue ++ [reply] with
  | nil => simp at appended
  | cons oldest rest =>
      have length : (oldest :: rest).length = rxqueue.length + 1 := by simp [← appended]
      dsimp only
      rw [length]
      by_cases full : queueSize < rxqueue.length + 1
      · rw [if_pos full]
        exact .inr ⟨Nat.lt_succ_iff.mp full, oldest, rest, rfl, rfl⟩
      · rw [if_neg full]
        exact .inl ⟨Nat.lt_of_succ_le (Nat.not_lt.mp full), rfl⟩

/-- What a step puts into the queue and takes out of it. -/
structure Queues (spi next : State interface) (events : List Event) : Prop where
  bounded : spi.rxqueue.length ≤ queueSize → next.rxqueue.length ≤ queueSize
  ordered : spi.rxqueue ++ repliesOf events = removedIn events ++ next.rxqueue

section Queue

variable {spi next : State interface} {events : List Event} {action : Action interface}

theorem queues_of_took (took : Took spi action next events) : Queues spi next events := by
  cases took with
  | read => exact ⟨id, List.append_nil _⟩
  | fetchNothing => exact ⟨id, List.append_nil _⟩
  | fetch found selected waiting =>
      refine ⟨fun bound => ?_, ?_⟩
      · rw [waiting, List.length_cons] at bound
        exact Nat.le_of_succ_le bound
      · rw [waiting]
        exact List.append_nil _
  | write => exact ⟨id, List.append_nil _⟩
  | sendNothing => exact ⟨id, List.append_nil _⟩
  | @send address data target after reply found selected taken =>
      obtain ⟨room, queued⟩ | ⟨full, oldest, rest, appended, queued⟩ := enqueue_spec spi.rxqueue reply
      · rw [queued]
        refine ⟨fun _ => ?_, ?_⟩
        · rw [rxqueue_sent, List.length_append]
          exact room
        · rw [rxqueue_sent]
          rfl
      · rw [queued]
        refine ⟨fun bound => ?_, ?_⟩
        · have length := congrArg List.length appended
          simp only [List.length_append, List.length_cons, List.length_nil] at length
          rw [rxqueue_sent]
          dsimp only
          omega
        · rw [rxqueue_sent]
          exact appended
  | other => exact ⟨id, List.append_nil _⟩

theorem not_dropped_iff (took : Took spi action next events) :
    (∀ reply, .dropped reply ∉ events) ↔ HasRoom spi action := by
  cases took with
  | read => exact iff_of_true (by simp) trivial
  | fetchNothing => exact iff_of_true (by simp) trivial
  | fetch => exact iff_of_true (by simp) trivial
  | write found other =>
      exact iff_of_true (by simp) fun same => absurd (Option.some.inj (found.symm.trans same)) other
  | sendNothing found unselected =>
      refine iff_of_true (by simp) fun _ selected => ?_
      rw [unselected] at selected
      cases selected
  | @send address data target after reply found selected taken =>
      have asked : HasRoom spi (.write address data) ↔ spi.rxqueue.length < queueSize := by
        have isSome : (spi.targets spi.csid).isSome = true := Option.isSome_of_eq_some selected
        exact ⟨fun room => room found isSome, fun room _ _ => room⟩
      rw [asked]
      obtain ⟨room, queued⟩ | ⟨full, oldest, rest, appended, queued⟩ := enqueue_spec spi.rxqueue reply
      · rw [queued]
        exact iff_of_true (by simp) room
      · rw [queued]
        refine iff_of_false (fun kept => kept oldest ?_) (Nat.not_lt.mpr full)
        exact List.mem_cons_of_mem _ (List.mem_singleton_self _)
  | other => exact iff_of_true (by simp) trivial

/-- An answer has bits for one byte, so that the highest bit of the register tells the two apart. -/
theorem received_reply (reply : Byte) :
    (reply.setWidth 32).getLsbD 31 = false ∧ (reply.setWidth 32).setWidth 8 = reply := by
  constructor
  · simp
  · simp

theorem received_of_took (took : Took spi action next events) (selects : ReadsSelected spi action) :
    receivedIn events = poppedIn events := by
  cases took with
  | @read address count register found plain =>
      by_cases rxdata : register = .rxdata
      · subst rxdata
        have selected := selects found
        rw [plain rfl] at selected
        cases selected
      · cases register with
        | rxdata => exact absurd rfl rxdata
        | _ => rfl
  | fetchNothing => rfl
  | @fetch _ _ _ reply =>
      obtain ⟨flag, byte⟩ := received_reply reply
      simp only [receivedIn, poppedIn, List.filterMap_cons, List.filterMap_nil, flag, byte]
      rfl
  | write => rfl
  | sendNothing => rfl
  | @send address data target after reply found selected taken =>
      obtain ⟨room, queued⟩ | ⟨full, oldest, rest, appended, queued⟩ := enqueue_spec spi.rxqueue reply
      · rw [queued]
        rfl
      · rw [queued]
        rfl
  | other => rfl

end Queue

/-! ## Runs -/

/-- What becomes of the answers: at most sixteen wait, they leave the queue in the order they
entered it, and none gives way to another one exactly if there was room for every one of them.
Where RXDATA is read under a selected target, the guest receives those that did not give way. -/
structure Delivers (start : State interface) (actions : List (Action interface))
    (last : State interface) (log : List Event) : Prop where
  bounded : last.rxqueue.length ≤ queueSize
  ordered : start.rxqueue ++ repliesOf log = removedIn log ++ last.rxqueue
  lossless : (∀ reply, .dropped reply ∉ log) ↔ Meets step HasRoom start actions
  received : Meets step ReadsSelected start actions → receivedIn log = poppedIn log

theorem delivers_of_perform {start last : State interface} {actions : List (Action interface)}
    {log : List Event} (bound : start.rxqueue.length ≤ queueSize)
    (ran : perform step start actions = some (last, log)) : Delivers start actions last log := by
  induction actions generalizing start log with
  | nil =>
      cases ran
      exact ⟨bound, List.append_nil _, iff_of_true nofun trivial, fun _ => rfl⟩
  | cons action rest inductionHypothesis =>
      obtain ⟨middle, events, more, taken, continued, rfl⟩ := perform_cons ran
      have took := took_of_step taken
      have queues := queues_of_took took
      have later := inductionHypothesis (queues.bounded bound) continued
      refine ⟨later.bounded, ?_, ?_, ?_⟩
      · calc
          start.rxqueue ++ repliesOf (events ++ more) =
              start.rxqueue ++ repliesOf events ++ repliesOf more := by
            rw [repliesOf, List.filterMap_append, ← repliesOf, ← repliesOf, List.append_assoc]
          _ = removedIn events ++ (middle.rxqueue ++ repliesOf more) := by
            rw [queues.ordered, List.append_assoc]
          _ = removedIn (events ++ more) ++ last.rxqueue := by
            rw [later.ordered, removedIn, removedIn, removedIn, List.filterMap_append,
              List.append_assoc]
      · rw [meets_cons taken, ← not_dropped_iff took, ← later.lossless]
        simp only [List.mem_append, not_or, forall_and]
      · rw [meets_cons taken]
        rintro ⟨now, afterwards⟩
        rw [receivedIn, poppedIn, List.filterMap_append, List.filterMap_append]
        exact congrArg₂ _ (received_of_took took now) (later.received afterwards)

end SymexVP.Spi
