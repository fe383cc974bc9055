import SymexVP.UartQueues

/-!
# Lines on the serial port

A subclass of `AbstractUART` says where the bytes of the port come from and where they go.
`handle_input` reads from the outside and calls `rxpush` for each byte it makes of that, one after
the other, and each call may block while the guest is slow. `write_data` takes the bytes of the
guest one by one, on another thread.

Whatever the subclass, the guest reads the bytes that `handle_input` makes, and `write_data` gets
those that the guest has written.
-/

namespace SymexVP.SerialLine

open ActionRun
open AbstractUart (Byte)

/-! ## The line -/

/-- What a subclass adds: the states of its receiving and of its sending side, and what the two
functions do to them. `handle_input` may end the simulator. -/
structure Subclass (ι : Type) where
  Input : Type
  Output : Type
  opened : Input
  created : Output
  handleInput : Input → ι → Option (Input × List Byte)
  writeData : Output → Byte → Output

variable {ι : Type}

structure Line (port : Subclass ι) where
  uart : AbstractUart.State
  input : port.Input
  /-- What `handle_input` has not handed to `rxpush` yet. -/
  pending : List Byte
  output : port.Output
  exited : Bool

def Line.initial (port : Subclass ι) : Line port := ⟨.initial, port.opened, [], port.created, false⟩

inductive Action (ι : Type)
  /-- `receive` calls `handle_input`, which reads. -/
  | input (data : ι)
  /-- `handle_input` calls `rxpush`, which is granted a place. -/
  | push
  /-- What is left of `rxpush`, and what the other threads do. -/
  | uart (action : AbstractUart.Action)

inductive Event (ι : Type)
  | entered (data : ι)
  /-- `exit` in `handle_input`. -/
  | exited (data : ι)
  | uart (event : AbstractUart.Event)

/-- The transmit thread calls `write_data`. -/
def Subclass.afterEvent (port : Subclass ι) (output : port.Output) : AbstractUart.Event → port.Output
  | .written data => port.writeData output data
  | _ => output

variable {port : Subclass ι}

def Line.advance (line : Line port) (action : AbstractUart.Action) :
    Option (Line port × List (Event ι)) := do
  let (uart, events) ← AbstractUart.step line.uart action
  some ({ line with uart := uart, output := events.foldl port.afterEvent line.output },
    events.map .uart)

def step (line : Line port) (action : Action ι) : Option (Line port × List (Event ι)) :=
  if line.exited then none
  else match action with
    | .input data =>
        if line.uart.receiver = .idle ∧ line.pending = [] then
          match port.handleInput line.input data with
          | none => some ({ line with exited := true }, [.exited data])
          | some (input, bytes) =>
              some ({ line with input := input, pending := bytes }, [.entered data])
        else none
    | .push =>
        match line.pending with
        | [] => none
        | byte :: rest => Line.advance { line with pending := rest } (.swaitRxempty byte)
    | .uart (.swaitRxempty _) => none
    | .uart action => line.advance action

/-! ## What has been entered and what comes out -/

/-- What `handle_input` has read. -/
def entered (log : List (Event ι)) : List ι :=
  log.filterMap fun
    | .entered data => some data
    | _ => none

def exits (log : List (Event ι)) : List ι :=
  log.filterMap fun
    | .exited data => some data
    | _ => none

def uartLog (log : List (Event ι)) : List AbstractUart.Event :=
  log.filterMap fun
    | .uart event => some event
    | _ => none

/-- The bytes that the guest has read. -/
def received (log : List (Event ι)) : List Byte := AbstractUart.received (uartLog log)

/-- The bytes that the guest has written and the port has accepted. -/
def accepted (log : List (Event ι)) : List Byte := AbstractUart.acceptedTx (uartLog log)

/-- The byte for which `rxpush` has a place. -/
def carried : AbstractUart.Receiver → List Byte
  | .granted data => [data]
  | _ => []

/-- The bytes on their way to the guest. -/
def Line.incoming (line : Line port) : List Byte :=
  line.uart.carriedRx ++ line.uart.rxFifo ++ carried line.uart.receiver ++ line.pending

/-- The bytes on their way to `write_data`. -/
def Line.outgoing (line : Line port) : List Byte :=
  line.uart.transmitter.carried ++ line.uart.txFifo

/-- `handle_input` for one thing after the other: the state it is left in and the bytes it makes. -/
def Subclass.feed (port : Subclass ι) : port.Input → List ι → Option (port.Input × List Byte)
  | input, [] => some (input, [])
  | input, data :: rest => do
      let (middle, bytes) ← port.handleInput input data
      let (last, more) ← port.feed middle rest
      some (last, bytes ++ more)

theorem Subclass.feed_append (port : Subclass ι) (input : port.Input) (data more : List ι) :
    port.feed input (data ++ more) = (port.feed input data).bind fun (middle, bytes) =>
      (port.feed middle more).map fun (last, others) => (last, bytes ++ others) := by
  induction data generalizing input with
  | nil => simp [Subclass.feed]
  | cons first rest inductionHypothesis =>
      simp only [List.cons_append, Subclass.feed]
      cases port.handleInput input first with
      | none => rfl
      | some next =>
          simp only [Option.bind_eq_bind, Option.bind_some, inductionHypothesis]
          cases port.feed next.1 rest with
          | none => rfl
          | some reached =>
              simp only [Option.bind_some, Option.bind_map, Function.comp_def]
              cases port.feed reached.1 more with
              | none => rfl
              | some last => simp

/-- One thing more. -/
theorem Subclass.feed_concat (port : Subclass ι) (input : port.Input) (data : List ι) (last : ι) :
    port.feed input (data ++ [last]) = (port.feed input data).bind fun (middle, bytes) =>
      (port.handleInput middle last).map fun (next, more) => (next, bytes ++ more) := by
  rw [Subclass.feed_append]
  congr 1
  funext ⟨middle, bytes⟩
  simp only [Subclass.feed]
  cases port.handleInput middle last with
  | none => rfl
  | some next => simp

section Logs

variable (log more : List (Event ι))

theorem entered_append : entered (log ++ more) = entered log ++ entered more :=
  List.filterMap_append

theorem exits_append : exits (log ++ more) = exits log ++ exits more := List.filterMap_append

theorem uartLog_append : uartLog (log ++ more) = uartLog log ++ uartLog more :=
  List.filterMap_append

theorem entered_uart (events : List AbstractUart.Event) :
    entered (events.map (.uart : _ → Event ι)) = [] := by
  rw [entered, List.filterMap_map]
  exact List.filterMap_eq_nil_iff.mpr fun _ _ => rfl

theorem exits_uart (events : List AbstractUart.Event) :
    exits (events.map (.uart : _ → Event ι)) = [] := by
  rw [exits, List.filterMap_map]
  exact List.filterMap_eq_nil_iff.mpr fun _ _ => rfl

theorem uartLog_uart (events : List AbstractUart.Event) :
    uartLog (events.map (.uart : _ → Event ι)) = events := by
  rw [uartLog, List.filterMap_map]
  exact List.filterMap_some

end Logs

/-! ## The queues below -/

/-- The byte an action hands to `rxpush`. -/
def handed : AbstractUart.Action → List Byte
  | .swaitRxempty data => [data]
  | _ => []

/-- No access of the guest and nothing behind one pushes a byte. -/
theorem pushedRx_readAccess (uart : AbstractUart.State) (register : SymbolicUart.Register)
    (offset count : Nat) :
    AbstractUart.pushedRx (AbstractUart.readAccess uart register offset count).2 = [] ∧
      (AbstractUart.readAccess uart register offset count).1.receiver = uart.receiver := by
  cases register with
  | rxdata =>
      unfold AbstractUart.readAccess
      cases uart.rxFifo with
      | nil => exact ⟨rfl, rfl⟩
      | cons byte rest => exact ⟨rfl, rfl⟩
  | _ => exact ⟨rfl, rfl⟩

theorem pushedRx_writeAccess (uart : AbstractUart.State) (register : SymbolicUart.Register)
    (offset : Nat) (data : List Byte) :
    AbstractUart.pushedRx (AbstractUart.writeAccess uart register offset data).2 = [] ∧
      (AbstractUart.writeAccess uart register offset data).1.receiver = uart.receiver := by
  simp only [AbstractUart.writeAccess]
  split_ifs <;> exact ⟨rfl, rfl⟩

theorem pushedRx_resume {uart next : AbstractUart.State} {events : List AbstractUart.Event}
    (taken : AbstractUart.resume uart = some (next, events)) :
    AbstractUart.pushedRx events = [] ∧ next.receiver = uart.receiver := by
  unfold AbstractUart.resume at taken
  split at taken
  · cases taken
  · cases taken
    exact ⟨rfl, rfl⟩
  · cases taken
    exact ⟨rfl, rfl⟩
  · cases taken
    exact ⟨rfl, rfl⟩
  · simp only [Option.some.injEq, Prod.mk.injEq] at taken
    obtain ⟨rfl, rfl⟩ := taken
    refine ⟨?_, rfl⟩
    split_ifs <;> rfl

/-- What has been handed to `rxpush` is pushed next. -/
theorem carried_step {uart next : AbstractUart.State} {action : AbstractUart.Action}
    {events : List AbstractUart.Event}
    (taken : AbstractUart.step uart action = some (next, events)) :
    carried uart.receiver ++ handed action =
      AbstractUart.pushedRx events ++ carried next.receiver := by
  have quiet : AbstractUart.pushedRx events = [] ∧ next.receiver = uart.receiver →
      carried uart.receiver ++ [] = AbstractUart.pushedRx events ++ carried next.receiver := by
    rintro ⟨none, same⟩
    rw [none, same, List.append_nil, List.nil_append]
  cases action with
  | swaitRxempty data =>
      simp only [AbstractUart.step] at taken
      split at taken
      case h_1 count idle free =>
        cases taken
        rw [idle]
        rfl
      case h_2 => cases taken
  | pushRx =>
      simp only [AbstractUart.step] at taken
      split at taken
      case h_1 data granted =>
        cases taken
        rw [granted]
        rfl
      case h_2 => cases taken
  | notifyRx =>
      obtain ⟨pushed, rest⟩ := Option.ite_none_right_eq_some.mp taken
      cases rest
      rw [pushed]
      rfl
  | swaitTxfull =>
      simp only [AbstractUart.step] at taken
      split at taken
      case h_1 count waiting items =>
        cases taken
        exact quiet ⟨rfl, rfl⟩
      case h_2 => cases taken
  | popTx =>
      obtain ⟨granted, rest⟩ := Option.ite_none_right_eq_some.mp taken
      cases rest
      exact quiet ⟨rfl, rfl⟩
  | notifyTx =>
      simp only [AbstractUart.step] at taken
      split at taken
      case h_1 data popped =>
        cases taken
        exact quiet ⟨rfl, rfl⟩
      case h_2 => cases taken
  | writeData =>
      simp only [AbstractUart.step] at taken
      split at taken
      case h_1 data notified =>
        cases taken
        exact quiet ⟨rfl, rfl⟩
      case h_2 => cases taken
  | read address count =>
      simp only [AbstractUart.step] at taken
      split at taken
      case h_1 register idle found =>
        obtain ⟨-, rest⟩ := Option.ite_none_right_eq_some.mp taken
        have pair := pushedRx_readAccess uart register (address % 4) count
        rw [Option.some.inj rest] at pair
        exact quiet pair
      case h_2 => cases taken
  | write address data =>
      simp only [AbstractUart.step] at taken
      split at taken
      case h_1 register idle found =>
        obtain ⟨-, rest⟩ := Option.ite_none_right_eq_some.mp taken
        have pair := pushedRx_writeAccess uart register (address % 4) data
        rw [Option.some.inj rest] at pair
        exact quiet pair
      case h_2 => cases taken
  | interrupt =>
      obtain ⟨-, rest⟩ := Option.ite_none_right_eq_some.mp taken
      cases rest
      exact quiet ⟨rfl, rfl⟩
  | resume => exact quiet (pushedRx_resume taken)

theorem foldl_afterEvent (port : Subclass ι) (output : port.Output)
    (events : List AbstractUart.Event) :
    events.foldl port.afterEvent output =
      (AbstractUart.writtenTx events).foldl port.writeData output := by
  induction events generalizing output with
  | nil => rfl
  | cons event rest inductionHypothesis =>
      rw [List.foldl_cons, inductionHypothesis]
      cases event <;> rfl

/-! ## Runs -/

/-- The bytes that `handle_input` has made of what it has read are those the guest has read and
those on their way, and `write_data` has taken what the guest has written but for what is on its
way. -/
structure Sound (log : List (Event ι)) (line : Line port) : Prop where
  queues : AbstractUart.Sound (uartLog log) line.uart
  fed : port.feed port.opened (entered log) = some (line.input,
    AbstractUart.pushedRx (uartLog log) ++ carried line.uart.receiver ++ line.pending)
  wrote : line.output =
    (AbstractUart.writtenTx (uartLog log)).foldl port.writeData port.created
  running : line.exited = false → exits log = []
  stopped : line.exited = true →
    ∃ data, exits log = [data] ∧ port.handleInput line.input data = none

section Sound

variable {log events : List (Event ι)} {line next : Line port}

theorem sound_initial (port : Subclass ι) : Sound [] (Line.initial port) where
  queues := ⟨AbstractUart.rxSound_initial, AbstractUart.txSound_initial⟩
  fed := rfl
  wrote := rfl
  running _ := rfl
  stopped := by rintro ⟨⟩

/-- An action of the port below, which may hand over a byte. -/
theorem Sound.advance (sound : Sound log line) (goesOn : line.exited = false)
    {pending : List Byte} {action : AbstractUart.Action}
    (hands : line.pending = handed action ++ pending)
    (taken : Line.advance { line with pending := pending } action = some (next, events)) :
    Sound (log ++ events) next := by
  obtain ⟨⟨uart, below⟩, stepped, same⟩ := Option.bind_eq_some_iff.mp taken
  cases same
  have moved := carried_step stepped
  refine ⟨?_, ?_, ?_, ?_, ?_⟩
  · rw [uartLog_append, uartLog_uart]
    exact sound.queues.step stepped
  · rw [entered_append, entered_uart, List.append_nil, sound.fed, uartLog_append, uartLog_uart,
      AbstractUart.pushedRx_append, hands]
    dsimp only
    rw [List.append_assoc _ (AbstractUart.pushedRx below), ← moved]
    simp only [List.append_assoc]
  · rw [uartLog_append, uartLog_uart, AbstractUart.writtenTx_append, List.foldl_append,
      ← sound.wrote]
    exact foldl_afterEvent port line.output below
  · intro goesOn
    rw [exits_append, exits_uart, List.append_nil]
    exact sound.running goesOn
  · intro stopped
    dsimp only at stopped
    rw [goesOn] at stopped
    cases stopped

theorem Sound.step (sound : Sound log line) {action : Action ι}
    (taken : step line action = some (next, events)) : Sound (log ++ events) next := by
  obtain ⟨goesOn, taken⟩ := Option.ite_none_left_eq_some.mp taken
  have goesOn := Bool.eq_false_of_not_eq_true goesOn
  cases action with
  | input data =>
      obtain ⟨⟨idle, none⟩, taken⟩ := Option.ite_none_right_eq_some.mp taken
      have fed := sound.fed
      rw [idle, none] at fed
      cases handled : port.handleInput line.input data with
      | none =>
          rw [handled] at taken
          cases taken
          refine ⟨?_, ?_, ?_, ?_, ?_⟩
          · rw [uartLog_append]
            simpa [uartLog] using sound.queues
          · rw [entered_append, uartLog_append]
            simpa [entered, uartLog] using sound.fed
          · rw [uartLog_append]
            simpa [uartLog] using sound.wrote
          · rintro ⟨⟩
          · rintro -
            refine ⟨data, ?_, handled⟩
            rw [exits_append, sound.running goesOn]
            rfl
      | some pair =>
          obtain ⟨input, bytes⟩ := pair
          rw [handled] at taken
          cases taken
          refine ⟨?_, ?_, ?_, ?_, ?_⟩
          · rw [uartLog_append]
            simpa [uartLog] using sound.queues
          · have single : entered [(.entered data : Event ι)] = [data] := rfl
            have silent : uartLog [(.entered data : Event ι)] = [] := rfl
            rw [entered_append, single, Subclass.feed_concat, fed, uartLog_append, silent]
            simp [handled, idle, carried]
          · rw [uartLog_append]
            simpa [uartLog] using sound.wrote
          · intro _
            rw [exits_append, sound.running goesOn]
            rfl
          · intro stopped
            dsimp only at stopped
            rw [goesOn] at stopped
            cases stopped
  | push =>
      cases pending : line.pending with
      | nil =>
          simp only [pending] at taken
          cases taken
      | cons byte rest =>
          simp only [pending] at taken
          exact sound.advance goesOn pending taken
  | uart action =>
      cases action with
      | swaitRxempty data => cases taken
      | _ => exact sound.advance goesOn rfl taken

theorem sound_of_perform {actions : List (Action ι)}
    (ran : perform step (Line.initial port) actions = some (line, log)) :
    Sound log line :=
  perform_invariant (fun sound taken => sound.step taken) (sound_initial port) ran

/-- The guest reads what `handle_input` has made of its inputs, in order and once. -/
theorem Sound.arrives (sound : Sound log line) :
    port.feed port.opened (entered log) = some (line.input, received log ++ line.incoming) := by
  rw [sound.fed, sound.queues.1.order]
  simp only [received, Line.incoming, List.append_assoc]

/-- `write_data` gets what the guest has written, in order and once. -/
theorem Sound.leaves (sound : Sound log line) :
    ∃ written, accepted log = written ++ line.outgoing ∧
      line.output = written.foldl port.writeData port.created := by
  refine ⟨_, ?_, sound.wrote⟩
  rw [accepted, sound.queues.2.order, Line.outgoing, List.append_assoc]

end Sound

end SymexVP.SerialLine
