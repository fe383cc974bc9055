import SymexVP.GdbServer

/-!
# Every packet is handled once

The mutex is a token. The reader takes it before it parses, leaves it with the packet and
the notification it makes, and the process gives it back after it has popped the packet.
Whoever has the token is the only one to touch the queue, so that there is at most one
packet, one notification and one wake-up under way, and an event is triggered only while
the process waits for it.
-/

namespace SymexVP.Gdb.Server

open ActionRun

/-! ## Who holds the mutex -/

/-- The reader has locked the mutex and not passed it on. -/
def Reader.holds : Reader → Nat
  | .accepting | .locking _ => 0
  | .parsing _ | .pushing _ | .notifying _ | .unlocking _ => 1

/-- The reader serves no connection. -/
def Reader.accepts : Reader → Bool
  | .accepting => true
  | _ => false

/-- The reader has pushed its packet and not yet notified. -/
def Reader.queued : Reader → Nat
  | .notifying _ => 1
  | _ => 0

/-- A delivered packet that is not yet in the queue. -/
def Reader.carried : Reader → List Context
  | .pushing ctx => [ctx]
  | _ => []

/-- The process has been woken and not yet unlocked the mutex. -/
def Process.holds : Process → Nat
  | .toWait | .waiting => 0
  | .woken | .handling _ | .suspended _ | .popping | .unlocking => 1

/-- The process has been woken and not yet popped the packet. -/
def Process.queued : Process → Nat
  | .woken | .handling _ | .suspended _ | .popping => 1
  | _ => 0

/-- The process has been woken and not yet handled the packet. -/
def Process.pending : Process → Nat
  | .woken | .handling _ | .suspended _ => 1
  | _ => 0

/-- The packet the process has taken from the queue. -/
def Process.taken : Process → Option Context
  | .handling ctx | .suspended ctx => some ctx
  | _ => none

/-- A locked mutex has one holder: the reader, a notification under way, or the process; with
the last two goes one packet in the queue. A triggered event finds the process waiting. -/
structure Held (server : State) : Prop where
  token : server.locked.toNat = server.reader.holds + server.requested.toNat +
    server.triggered.toNat + server.process.holds
  queue : server.pktq.length = server.reader.queued + server.requested.toNat +
    server.triggered.toNat + server.process.queued
  awaited : server.triggered = true → server.process = .waiting
  taken : ∀ ctx, server.process.taken = some ctx → server.pktq = [ctx]
  free : server.reader.accepts = true → server.locked = false

theorem held_initial : Held .initial := by
  refine ⟨rfl, rfl, ?_, ?_, fun _ => rfl⟩
  · rintro ⟨⟩
  · rintro ctx ⟨⟩

variable {plain : PlainChar} {server next : State} {action : Action} {log events : List Event}

theorem Reader.queued_le_holds (reader : Reader) : reader.queued ≤ reader.holds := by
  cases reader <;> exact Nat.le_of_ble_eq_true rfl

theorem Process.queued_le_holds (process : Process) : process.queued ≤ process.holds := by
  cases process <;> exact Nat.le_of_ble_eq_true rfl

theorem Process.holds_of_taken {process : Process} {ctx : Context}
    (taken : process.taken = some ctx) : process.holds = 1 := by
  cases process with
  | handling other => rfl
  | suspended other => rfl
  | _ => cases taken

/-- No two of them hold the mutex at once. -/
theorem Held.exclusive (held : Held server) : server.reader.holds + server.requested.toNat +
    server.triggered.toNat + server.process.holds ≤ 1 :=
  held.token ▸ Bool.toNat_le server.locked

theorem Held.step (held : Held server) (moved : step plain server action = some (next, events)) :
    Held next := by
  have exclusive := held.exclusive
  obtain ⟨token, queue, awaited, taken, free⟩ := held
  cases action with
  | accept conn =>
      simp only [Server.step] at moved
      split at moved
      case h_1 accepting =>
        cases moved
        rw [accepting] at token queue
        refine ⟨token, queue, awaited, taken, ?_⟩
        rintro ⟨⟩
      case h_2 => cases moved
  | lock =>
      simp only [Server.step] at moved
      split at moved
      case h_1 conn locking unlocked =>
        cases moved
        rw [locking, unlocked] at token
        rw [locking] at queue
        refine ⟨?_, queue, awaited, taken, ?_⟩
        · simp only [Reader.holds, Bool.toNat_false, Bool.toNat_true] at token ⊢
          omega
        · rintro ⟨⟩
      case h_2 => cases moved
  | parse pkt =>
      simp only [Server.step] at moved
      split at moved
      case h_1 conn pkt parsing =>
        cases moved
        rw [parsing] at token queue
        refine ⟨token, queue, awaited, taken, ?_⟩
        rintro ⟨⟩
      case h_2 conn parsing =>
        cases moved
        rw [parsing] at token queue
        refine ⟨token, queue, awaited, taken, ?_⟩
        rintro ⟨⟩
      case h_3 => cases moved
  | push =>
      simp only [Server.step] at moved
      split at moved
      case h_1 ctx pushing =>
        cases moved
        have idle := server.process.queued_le_holds
        rw [pushing] at token queue exclusive
        simp only [Reader.holds, Reader.queued] at token queue exclusive
        refine ⟨token, ?_, awaited, ?_, ?_⟩
        · simp only [Reader.queued, List.length_append, List.length_singleton]
          omega
        · intro other took
          have holds : server.process.holds = 1 := Process.holds_of_taken took
          omega
        · rintro ⟨⟩
      case h_2 => cases moved
  | notify =>
      simp only [Server.step] at moved
      split at moved
      case h_1 conn notifying =>
        cases moved
        rw [notifying] at token queue exclusive
        simp only [Reader.holds, Reader.queued] at token queue exclusive
        refine ⟨?_, ?_, awaited, taken, ?_⟩
        · simp only [Reader.holds, Bool.toNat_true]
          omega
        · simp only [Reader.queued, Bool.toNat_true]
          omega
        · rintro ⟨⟩
      case h_2 => cases moved
  | readerUnlock =>
      simp only [Server.step] at moved
      split at moved
      case h_1 conn unlocking =>
        cases moved
        rw [unlocking] at token queue exclusive
        simp only [Reader.holds] at token exclusive
        refine ⟨?_, queue, awaited, taken, fun _ => rfl⟩
        simp only [Reader.holds, Bool.toNat_false]
        omega
      case h_2 => cases moved
  | wait =>
      simp only [Server.step] at moved
      split at moved
      case h_1 leaving =>
        cases moved
        rw [leaving] at token queue
        refine ⟨token, queue, fun _ => rfl, ?_, free⟩
        rintro ctx ⟨⟩
      case h_2 => cases moved
  | front =>
      simp only [Server.step] at moved
      split at moved
      case h_1 ctx rest woken first =>
        cases moved
        have idle := server.reader.queued_le_holds
        rw [woken] at token queue exclusive
        simp only [Process.holds, Process.queued] at token queue exclusive
        rw [first] at queue ⊢
        simp only [List.length_cons] at queue
        have alone : rest = [] := List.length_eq_zero_iff.mp (by omega)
        refine ⟨token, queue, ?_, ?_, free⟩
        · intro fired
          rw [fired, Bool.toNat_true] at exclusive
          omega
        · rintro other ⟨⟩
          rw [alone]
      case h_2 woken empty =>
        cases moved
        exact ⟨token, queue, awaited, taken, free⟩
      case h_3 => cases moved
  | suspend =>
      simp only [Server.step] at moved
      split at moved
      case h_1 ctx handling =>
        cases moved
        rw [handling] at token queue exclusive taken
        refine ⟨token, queue, ?_, taken, free⟩
        intro fired
        rw [fired, Bool.toNat_true] at exclusive
        simp only [Process.holds] at exclusive
        omega
      case h_2 => cases moved
  | «continue» =>
      simp only [Server.step] at moved
      split at moved
      case h_1 ctx suspended =>
        cases moved
        rw [suspended] at token queue exclusive taken
        refine ⟨token, queue, ?_, taken, free⟩
        intro fired
        rw [fired, Bool.toNat_true] at exclusive
        simp only [Process.holds] at exclusive
        omega
      case h_2 => cases moved
  | handled =>
      simp only [Server.step] at moved
      split at moved
      case h_1 ctx handling =>
        split at moved
        case h_1 =>
          cases moved
          rw [handling] at token queue exclusive
          refine ⟨token, queue, ?_, ?_, free⟩
          · intro fired
            rw [fired, Bool.toNat_true] at exclusive
            simp only [Process.holds] at exclusive
            omega
          · rintro other ⟨⟩
        case h_2 => cases moved
      case h_2 => cases moved
  | pop =>
      simp only [Server.step] at moved
      split at moved
      case h_1 popping =>
        cases moved
        have idle := server.reader.queued_le_holds
        rw [popping] at token queue exclusive
        simp only [Process.holds, Process.queued] at token queue exclusive
        refine ⟨token, ?_, ?_, ?_, free⟩
        · simp only [Process.queued, List.length_tail]
          omega
        · intro fired
          rw [fired, Bool.toNat_true] at exclusive
          omega
        · rintro other ⟨⟩
      case h_2 => cases moved
  | unlock =>
      simp only [Server.step] at moved
      split at moved
      case h_1 unlocking =>
        cases moved
        rw [unlocking] at token queue exclusive
        simp only [Process.holds] at token exclusive
        refine ⟨?_, queue, ?_, ?_, fun _ => rfl⟩
        · simp only [Process.holds, Bool.toNat_false]
          omega
        · intro fired
          rw [fired, Bool.toNat_true] at exclusive
          omega
        · rintro other ⟨⟩
      case h_2 => cases moved
  | update =>
      obtain ⟨⟨requested, yields⟩, rest⟩ := Option.ite_none_right_eq_some.mp moved
      cases rest
      rw [requested, Bool.toNat_true] at token queue exclusive
      have quiet : server.triggered.toNat = 0 := by omega
      refine ⟨?_, ?_, ?_, taken, free⟩
      · simp only [Bool.toNat_true, Bool.toNat_false]
        omega
      · simp only [Bool.toNat_true, Bool.toNat_false]
        omega
      · -- A suspended handler holds the mutex, so that nothing can be requested.
        rintro -
        cases process : server.process with
        | waiting => rfl
        | suspended ctx =>
            rw [process] at exclusive
            simp only [Process.holds] at exclusive
            omega
        | _ =>
            rw [process] at yields
            cases yields
  | trigger =>
      simp only [Server.step] at moved
      split at moved
      case h_1 fired waiting =>
        cases moved
        rw [fired, waiting] at token queue
        simp only [Process.holds, Process.queued, Bool.toNat_true] at token queue
        refine ⟨?_, ?_, ?_, ?_, free⟩
        · simp only [Process.holds, Bool.toNat_false]
          omega
        · simp only [Process.queued, Bool.toNat_false]
          omega
        · rintro ⟨⟩
        · rintro ctx ⟨⟩
      case h_2 ctx fired suspended =>
        rw [awaited fired] at suspended
        cases suspended
      case h_3 => cases moved

/-! ## What the events say -/

/-- The packets `gdb_parse_pkt` has delivered. -/
def delivered (log : List Event) : List Context :=
  log.filterMap fun
    | .delivered ctx => some ctx
    | _ => none

/-- The packets `run` has handled. -/
def handledIn (log : List Event) : List Context :=
  log.filterMap fun
    | .handled ctx _ => some ctx
    | _ => none

def Event.isNotified : Event → Bool
  | .notified => true
  | _ => false

def Event.isWoke : Event → Bool
  | .woke => true
  | _ => false

/-- The packets in the queue that are not handled yet. -/
def State.unhandled (server : State) : List Context :=
  match server.process with
  | .popping => []
  | _ => server.pktq

/-- The packets delivered are those handled, the one in the queue and the one in the reader's
hands; every notification has woken the process or will; every time it wakes it handles one
packet. -/
structure Told (log : List Event) (server : State) : Prop where
  order : delivered log = handledIn log ++ server.unhandled ++ server.reader.carried
  notified : log.countP Event.isNotified =
    log.countP Event.isWoke + server.requested.toNat + server.triggered.toNat
  woke : log.countP Event.isWoke = (handledIn log).length + server.process.pending
  fronts : ∀ pktq, .front pktq ∈ log → pktq ≠ []
  missed : .missed ∉ log

theorem told_initial : Told [] .initial := by
  refine ⟨rfl, rfl, rfl, ?_, ?_⟩
  · rintro pktq ⟨⟩
  · rintro ⟨⟩

theorem delivered_append (log events : List Event) :
    delivered (log ++ events) = delivered log ++ delivered events := List.filterMap_append

theorem handledIn_append (log events : List Event) :
    handledIn (log ++ events) = handledIn log ++ handledIn events := List.filterMap_append

/-- What a step has to account for: where each packet has gone, and each notification. -/
theorem Told.tell (told : Told log server)
    (order : server.unhandled ++ server.reader.carried ++ delivered events =
      handledIn events ++ (next.unhandled ++ next.reader.carried))
    (notified : events.countP Event.isNotified + (server.requested.toNat + server.triggered.toNat) =
      events.countP Event.isWoke + (next.requested.toNat + next.triggered.toNat))
    (woke : events.countP Event.isWoke + server.process.pending =
      (handledIn events).length + next.process.pending)
    (fronts : ∀ pktq, .front pktq ∈ events → pktq ≠ []) (missed : .missed ∉ events) :
    Told (log ++ events) next := by
  have before := told.notified
  have wokeBefore := told.woke
  refine ⟨?_, ?_, ?_, ?_, ?_⟩
  · rw [delivered_append, handledIn_append, told.order]
    simp only [List.append_assoc] at order ⊢
    rw [order]
  · rw [List.countP_append, List.countP_append]
    omega
  · rw [List.countP_append, handledIn_append, List.length_append]
    omega
  · intro pktq member
    rcases List.mem_append.mp member with old | new
    · exact told.fronts pktq old
    · exact fronts pktq new
  · intro member
    rcases List.mem_append.mp member with old | new
    · exact told.missed old
    · exact missed new

/-- A step that shows nothing. -/
theorem Told.silent (told : Told log server)
    (order : server.unhandled ++ server.reader.carried = next.unhandled ++ next.reader.carried)
    (notified : server.requested.toNat + server.triggered.toNat =
      next.requested.toNat + next.triggered.toNat)
    (woke : server.process.pending = next.process.pending) : Told (log ++ []) next := by
  refine told.tell ?_ ?_ ?_ ?_ ?_
  · rw [show delivered [] = [] from rfl, List.append_nil, order]
    rfl
  · simpa using notified
  · simpa [handledIn] using woke
  · rintro pktq ⟨⟩
  · rintro ⟨⟩

theorem Told.step (held : Held server) (told : Told log server)
    (moved : step plain server action = some (next, events)) : Told (log ++ events) next := by
  have exclusive := held.exclusive
  cases action with
  | accept conn =>
      simp only [Server.step] at moved
      split at moved
      case h_1 accepting =>
        cases moved
        refine told.silent ?_ rfl rfl
        rw [accepting]
        rfl
      case h_2 => cases moved
  | lock =>
      simp only [Server.step] at moved
      split at moved
      case h_1 conn locking free =>
        cases moved
        refine told.silent ?_ rfl rfl
        rw [locking]
        rfl
      case h_2 => cases moved
  | parse pkt =>
      simp only [Server.step] at moved
      split at moved
      case h_1 conn pkt parsing =>
        cases moved
        refine told.tell ?_ rfl rfl ?_ ?_
        · rw [parsing]
          simp [delivered, handledIn, Reader.carried, State.unhandled]
        · intro pktq member
          cases List.mem_singleton.mp member
        · intro member
          cases List.mem_singleton.mp member
      case h_2 conn parsing =>
        cases moved
        refine told.silent ?_ rfl rfl
        rw [parsing]
        rfl
      case h_3 => cases moved
  | push =>
      simp only [Server.step] at moved
      split at moved
      case h_1 ctx pushing =>
        cases moved
        refine told.silent ?_ rfl rfl
        rw [pushing] at exclusive ⊢
        simp only [Reader.holds] at exclusive
        simp only [State.unhandled, Reader.carried, List.append_nil]
        cases process : server.process with
        | popping =>
            rw [process] at exclusive
            simp only [Process.holds] at exclusive
            omega
        | _ => rfl
      case h_2 => cases moved
  | notify =>
      simp only [Server.step] at moved
      split at moved
      case h_1 conn notifying =>
        cases moved
        rw [notifying] at exclusive
        simp only [Reader.holds] at exclusive
        refine told.tell ?_ ?_ rfl ?_ ?_
        · rw [notifying]
          simp [delivered, handledIn, Reader.carried, State.unhandled]
        · have quiet : server.requested.toNat = 0 := by omega
          simp only [quiet, Bool.toNat_true, Event.isNotified, Event.isWoke, List.countP_singleton]
          simp
        · intro pktq member
          cases List.mem_singleton.mp member
        · intro member
          cases List.mem_singleton.mp member
      case h_2 => cases moved
  | readerUnlock =>
      simp only [Server.step] at moved
      split at moved
      case h_1 conn unlocking =>
        cases moved
        refine told.tell ?_ rfl rfl ?_ ?_
        · rw [unlocking]
          simp [delivered, handledIn, Reader.carried, State.unhandled]
        · intro pktq member
          cases List.mem_singleton.mp member
        · intro member
          cases List.mem_singleton.mp member
      case h_2 => cases moved
  | wait =>
      simp only [Server.step] at moved
      split at moved
      case h_1 leaving =>
        cases moved
        refine told.silent ?_ rfl ?_
        · simp only [State.unhandled, leaving]
        · rw [leaving]
          rfl
      case h_2 => cases moved
  | front =>
      simp only [Server.step] at moved
      split at moved
      case h_1 ctx rest woken first =>
        cases moved
        refine told.tell ?_ rfl ?_ ?_ ?_
        · simp [delivered, handledIn, State.unhandled, woken]
        · rw [woken]
          rfl
        · intro pktq member
          cases List.mem_singleton.mp member
          rw [first]
          exact List.cons_ne_nil ctx rest
        · intro member
          cases List.mem_singleton.mp member
      case h_2 woken empty =>
        -- The process has been woken for a packet, which is still in the queue.
        have queue := held.queue
        rw [woken, empty] at queue
        simp only [Process.queued, List.length_nil] at queue
        omega
      case h_3 => cases moved
  | suspend =>
      simp only [Server.step] at moved
      split at moved
      case h_1 ctx handling =>
        cases moved
        refine told.silent ?_ rfl ?_
        · simp only [State.unhandled, handling]
        · rw [handling]
          rfl
      case h_2 => cases moved
  | «continue» =>
      simp only [Server.step] at moved
      split at moved
      case h_1 ctx suspended =>
        cases moved
        refine told.silent ?_ rfl ?_
        · simp only [State.unhandled, suspended]
        · rw [suspended]
          rfl
      case h_2 => cases moved
  | handled =>
      simp only [Server.step] at moved
      split at moved
      case h_1 ctx handling =>
        split at moved
        case h_1 answer answered =>
          cases moved
          have front : server.pktq = [ctx] := held.taken ctx (by rw [handling]; rfl)
          refine told.tell ?_ rfl ?_ ?_ ?_
          · simp [delivered, handledIn, State.unhandled, handling, front]
          · rw [handling]
            rfl
          · intro pktq member
            cases List.mem_singleton.mp member
          · intro member
            cases List.mem_singleton.mp member
        case h_2 => cases moved
      case h_2 => cases moved
  | pop =>
      simp only [Server.step] at moved
      split at moved
      case h_1 popping =>
        cases moved
        have queue := held.queue
        have idle := server.reader.queued_le_holds
        rw [popping] at queue exclusive
        simp only [Process.holds, Process.queued] at queue exclusive
        have last : server.pktq.tail = [] := by
          refine List.length_eq_zero_iff.mp ?_
          rw [List.length_tail]
          omega
        refine told.silent ?_ rfl ?_
        · simp only [State.unhandled, popping, last]
        · rw [popping]
          rfl
      case h_2 => cases moved
  | unlock =>
      simp only [Server.step] at moved
      split at moved
      case h_1 unlocking =>
        cases moved
        refine told.silent ?_ rfl ?_
        · simp only [State.unhandled, unlocking]
        · rw [unlocking]
          rfl
      case h_2 => cases moved
  | update =>
      obtain ⟨⟨requested, -⟩, rest⟩ := Option.ite_none_right_eq_some.mp moved
      cases rest
      refine told.silent rfl ?_ rfl
      rw [requested] at exclusive ⊢
      simp only [Bool.toNat_true, Bool.toNat_false] at exclusive ⊢
      omega
  | trigger =>
      simp only [Server.step] at moved
      split at moved
      case h_1 fired waiting =>
        cases moved
        refine told.tell ?_ ?_ ?_ ?_ ?_
        · simp [delivered, handledIn, State.unhandled, waiting]
        · rw [fired]
          simp [Event.isNotified, Event.isWoke, Nat.add_comm]
        · rw [waiting]
          rfl
        · intro pktq member
          cases List.mem_singleton.mp member
        · intro member
          cases List.mem_singleton.mp member
      case h_2 ctx fired suspended =>
        rw [held.awaited fired] at suspended
        cases suspended
      case h_3 => cases moved

/-! ## Progress -/

/-- The packets delivered and not yet handled. -/
def State.outstanding (server : State) : List Context :=
  server.unhandled ++ server.reader.carried

theorem Reader.carried_of_holds {reader : Reader} (released : reader.holds = 0) :
    reader.carried = [] := by
  cases reader with
  | pushing ctx => cases released
  | _ => rfl

/-- A packet in the reader's hands is not yet in the queue. -/
theorem Reader.carried_le_holds (reader : Reader) :
    reader.carried.length + reader.queued ≤ reader.holds := by
  cases reader <;> exact Nat.le_of_ble_eq_true rfl

theorem State.unhandled_length_le (server : State) :
    server.unhandled.length ≤ server.pktq.length := by
  unfold State.unhandled
  split
  · exact Nat.zero_le _
  · exact Nat.le_refl _

theorem State.unhandled_of_pktq {server : State} (empty : server.pktq = []) :
    server.unhandled = [] := by
  unfold State.unhandled
  split
  · rfl
  · exact empty

/-- While nobody but the reader holds the mutex, the queue is empty unless it has pushed. -/
theorem Held.pktq_of_released (held : Held server) (queued : server.reader.queued = 0)
    (released : server.requested.toNat + server.triggered.toNat + server.process.holds = 0) :
    server.pktq = [] := by
  have queue := held.queue
  have bound := server.process.queued_le_holds
  refine List.length_eq_zero_iff.mp ?_
  omega

/-- A free mutex leaves no packet behind. -/
theorem Held.outstanding_of_free (held : Held server) (free : server.locked = false) :
    server.outstanding = [] := by
  have token := held.token
  have bound := server.reader.queued_le_holds
  rw [free, Bool.toNat_false] at token
  have empty : server.pktq = [] := held.pktq_of_released (by omega) (by omega)
  rw [State.outstanding, State.unhandled_of_pktq empty,
    Reader.carried_of_holds (show server.reader.holds = 0 by omega)]
  rfl

/-- The reader's steps until it has notified, with those of the kernel and the process behind. -/
def Reader.distance : Reader → Nat
  | .pushing _ => 6
  | .notifying _ => 5
  | _ => 0

def Process.distance : Process → Nat
  | .woken => 2
  | .toWait | .handling _ | .suspended _ => 1
  | _ => 0

/-- How many steps an outstanding packet is away from being handled. -/
def State.distance (server : State) : Nat :=
  server.reader.distance + 4 * server.requested.toNat + 3 * server.triggered.toNat +
    server.process.distance

theorem Reader.distance_le (reader : Reader) : reader.distance ≤ 6 * reader.holds := by
  cases reader <;> exact Nat.le_of_ble_eq_true rfl

theorem Process.distance_le (process : Process) : process.distance ≤ process.holds + 1 := by
  cases process <;> exact Nat.le_of_ble_eq_true rfl

/-- While a packet is outstanding every step brings it nearer, but for those of its handler. -/
theorem distance_lt (held : Held server) (outstanding : server.outstanding ≠ [])
    (moved : step plain server action = some (next, events))
    (outside : action ≠ .suspend ∧ action ≠ .continue) : next.distance < server.distance := by
  have exclusive := held.exclusive
  have notFree : server.locked ≠ false := fun free => outstanding (held.outstanding_of_free free)
  cases action with
  | accept conn =>
      simp only [Server.step] at moved
      split at moved
      case h_1 accepting => exact absurd (held.free (by rw [accepting]; rfl)) notFree
      case h_2 => cases moved
  | lock =>
      simp only [Server.step] at moved
      split at moved
      case h_1 conn locking free => exact absurd free notFree
      case h_2 => cases moved
  | parse pkt =>
      have parsing : ∃ conn, server.reader = .parsing conn := by
        simp only [Server.step] at moved
        split at moved
        case h_1 conn pkt parsing => exact ⟨conn, parsing⟩
        case h_2 conn parsing => exact ⟨conn, parsing⟩
        case h_3 => cases moved
      obtain ⟨conn, parsing⟩ := parsing
      rw [parsing] at exclusive
      simp only [Reader.holds] at exclusive
      have empty := held.pktq_of_released (by rw [parsing]; rfl) (by omega)
      refine absurd ?_ outstanding
      rw [State.outstanding, State.unhandled_of_pktq empty, parsing]
      rfl
  | push =>
      simp only [Server.step] at moved
      split at moved
      case h_1 ctx pushing =>
        cases moved
        simp only [State.distance, pushing, Reader.distance]
        omega
      case h_2 => cases moved
  | notify =>
      simp only [Server.step] at moved
      split at moved
      case h_1 conn notifying =>
        cases moved
        simp only [State.distance, notifying, Reader.distance, Bool.toNat_true]
        omega
      case h_2 => cases moved
  | readerUnlock =>
      simp only [Server.step] at moved
      split at moved
      case h_1 conn unlocking =>
        rw [unlocking] at exclusive
        simp only [Reader.holds] at exclusive
        have empty := held.pktq_of_released (by rw [unlocking]; rfl) (by omega)
        refine absurd ?_ outstanding
        rw [State.outstanding, State.unhandled_of_pktq empty, unlocking]
        rfl
      case h_2 => cases moved
  | wait =>
      simp only [Server.step] at moved
      split at moved
      case h_1 leaving =>
        cases moved
        simp only [State.distance, leaving, Process.distance]
        omega
      case h_2 => cases moved
  | front =>
      simp only [Server.step] at moved
      split at moved
      case h_1 ctx rest woken first =>
        cases moved
        simp only [State.distance, woken, Process.distance]
        omega
      case h_2 woken empty =>
        have queue := held.queue
        rw [woken, empty] at queue
        simp only [Process.queued, List.length_nil] at queue
        omega
      case h_3 => cases moved
  | suspend => exact absurd rfl outside.1
  | «continue» => exact absurd rfl outside.2
  | handled =>
      simp only [Server.step] at moved
      split at moved
      case h_1 ctx handling =>
        split at moved
        case h_1 answer answered =>
          cases moved
          simp only [State.distance, handling, Process.distance]
          omega
        case h_2 => cases moved
      case h_2 => cases moved
  | pop =>
      simp only [Server.step] at moved
      split at moved
      case h_1 popping =>
        rw [popping] at exclusive
        simp only [Process.holds] at exclusive
        refine absurd ?_ outstanding
        rw [State.outstanding, State.unhandled, popping,
          Reader.carried_of_holds (show server.reader.holds = 0 by omega)]
        rfl
      case h_2 => cases moved
  | unlock =>
      simp only [Server.step] at moved
      split at moved
      case h_1 unlocking =>
        have queue := held.queue
        have bound := server.reader.queued_le_holds
        rw [unlocking] at exclusive queue
        simp only [Process.holds, Process.queued] at exclusive queue
        have empty : server.pktq = [] := List.length_eq_zero_iff.mp (by omega)
        refine absurd ?_ outstanding
        rw [State.outstanding, State.unhandled_of_pktq empty,
          Reader.carried_of_holds (show server.reader.holds = 0 by omega)]
        rfl
      case h_2 => cases moved
  | update =>
      obtain ⟨⟨requested, -⟩, rest⟩ := Option.ite_none_right_eq_some.mp moved
      cases rest
      rw [requested, Bool.toNat_true] at exclusive
      simp only [State.distance, requested, Bool.toNat_true, Bool.toNat_false]
      omega
  | trigger =>
      simp only [Server.step] at moved
      split at moved
      case h_1 fired waiting =>
        cases moved
        simp only [State.distance, fired, waiting, Process.distance, Bool.toNat_true,
          Bool.toNat_false]
        omega
      case h_2 ctx fired suspended =>
        rw [held.awaited fired] at suspended
        cases suspended
      case h_3 => cases moved

/-- An outstanding packet is never stuck, if the process survives what it makes of it. -/
theorem exists_step (held : Held server) (outstanding : server.outstanding ≠ [])
    (returns : ∀ ctx, server.process = .handling ctx → ∃ reply, answer plain ctx.2 = .ok reply) :
    ∃ action, (step plain server action).isSome := by
  have queue := held.queue
  cases process : server.process with
  | toWait => exact ⟨.wait, by simp [step, process]⟩
  | waiting =>
      cases fired : server.triggered with
      | true => exact ⟨.trigger, by simp [step, fired, process]⟩
      | false =>
          cases requested : server.requested with
          | true =>
              exact ⟨.update, by simp [step, requested, process, Process.yields]⟩
          | false =>
              cases reader : server.reader with
              | pushing ctx => exact ⟨.push, by simp [step, reader]⟩
              | notifying conn => exact ⟨.notify, by simp [step, reader]⟩
              | _ =>
                  rw [process, fired, requested, reader] at queue
                  have empty : server.pktq = [] := List.length_eq_zero_iff.mp queue
                  refine absurd ?_ outstanding
                  rw [State.outstanding, State.unhandled_of_pktq empty, reader]
                  rfl
  | woken =>
      cases first : server.pktq with
      | nil => exact ⟨.front, by simp [step, process, first]⟩
      | cons ctx rest => exact ⟨.front, by simp [step, process, first]⟩
  | handling ctx =>
      obtain ⟨reply, answered⟩ := returns ctx process
      exact ⟨.handled, by simp [step, process, answered]⟩
  | suspended ctx => exact ⟨.continue, by simp [step, process]⟩
  | popping => exact ⟨.pop, by simp [step, process]⟩
  | unlocking => exact ⟨.unlock, by simp [step, process]⟩

/-! ## Runs -/

def Sound (log : List Event) (server : State) : Prop := Held server ∧ Told log server

theorem sound_of_step (sound : Sound log server)
    (moved : step plain server action = some (next, events)) : Sound (log ++ events) next :=
  ⟨sound.1.step moved, sound.2.step sound.1 moved⟩

theorem sound_of_perform {actions : List Action}
    (ran : perform (step plain) .initial actions = some (server, log)) : Sound log server :=
  perform_invariant sound_of_step ⟨held_initial, told_initial⟩ ran

/-- Two packets of one connection: the second is read while the process is on its way back to
`wait`, and the connection ends. -/
def session : List Action :=
  [.wait, .accept 3, .lock, .parse (some ⟨.ack, none, []⟩), .push, .notify, .update, .trigger,
    .front, .handled, .pop, .unlock, .lock, .parse (some ⟨.nack, none, []⟩), .push, .notify, .wait,
    .update, .trigger, .front, .suspend, .continue, .handled, .pop, .unlock, .lock, .parse none,
    .readerUnlock]

end SymexVP.Gdb.Server
