import SymexVP.ActionRuns
import SymexVP.GpioServer

/-!
# What clients see of the pins

Requests and answers are on their way while the guest and the other clients go on. Each request is
handled at one moment, though, and these moments explain everything that is seen: handled one
after the other, the requests give the levels that the pins have in the end and the answers that
the clients get. A client's own requests are handled in the order in which it makes them, and
`update` returns after all of them.
-/

namespace SymexVP.GpioServer

open ActionRun
open GPIO (PinChange)

variable {κ : Type} [DecidableEq κ] {intGpioBase : Nat}

/-! ## Messages -/

/-- What the server is to do for a request. -/
def Request.meaning : Request → Option Operation
  | getBank => some .getBank
  | setBit pos val => (tristate val).map fun val => .setBit ⟨pos.toFin, val⟩

/-- The server finds in the bytes of a request what the client has put there. -/
theorem operation_bytes (request : Request) :
    ∃ op argument, request.bytes = [op, argument] ∧ operation op argument = request.meaning := by
  cases request with
  | getBank => exact ⟨_, _, rfl, rfl⟩
  | setBit pos val =>
      refine ⟨_, _, rfl, ?_⟩
      have first : (val ++ pos).extractLsb' 6 2 = val := by
        revert val pos
        decide
      have second : (val ++ pos).extractLsb' 0 6 = pos := by
        revert val pos
        decide
      change (tristate ((val ++ pos).extractLsb' 6 2)).map _ = _
      rw [first, second]
      rfl

theorem length_answerBytes (value : Reg) : (answerBytes value).length = 8 := by
  rw [answerBytes, List.length_map, List.length_range]

/-- The client finds in the bytes of an answer what the server has put there. -/
theorem littleEndian_answerBytes (value : Reg) :
    BitVec.ofNat 64 (Clover.littleEndian (answerBytes value)) = value := by
  refine @Clover.eq_of_byteOf_eq 8 _ _ fun index inside => ?_
  have bound : index < (answerBytes value).length := by rwa [length_answerBytes]
  rw [Clover.byteOf_littleEndian _ _ bound (by rw [length_answerBytes])]
  simp [answerBytes]

/-! ## Histories -/

/-- What an event does to the pins. -/
def after (intGpioBase : Nat) (gpio : GPIO.State) : Event κ → GPIO.State
  | .handled _ (.setBit change) => GPIO.asyncOnchange gpio change
  | .wrote register new => GPIO.registerAccessCallback gpio register new
  | .changed => GPIO.synchronousChange intGpioBase gpio [] |>.1
  | .handled _ .getBank | .asked _ _ | .received _ _ => gpio

/-- What concerns one client: its requests, what the server has done for it, the levels at the
moments when it was to tell them, and the answers that have arrived. -/
@[ext] structure History where
  requests : List Request
  operations : List Operation
  levels : List Reg
  received : List Reg

instance : Append History where
  append first second :=
    ⟨first.requests ++ second.requests, first.operations ++ second.operations,
      first.levels ++ second.levels, first.received ++ second.received⟩

def History.empty : History := ⟨[], [], [], []⟩

/-- What an event tells about a client. -/
def seen (gpio : GPIO.State) (client : κ) : Event κ → History
  | .asked source request => if source = client then ⟨[request], [], [], []⟩ else .empty
  | .handled source operation =>
      if source = client then
        ⟨[], [operation], if operation = .getBank then [gpio.server] else [], []⟩
      else .empty
  | .received source value => if source = client then ⟨[], [], [], [value]⟩ else .empty
  | .wrote _ _ | .changed => .empty

/-- The levels after some events, one after the other. -/
def afterAll (intGpioBase : Nat) (gpio : GPIO.State) (log : List (Event κ)) : GPIO.State :=
  log.foldl (after intGpioBase) gpio

def historyOf (intGpioBase : Nat) (client : κ) : GPIO.State → List (Event κ) → History
  | _, [] => .empty
  | gpio, event :: rest =>
      seen gpio client event ++ historyOf intGpioBase client (after intGpioBase gpio event) rest

section Append

variable (first second third : History)

@[simp] theorem requests_append : (first ++ second).requests = first.requests ++ second.requests :=
  rfl

@[simp] theorem operations_append :
    (first ++ second).operations = first.operations ++ second.operations := rfl

@[simp] theorem levels_append : (first ++ second).levels = first.levels ++ second.levels := rfl

@[simp] theorem received_append : (first ++ second).received = first.received ++ second.received :=
  rfl

theorem append_empty : first ++ History.empty = first := by
  ext1 <;> simp [History.empty]

theorem append_assoc : first ++ second ++ third = first ++ (second ++ third) := by
  ext1 <;> simp

end Append

theorem historyOf_append (client : κ) (gpio : GPIO.State) (log more : List (Event κ)) :
    historyOf intGpioBase client gpio (log ++ more) =
      historyOf intGpioBase client gpio log ++
        historyOf intGpioBase client (afterAll intGpioBase gpio log) more := by
  induction log generalizing gpio with
  | nil => rfl
  | cons event rest inductionHypothesis =>
      rw [List.cons_append, historyOf, inductionHypothesis, ← append_assoc]
      rfl

omit [DecidableEq κ] in
theorem afterAll_append (gpio : GPIO.State) (log more : List (Event κ)) :
    afterAll intGpioBase gpio (log ++ more) =
      afterAll intGpioBase (afterAll intGpioBase gpio log) more := List.foldl_append

/-! ## One client -/

/-- The server still handles what comes over the connection, now or later. -/
def Connection.Open (connection : Connection) : Prop :=
  connection.stage = .waiting ∨ connection.stage = .taken

/-- What is on its way, between what has been asked and handled, and what has been told and has
arrived. -/
structure Follows (history : History) (connection : Connection) (done pending : List Request)
    (unread : List Reg) : Prop where
  asked : history.requests = done ++ pending
  handled : done.map Request.meaning = history.operations.map some
  told : history.levels = history.received ++ unread
  sent : connection.Open → connection.requests = pending.flatMap Request.bytes
  replied : connection.replies = unread.flatMap answerBytes
  single : unread.length ≤ connection.updating.toNat
  awaited : connection.Open →
    pending.count .getBank + unread.length = connection.updating.toNat
  view : connection.view = history.received.getLast?.getD 0

/-- A client has a history that fits its connection. -/
def Explained (history : History) : Option Connection → Prop
  | none => history = .empty
  | some connection => ∃ done pending unread, Follows history connection done pending unread

section Follows

variable {history : History} {connection : Connection} {done pending : List Request}
  {unread : List Reg}

theorem follows_opened : Follows .empty .opened [] [] [] where
  asked := rfl
  handled := rfl
  told := rfl
  sent _ := rfl
  replied := rfl
  single := Nat.le_refl 0
  awaited _ := rfl
  view := rfl

/-- A request is written by a client that does not wait. -/
theorem Follows.ask (follows : Follows history connection done pending unread)
    (ready : connection.updating = false) (request : Request) :
    Follows (history ++ ⟨[request], [], [], []⟩)
      { connection with
        requests := connection.requests ++ request.bytes
        updating := decide (request = .getBank) } done (pending ++ [request]) unread := by
  have none : unread = [] := by
    have single := follows.single
    rw [ready] at single
    exact List.length_eq_zero_iff.mp (Nat.le_zero.mp single)
  subst none
  refine ⟨?_, ?_, ?_, fun isOpen => ?_, follows.replied, Nat.zero_le _, fun isOpen => ?_, ?_⟩
  · rw [requests_append, follows.asked, List.append_assoc]
  · rw [operations_append, List.append_nil]
    exact follows.handled
  · rw [levels_append, received_append, List.append_nil, List.append_nil]
    exact follows.told
  · dsimp only
    rw [follows.sent isOpen, List.flatMap_append, List.flatMap_singleton]
  · have before := follows.awaited isOpen
    rw [ready] at before
    rw [List.count_append, List.count_singleton]
    simp only [beq_iff_eq] at before ⊢
    by_cases get : request = .getBank
    · subst get
      simpa using before
    · simpa [get] using before
  · rw [received_append, List.append_nil]
    exact follows.view

/-- The two bytes the server reads are a request. -/
theorem Follows.next (follows : Follows history connection done pending unread)
    (isOpen : connection.Open) {op argument : Byte} {rest : List Byte}
    (waiting : connection.requests = op :: argument :: rest) :
    ∃ request others, pending = request :: others ∧ operation op argument = request.meaning ∧
      rest = others.flatMap Request.bytes := by
  have sent := follows.sent isOpen
  rw [waiting] at sent
  cases pending with
  | nil => cases sent
  | cons request others =>
      obtain ⟨op', argument', bytes, means⟩ := operation_bytes request
      rw [List.flatMap_cons, bytes, List.cons_append, List.cons_append, List.nil_append] at sent
      injection sent with sameOp sent
      injection sent with sameArgument sent
      subst sameOp sameArgument
      exact ⟨request, others, rfl, means, sent⟩

/-- The server handles a request to set a bit. -/
theorem Follows.setBit {request : Request} {change : PinChange}
    (follows : Follows history connection done (request :: pending) unread)
    (isOpen : connection.Open) (means : request.meaning = some (.setBit change)) :
    Follows (history ++ ⟨[], [.setBit change], [], []⟩)
      { connection with requests := pending.flatMap Request.bytes } (done ++ [request]) pending
      unread := by
  have other : request ≠ .getBank := by
    rintro rfl
    cases means
  refine ⟨?_, ?_, ?_, fun _ => rfl, follows.replied, follows.single, fun _ => ?_, ?_⟩
  · rw [requests_append, follows.asked, List.append_nil, List.append_assoc]
    rfl
  · rw [operations_append, List.map_append, List.map_append, follows.handled, List.map_singleton,
      List.map_singleton, means]
  · rw [levels_append, received_append, List.append_nil, List.append_nil]
    exact follows.told
  · have before := follows.awaited isOpen
    rwa [List.count_cons_of_ne other] at before
  · rw [received_append, List.append_nil]
    exact follows.view

/-- The server tells the levels. -/
theorem Follows.getBank (follows : Follows history connection done (.getBank :: pending) unread)
    (isOpen : connection.Open) (value : Reg) :
    Follows (history ++ ⟨[], [.getBank], [value], []⟩)
      { connection with
        requests := pending.flatMap Request.bytes
        replies := connection.replies ++ answerBytes value } (done ++ [.getBank]) pending
      (unread ++ [value]) := by
  have before := follows.awaited isOpen
  rw [List.count_cons_self] at before
  have once : connection.updating.toNat ≤ 1 := Bool.toNat_le _
  refine ⟨?_, ?_, ?_, fun _ => rfl, ?_, ?_, fun _ => ?_, ?_⟩
  · rw [requests_append, follows.asked, List.append_nil, List.append_assoc]
    rfl
  · rw [operations_append, List.map_append, List.map_append, follows.handled]
    rfl
  · rw [levels_append, received_append, follows.told, List.append_nil, List.append_assoc]
  · rw [List.flatMap_append, ← follows.replied, List.flatMap_singleton]
  · rw [List.length_append, List.length_singleton]
    dsimp only
    omega
  · rw [List.length_append, List.length_singleton]
    dsimp only
    omega
  · rw [received_append, List.append_nil]
    exact follows.view

/-- An answer arrives. -/
theorem Follows.receive (follows : Follows history connection done pending unread)
    (waiting : 8 ≤ connection.replies.length) :
    ∃ rest,
      Follows (history ++
          ⟨[], [], [], [BitVec.ofNat 64 (Clover.littleEndian (connection.replies.take 8))]⟩)
        { connection with
          replies := connection.replies.drop 8
          updating := false
          view := BitVec.ofNat 64 (Clover.littleEndian (connection.replies.take 8)) }
        done pending rest := by
  have replied := follows.replied
  cases unread with
  | nil =>
      rw [replied] at waiting
      exact absurd waiting (by decide)
  | cons value rest =>
      have length := length_answerBytes value
      have single := follows.single
      have once : connection.updating.toNat ≤ 1 := Bool.toNat_le _
      rw [List.length_cons] at single
      have none : rest = [] := List.length_eq_zero_iff.mp (by omega)
      subst none
      have whole : connection.replies = answerBytes value := by
        rw [replied, List.flatMap_singleton]
      have all : connection.replies.take 8 = answerBytes value := by
        rw [whole, List.take_of_length_le length.le]
      rw [all, littleEndian_answerBytes]
      refine ⟨[], ?_, ?_, ?_, follows.sent, ?_, Nat.zero_le _, fun isOpen => ?_, ?_⟩
      · rw [requests_append, List.append_nil]
        exact follows.asked
      · rw [operations_append, List.append_nil]
        exact follows.handled
      · rw [levels_append, received_append, follows.told, List.append_nil]
      · dsimp only
        rw [whole, List.drop_of_length_le length.le]
        rfl
      · have before := follows.awaited isOpen
        rw [List.length_singleton] at before
        rw [List.length_nil]
        dsimp only
        have zero : (false).toNat = 0 := rfl
        omega
      · rw [received_append, List.getLast?_append]
        rfl

end Follows

/-! ## The network -/

/-- The events explain the levels of the pins and the connections of all clients. -/
structure Sound (intGpioBase : Nat) (start : GPIO.State) (log : List (Event κ))
    (network : Network κ) : Prop where
  pins : afterAll intGpioBase start log = network.gpio
  clients : ∀ client,
    Explained (historyOf intGpioBase client start log) (network.connections client)
  serving : ∀ client, network.serving = some client →
    ∃ connection, network.connections client = some connection ∧ connection.stage = .taken

section Network

variable {start : GPIO.State} {log events : List (Event κ)} {network next : Network κ} {client : κ}
  {connection after : Connection}

theorem sound_listening (start : GPIO.State) :
    Sound intGpioBase start [] (listening start : Network κ) := by
  refine ⟨rfl, fun _ => rfl, ?_⟩
  rintro client ⟨⟩

/-- The connection of one client changes. -/
theorem Sound.put (sound : Sound intGpioBase start log network) {gpio : GPIO.State}
    {serving : Option κ} (pins : afterAll intGpioBase network.gpio events = gpio)
    (own : Explained (historyOf intGpioBase client start log ++
      historyOf intGpioBase client network.gpio events) (some after))
    (others : ∀ other, other ≠ client → historyOf intGpioBase other network.gpio events = .empty)
    (serves : ∀ other, serving = some other →
      other = client ∧ after.stage = .taken ∨ other ≠ client ∧ network.serving = some other) :
    Sound intGpioBase start (log ++ events)
      ⟨gpio, Function.update network.connections client (some after), serving⟩ where
  pins := by rw [afterAll_append, sound.pins, pins]
  clients other := by
    rw [historyOf_append, sound.pins]
    dsimp only
    by_cases same : other = client
    · subst same
      rw [Function.update_self]
      exact own
    · rw [Function.update_of_ne same, others other same, append_empty]
      exact sound.clients other
  serving other served := by
    obtain ⟨rfl, taken⟩ | ⟨differs, before⟩ := serves other served
    · exact ⟨after, Function.update_self .., taken⟩
    · dsimp only
      rw [Function.update_of_ne differs]
      exact sound.serving other before

theorem Sound.follows (sound : Sound intGpioBase start log network)
    (present : network.connections client = some connection) :
    ∃ done pending unread,
      Follows (historyOf intGpioBase client start log) connection done pending unread := by
  have explained := sound.clients client
  rwa [present] at explained

/-- A change that leaves the server where it is keeps the stage of the connection it serves. -/
theorem Sound.serves (sound : Sound intGpioBase start log network)
    (present : network.connections client = some connection) (stage : after.stage = connection.stage)
    (other : κ) (served : network.serving = some other) :
    other = client ∧ after.stage = .taken ∨ other ≠ client ∧ network.serving = some other := by
  by_cases same : other = client
  · subst same
    obtain ⟨taken, found, isTaken⟩ := sound.serving other served
    cases present.symm.trans found
    exact .inl ⟨rfl, stage.trans isTaken⟩
  · exact .inr ⟨same, served⟩

theorem historyOf_nil (client : κ) (gpio : GPIO.State) :
    historyOf intGpioBase client gpio [] = .empty := rfl

theorem historyOf_asked (gpio : GPIO.State) (request : Request) (other : κ) :
    historyOf intGpioBase other gpio [.asked client request] =
      if client = other then ⟨[request], [], [], []⟩ else .empty := append_empty _

theorem historyOf_handled (gpio : GPIO.State) (operation : Operation) (other : κ) :
    historyOf intGpioBase other gpio [.handled client operation] =
      if client = other then
        ⟨[], [operation], if operation = .getBank then [gpio.server] else [], []⟩
      else .empty := append_empty _

theorem historyOf_received (gpio : GPIO.State) (value : Reg) (other : κ) :
    historyOf intGpioBase other gpio [.received client value] =
      if client = other then ⟨[], [], [], [value]⟩ else .empty := append_empty _

theorem Sound.ask (sound : Sound intGpioBase start log network)
    (present : network.connections client = some connection) (ready : connection.updating = false)
    (request : Request) :
    Sound intGpioBase start (log ++ (ask network client connection request).2)
      (ask network client connection request).1 := by
  obtain ⟨done, pending, unread, follows⟩ := sound.follows present
  unfold GpioServer.ask
  refine sound.put rfl ?_ (fun other differs => ?_) (fun other served => ?_)
  · rw [historyOf_asked, if_pos rfl]
    exact ⟨done, pending ++ [request], unread, follows.ask ready request⟩
  · rw [historyOf_asked, if_neg (Ne.symm differs)]
  · exact sound.serves present rfl other served

theorem Sound.serve (sound : Sound intGpioBase start log network)
    (present : network.connections client = some connection) (served : network.serving = some client)
    {op argument : Byte} {rest : List Byte} (waiting : connection.requests = op :: argument :: rest) :
    Sound intGpioBase start (log ++ (serve network client connection op argument rest).2)
      (serve network client connection op argument rest).1 := by
  obtain ⟨done, pending, unread, follows⟩ := sound.follows present
  obtain ⟨taken, found, isTaken⟩ := sound.serving client served
  cases present.symm.trans found
  have isOpen : connection.Open := .inr isTaken
  obtain ⟨request, others, rfl, means, rfl⟩ := follows.next isOpen waiting
  unfold GpioServer.serve
  dsimp only
  rw [means]
  cases request with
  | getBank =>
      rw [show Request.getBank.meaning = some .getBank from rfl]
      dsimp only
      refine sound.put rfl ?_ (fun other differs => ?_) (fun other served => ?_)
      · rw [historyOf_handled, if_pos rfl, if_pos rfl]
        exact ⟨_, others, _, follows.getBank isOpen network.gpio.server⟩
      · rw [historyOf_handled, if_neg (Ne.symm differs)]
      · exact sound.serves present rfl other served
  | setBit pos val =>
      cases valid : tristate val with
      | none =>
          have invalid : (Request.setBit pos val).meaning = none := by
            rw [Request.meaning, valid]
            rfl
          rw [invalid]
          dsimp only
          refine sound.put rfl ?_ (fun other _ => rfl) (by rintro other ⟨⟩)
          rw [historyOf_nil, append_empty]
          exact ⟨done, _, unread, follows.asked, follows.handled, follows.told,
            fun isOpen => by cases isOpen <;> contradiction, follows.replied, follows.single,
            fun isOpen => by cases isOpen <;> contradiction, follows.view⟩
      | some level =>
          have meaning : (Request.setBit pos val).meaning = some (.setBit ⟨pos.toFin, level⟩) := by
            rw [Request.meaning, valid]
            rfl
          rw [meaning]
          dsimp only
          refine sound.put rfl ?_ (fun other differs => ?_) (fun other served => ?_)
          · rw [historyOf_handled, if_pos rfl, if_neg (by nofun)]
            exact ⟨_, others, unread, follows.setBit isOpen meaning⟩
          · rw [historyOf_handled, if_neg (Ne.symm differs)]
          · exact sound.serves present rfl other served

/-- The guest acts on the pins. -/
theorem Sound.guest (sound : Sound intGpioBase start log network) {event : Event κ}
    (others : ∀ client, historyOf intGpioBase client network.gpio [event] = .empty) :
    Sound intGpioBase start (log ++ [event])
      { network with gpio := GpioServer.after intGpioBase network.gpio event } where
  pins := by
    rw [afterAll_append, sound.pins]
    rfl
  clients client := by
    rw [historyOf_append, sound.pins, others client, append_empty]
    exact sound.clients client
  serving := sound.serving

/-- The connection of a client changes without an event. -/
theorem Sound.quiet (sound : Sound intGpioBase start log network) {serving : Option κ}
    (own : Explained (historyOf intGpioBase client start log) (some after))
    (serves : ∀ other, serving = some other →
      other = client ∧ after.stage = .taken ∨ other ≠ client ∧ network.serving = some other) :
    Sound intGpioBase start (log ++ [])
      ⟨network.gpio, Function.update network.connections client (some after), serving⟩ := by
  refine sound.put rfl ?_ (fun _ _ => rfl) serves
  rwa [historyOf_nil, append_empty]

theorem Follows.unread_nil {history : History} {done pending : List Request} {unread : List Reg}
    (follows : Follows history connection done pending unread) (none : connection.replies = []) :
    unread = [] := by
  have replied := follows.replied
  cases unread with
  | nil => rfl
  | cons value rest =>
      have length := congrArg List.length replied
      rw [none, List.flatMap_cons, List.length_append, length_answerBytes, List.length_nil] at length
      omega

theorem sound_step (sound : Sound intGpioBase start log network) {action : Action κ}
    (taken : step intGpioBase network action = some (next, events)) :
    Sound intGpioBase start (log ++ events) next := by
  cases action with
  | connect client =>
      have explained := sound.clients client
      unfold step at taken
      dsimp only at taken
      cases absent : network.connections client with
      | some connection =>
          rw [absent] at taken
          cases taken
      | none =>
          rw [absent] at taken explained
          cases taken
          refine sound.quiet ⟨[], [], [], ?_⟩ fun other served => ?_
          · rw [show historyOf intGpioBase client start log = .empty from explained]
            exact follows_opened
          · refine .inr ⟨?_, served⟩
            rintro rfl
            obtain ⟨connection, found, -⟩ := sound.serving other served
            rw [absent] at found
            cases found
  | setBit client pos val =>
      obtain ⟨connection, present, taken⟩ := Option.bind_eq_some_iff.mp taken
      split_ifs at taken with updating
      cases taken
      exact sound.ask present (Bool.eq_false_of_not_eq_true updating) _
  | update client =>
      obtain ⟨connection, present, taken⟩ := Option.bind_eq_some_iff.mp taken
      split_ifs at taken with updating
      cases taken
      exact sound.ask present (Bool.eq_false_of_not_eq_true updating) _
  | receive client =>
      obtain ⟨connection, present, taken⟩ := Option.bind_eq_some_iff.mp taken
      split_ifs at taken with arrived
      cases taken
      obtain ⟨done, pending, unread, follows⟩ := sound.follows present
      obtain ⟨rest, received⟩ := follows.receive arrived.2
      refine sound.put rfl ?_ (fun other differs => ?_) (fun other served => ?_)
      · rw [historyOf_received, if_pos rfl]
        exact ⟨done, pending, rest, received⟩
      · rw [historyOf_received, if_neg (Ne.symm differs)]
      · exact sound.serves present rfl other served
  | fail client =>
      obtain ⟨connection, present, taken⟩ := Option.bind_eq_some_iff.mp taken
      split_ifs at taken with closed
      cases taken
      obtain ⟨updating, stage, empty⟩ := closed
      obtain ⟨done, pending, unread, follows⟩ := sound.follows present
      have none := follows.unread_nil empty
      subst none
      refine sound.quiet ⟨done, pending, [], follows.asked, follows.handled, follows.told,
        follows.sent, follows.replied, Nat.zero_le _, fun isOpen => ?_, follows.view⟩ fun other served => ?_
      · rw [Connection.Open, stage] at isOpen
        obtain ⟨⟨⟩⟩ | ⟨⟨⟩⟩ := isOpen
      · exact sound.serves present rfl other served
  | accept client =>
      obtain ⟨connection, present, taken⟩ := Option.bind_eq_some_iff.mp taken
      split_ifs at taken with free
      cases taken
      obtain ⟨done, pending, unread, follows⟩ := sound.follows present
      have isOpen : connection.Open := .inl free.2
      refine sound.quiet ⟨done, pending, unread, follows.asked, follows.handled, follows.told,
        fun _ => follows.sent isOpen, follows.replied, follows.single,
        fun _ => follows.awaited isOpen, follows.view⟩ fun other served => ?_
      cases served
      exact .inl ⟨rfl, rfl⟩
  | handle =>
      obtain ⟨client, served, taken⟩ := Option.bind_eq_some_iff.mp taken
      obtain ⟨connection, present, taken⟩ := Option.bind_eq_some_iff.mp taken
      split at taken
      · rename_i op argument rest waiting
        have served := sound.serve present served waiting
        rwa [Option.some.inj taken] at served
      · cases taken
  | leave =>
      obtain ⟨client, served, taken⟩ := Option.bind_eq_some_iff.mp taken
      obtain ⟨connection, present, taken⟩ := Option.bind_eq_some_iff.mp taken
      cases taken
      obtain ⟨done, pending, unread, follows⟩ := sound.follows present
      refine sound.quiet ⟨done, pending, unread, follows.asked, follows.handled, follows.told,
        fun isOpen => ?_, follows.replied, follows.single, fun isOpen => ?_, follows.view⟩
        (by rintro other ⟨⟩)
      · obtain ⟨⟨⟩⟩ | ⟨⟨⟩⟩ := isOpen
      · obtain ⟨⟨⟩⟩ | ⟨⟨⟩⟩ := isOpen
  | write register new =>
      cases taken
      exact sound.guest fun _ => rfl
  | synchronousChange =>
      cases taken
      exact sound.guest fun _ => rfl

end Network

/-! ## Runs -/

/-- How the events of a run explain what a client has seen. Its requests are handled in order, each
as it was made, and as long as the server handles them the client waits for no more than one answer.
The answers that have arrived are the levels at the moments at which its requests for them were
handled, but for one that is on its way while the client waits. -/
structure Linearized (history : History) (connection : Connection) : Prop where
  ordered : ∃ done pending, history.requests = done ++ pending ∧
    done.map Request.meaning = history.operations.map some ∧
    (connection.Open → connection.updating = false → .getBank ∉ pending)
  answered : ∃ unread, history.levels = history.received ++ unread ∧
    unread.length ≤ connection.updating.toNat
  view : connection.view = history.received.getLast?.getD 0

theorem Follows.linearized {history : History} {connection : Connection} {done pending : List Request}
    {unread : List Reg} (follows : Follows history connection done pending unread) :
    Linearized history connection where
  ordered := by
    refine ⟨done, pending, follows.asked, follows.handled, fun isOpen ready => ?_⟩
    have awaited := follows.awaited isOpen
    rw [ready] at awaited
    have zero : (false).toNat = 0 := rfl
    exact List.count_eq_zero.mp (by omega)
  answered := ⟨unread, follows.told, follows.single⟩
  view := follows.view

/-- One client sets a pin and looks at all of them while another one has to wait, and the guest drives
a pin of its own. -/
def twoClients : List (Action Bool) :=
  [.connect true, .accept true, .connect false, .setBit true 3 1, .update true, .update false,
    .write .outputEn 0x100, .handle, .write .port 0x100, .handle, .receive true, .leave,
    .accept false, .setBit true 4 1, .handle, .receive false]

end SymexVP.GpioServer
