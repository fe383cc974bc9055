import SymexVP.AbstractUart

/-!
# The serial port loses and repeats no byte

A place of the receive queue is free and counted by `rxempty`, filled, claimed by a
granted `rxpush`, or freed by a read that has not posted yet: eight in all, at every
point of every interleaving. A byte of the transmit queue is counted by `txfull`, claimed
by the granted transmit thread, or queued by a write that has not posted yet. The bytes
themselves are followed from the thread that puts them in to the one that takes them out.
-/

namespace SymexVP.AbstractUart

open SymbolicUart (Register)
open ActionRun

/-! ## What the events say -/

/-- The bytes handed to `rxpush`. -/
def pushedRx (log : List Event) : List Byte :=
  log.filterMap fun
    | .pushRx data => some data
    | _ => none

/-- The bytes of the reads of RXDATA that did not find the queue empty. -/
def received (log : List Event) : List Byte :=
  log.filterMap fun
    | .read .rxdata value _ => if value.getLsbD 31 then none else some (value.setWidth 8)
    | _ => none

/-- The low bytes of the writes of TXDATA that were accepted. -/
def acceptedTx (log : List Event) : List Byte :=
  log.filterMap fun
    | .accepted _ _ value => some (value.setWidth 8)
    | _ => none

/-- The bytes passed to `write_data`. -/
def writtenTx (log : List Event) : List Byte :=
  log.filterMap fun
    | .written data => some data
    | _ => none

/-! ## The receive queue -/

/-- Places a granted `rxpush` is about to take. -/
def Receiver.claimed : Receiver → Nat
  | .granted _ => 1
  | _ => 0

/-- Places a read of RXDATA is about to give back. -/
def Kernel.freed : Kernel → Nat
  | .postRxempty _ _ => 1
  | _ => 0

/-- The byte a read of RXDATA has popped and not yet returned. -/
def State.carriedRx (uart : State) : List Byte :=
  match uart.kernel with
  | .postRxempty _ _ => [uart.regs.rxdata.setWidth 8]
  | _ => []

theorem carriedRx_of_freed {uart : State} (idle : uart.kernel.freed = 0) : uart.carriedRx = [] := by
  unfold State.carriedRx
  cases kernel : uart.kernel with
  | postRxempty offset count =>
      rw [kernel] at idle
      cases idle
  | _ => rfl

/-- Every place is free, taken, or about to change hands; the bytes pushed are those read,
the one being read and those in the queue. -/
structure RxSound (log : List Event) (uart : State) : Prop where
  places : uart.rxFifo.length + uart.rxempty + uart.receiver.claimed + uart.kernel.freed = fifoDepth
  order : pushedRx log = received log ++ uart.carriedRx ++ uart.rxFifo
  carried : uart.kernel.freed = 1 → ∃ data : Byte, uart.regs.rxdata = data.setWidth 32
  words : ∀ value data, .read .rxdata value data ∈ log →
    value = full ∨ ∃ byte : Byte, value = byte.setWidth 32
  pops : ∀ fifo, .popRx fifo ∈ log → fifo ≠ []

theorem rxSound_initial : RxSound [] .initial := by
  refine ⟨rfl, rfl, ?_, ?_, ?_⟩
  · rintro ⟨⟩
  · rintro value data ⟨⟩
  · rintro fifo ⟨⟩

/-- The event is none of those the invariant speaks of. -/
def Event.besidesRx : Event → Bool
  | .pushRx _ | .popRx _ | .read .rxdata _ _ => false
  | _ => true

theorem pushedRx_append (log events : List Event) :
    pushedRx (log ++ events) = pushedRx log ++ pushedRx events := List.filterMap_append

theorem received_append (log events : List Event) :
    received (log ++ events) = received log ++ received events := List.filterMap_append

theorem notEmpty_byte (byte : Byte) : (byte.setWidth 32).getLsbD 31 = false := by simp

theorem received_read {value : BitVec 32} (filled : value.getLsbD 31 = false) (data : List Byte) :
    received [.read .rxdata value data] = [value.setWidth 8] := by
  simp only [received, List.filterMap_cons, filled, Bool.false_eq_true, if_false,
    List.filterMap_nil]

theorem silent_besidesRx {events : List Event} (besides : events.all Event.besidesRx) :
    pushedRx events = [] ∧ received events = [] := by
  rw [List.all_eq_true] at besides
  constructor
  · refine List.filterMap_eq_nil_iff.mpr ?_
    intro event member
    have := besides event member
    cases event with
    | pushRx data => cases this
    | _ => rfl
  · refine List.filterMap_eq_nil_iff.mpr ?_
    intro event member
    have := besides event member
    cases event with
    | read register value data =>
        cases register with
        | rxdata => cases this
        | _ => rfl
    | _ => rfl

/-- An action that leaves the receive queue alone. -/
theorem RxSound.frame {log events : List Event} {uart next : State} (sound : RxSound log uart)
    (fifo : next.rxFifo = uart.rxFifo) (count : next.rxempty = uart.rxempty)
    (claimed : next.receiver.claimed = uart.receiver.claimed)
    (kernel : uart.kernel.freed = 0 ∧ next.kernel.freed = 0 ∨
      next.kernel = uart.kernel ∧ next.regs = uart.regs)
    (besides : events.all Event.besidesRx) : RxSound (log ++ events) next := by
  have places : next.kernel.freed = uart.kernel.freed := by
    rcases kernel with ⟨before, after⟩ | ⟨same, -⟩
    · rw [before, after]
    · rw [same]
  have carriedRx : next.carriedRx = uart.carriedRx := by
    rcases kernel with ⟨before, after⟩ | ⟨same, regs⟩
    · rw [carriedRx_of_freed before, carriedRx_of_freed after]
    · simp only [State.carriedRx, same, regs]
  obtain ⟨pushed, read⟩ := silent_besidesRx besides
  rw [List.all_eq_true] at besides
  constructor
  · rw [fifo, count, claimed, places]
    exact sound.places
  · rw [pushedRx_append, received_append, pushed, read, List.append_nil, List.append_nil, carriedRx,
      fifo]
    exact sound.order
  · intro freed
    rcases kernel with ⟨before, after⟩ | ⟨same, regs⟩
    · rw [after] at freed
      cases freed
    · rw [regs]
      rw [same] at freed
      exact sound.carried freed
  · intro value data member
    rcases List.mem_append.mp member with old | new
    · exact sound.words value data old
    · cases besides _ new
  · intro queue member
    rcases List.mem_append.mp member with old | new
    · exact sound.pops queue old
    · cases besides _ new

/-- A place is claimed. -/
theorem RxSound.swaitRxempty {log : List Event} {uart : State} {count : Nat}
    (sound : RxSound log uart) (idle : uart.receiver = .idle) (free : uart.rxempty = count + 1)
    (data : Byte) :
    RxSound (log ++ []) { uart with rxempty := count, receiver := .granted data } := by
  have places := sound.places
  rw [idle, free] at places
  rw [List.append_nil]
  refine ⟨?_, sound.order, sound.carried, sound.words, sound.pops⟩
  simp only [Receiver.claimed] at places ⊢
  omega

/-- A claimed place is filled. -/
theorem RxSound.pushRx {log : List Event} {uart : State} {data : Byte} (sound : RxSound log uart)
    (granted : uart.receiver = .granted data) :
    RxSound (log ++ [.pushRx data])
      { uart with rxFifo := uart.rxFifo ++ [data], receiver := .pushed } := by
  have places := sound.places
  rw [granted] at places
  refine ⟨?_, ?_, sound.carried, ?_, ?_⟩
  · simp only [Receiver.claimed, List.length_append, List.length_singleton] at places ⊢
    omega
  · rw [pushedRx_append, received_append, sound.order]
    simp [pushedRx, received, State.carriedRx]
  · intro value data member
    exact sound.words value data (by simpa using member)
  · intro fifo member
    exact sound.pops fifo (by simpa using member)

/-- A read of RXDATA is finished with a byte that was popped. -/
theorem RxSound.answer {log : List Event} {uart : State} {offset count : Nat}
    (sound : RxSound log uart) (popped : uart.kernel = .postRxempty offset count) :
    RxSound (log ++ (finishRead { uart with rxempty := uart.rxempty + 1 } .rxdata offset count).2)
      (finishRead { uart with rxempty := uart.rxempty + 1 } .rxdata offset count).1 := by
  have places := sound.places
  have order := sound.order
  obtain ⟨byte, loaded⟩ := sound.carried (by rw [popped]; rfl)
  rw [popped] at places
  simp only [State.carriedRx, popped] at order
  refine ⟨?_, ?_, ?_, ?_, ?_⟩
  · simp only [finishRead, Kernel.freed] at places ⊢
    omega
  · rw [pushedRx_append, received_append, order]
    simp only [finishRead, Registers.get, received_read (loaded ▸ notEmpty_byte byte)]
    simp [pushedRx, State.carriedRx]
  · rintro ⟨⟩
  · intro value data member
    rcases List.mem_append.mp member with old | new
    · exact sound.words value data old
    · simp only [finishRead, List.mem_singleton, Event.read.injEq] at new
      obtain ⟨-, rfl, -⟩ := new
      exact .inr ⟨byte, loaded⟩
  · intro fifo member
    exact sound.pops fifo (by simpa [finishRead] using member)

/-- A read of RXDATA finds the queue empty, or pops its front. -/
theorem RxSound.readRxdata {log : List Event} {uart : State} (sound : RxSound log uart)
    (idle : uart.kernel = .idle) (offset count : Nat) :
    RxSound (log ++ (readAccess uart .rxdata offset count).2)
      (readAccess uart .rxdata offset count).1 := by
  have places := sound.places
  have order := sound.order
  rw [idle] at places
  simp only [State.carriedRx, idle, List.append_nil] at order
  cases queue : uart.rxFifo with
  | nil =>
      rw [queue] at places order
      simp only [readAccess, queue]
      refine ⟨?_, ?_, ?_, ?_, ?_⟩
      · simp only [finishRead]
        exact places
      · rw [pushedRx_append, received_append, order]
        simp [pushedRx, received, finishRead, State.carriedRx, Registers.get, full]
      · rintro ⟨⟩
      · intro value data member
        rcases List.mem_append.mp member with old | new
        · exact sound.words value data old
        · simp only [finishRead, List.mem_singleton, Event.read.injEq] at new
          obtain ⟨-, rfl, -⟩ := new
          exact .inl rfl
      · intro fifo member
        exact sound.pops fifo (by simpa [finishRead] using member)
  | cons byte rest =>
      rw [queue] at places order
      simp only [readAccess, queue]
      refine ⟨?_, ?_, ?_, ?_, ?_⟩
      · simp only [Kernel.freed, List.length_cons] at places ⊢
        omega
      · rw [pushedRx_append, received_append, order]
        simp [pushedRx, received, State.carriedRx]
      · rintro -
        exact ⟨byte, rfl⟩
      · intro value data member
        exact sound.words value data (by simpa using member)
      · intro fifo member
        rcases List.mem_append.mp member with old | new
        · exact sound.pops fifo old
        · simp only [List.mem_singleton, Event.popRx.injEq] at new
          rw [new]
          exact List.cons_ne_nil byte rest

theorem RxSound.readAccess {log : List Event} {uart : State} (sound : RxSound log uart)
    (idle : uart.kernel = .idle) (register : Register) (offset count : Nat) :
    RxSound (log ++ (readAccess uart register offset count).2)
      (readAccess uart register offset count).1 := by
  have freed : uart.kernel.freed = 0 := by rw [idle]; rfl
  cases register with
  | rxdata => exact sound.readRxdata idle offset count
  | _ => exact sound.frame rfl rfl rfl (.inl ⟨freed, rfl⟩) rfl

theorem RxSound.writeAccess {log : List Event} {uart : State} (sound : RxSound log uart)
    (idle : uart.kernel = .idle) (register : Register) (offset : Nat) (data : List Byte) :
    RxSound (log ++ (writeAccess uart register offset data).2)
      (writeAccess uart register offset data).1 := by
  have freed : uart.kernel.freed = 0 := by rw [idle]; rfl
  simp only [AbstractUart.writeAccess]
  split_ifs
  · exact sound.frame rfl rfl rfl (.inl ⟨freed, freed⟩) rfl
  · exact sound.frame rfl rfl rfl (.inl ⟨freed, rfl⟩) rfl
  · exact sound.frame rfl rfl rfl (.inl ⟨freed, freed⟩) rfl

theorem RxSound.resume {log events : List Event} {uart next : State} (sound : RxSound log uart)
    (taken : resume uart = some (next, events)) : RxSound (log ++ events) next := by
  unfold AbstractUart.resume at taken
  cases kernel : uart.kernel with
  | idle => rw [kernel] at taken; cases taken
  | postRxempty offset count =>
      rw [kernel] at taken
      cases taken
      exact sound.answer kernel
  | readIp ret offset count =>
      rw [kernel] at taken
      cases taken
      exact sound.frame rfl rfl rfl (.inl ⟨by rw [kernel]; rfl, rfl⟩) rfl
  | postTxfull =>
      rw [kernel] at taken
      cases taken
      exact sound.frame rfl rfl rfl (.inl ⟨by rw [kernel]; rfl, rfl⟩) rfl
  | interrupt trigger =>
      rw [kernel] at taken
      simp only [Option.some.injEq, Prod.mk.injEq] at taken
      obtain ⟨rfl, rfl⟩ := taken
      refine sound.frame rfl rfl rfl (.inl ⟨by rw [kernel]; rfl, rfl⟩) ?_
      split_ifs <;> rfl

/-! ## The transmit queue -/

/-- The byte a granted transmit thread is about to pop. -/
def Transmitter.claimed : Transmitter → Nat
  | .granted => 1
  | _ => 0

/-- The byte the transmit thread has popped and not yet written. -/
def Transmitter.carried : Transmitter → List Byte
  | .popped data | .notified data => [data]
  | _ => []

/-- The byte a write of TXDATA has queued and not yet posted. -/
def Kernel.queued : Kernel → Nat
  | .postTxfull => 1
  | _ => 0

/-- Every byte in the queue is counted, claimed, or about to be counted; the bytes accepted are
those written, the one being written and those in the queue. -/
structure TxSound (log : List Event) (uart : State) : Prop where
  items : uart.txFifo.length = uart.txfull + uart.transmitter.claimed + uart.kernel.queued
  room : uart.txFifo.length ≤ fifoDepth
  order : acceptedTx log = writtenTx log ++ uart.transmitter.carried ++ uart.txFifo
  lowBytes : ∀ byte rest value, .accepted 0 (byte :: rest) value ∈ log → value.setWidth 8 = byte
  pops : ∀ fifo, .popTx fifo ∈ log → fifo ≠ []
  drops : ∀ fifo, .dropped fifo ∈ log → fifo.length = fifoDepth

theorem txSound_initial : TxSound [] .initial := by
  refine ⟨rfl, Nat.zero_le _, rfl, ?_, ?_, ?_⟩
  · rintro byte rest value ⟨⟩
  · rintro fifo ⟨⟩
  · rintro fifo ⟨⟩

def Event.besidesTx : Event → Bool
  | .accepted _ _ _ | .popTx _ | .dropped _ | .written _ => false
  | _ => true

theorem acceptedTx_append (log events : List Event) :
    acceptedTx (log ++ events) = acceptedTx log ++ acceptedTx events := List.filterMap_append

theorem writtenTx_append (log events : List Event) :
    writtenTx (log ++ events) = writtenTx log ++ writtenTx events := List.filterMap_append

theorem silent_besidesTx {events : List Event} (besides : events.all Event.besidesTx) :
    acceptedTx events = [] ∧ writtenTx events = [] := by
  rw [List.all_eq_true] at besides
  constructor
  · refine List.filterMap_eq_nil_iff.mpr ?_
    intro event member
    have := besides event member
    cases event with
    | accepted offset data value => cases this
    | _ => rfl
  · refine List.filterMap_eq_nil_iff.mpr ?_
    intro event member
    have := besides event member
    cases event with
    | written data => cases this
    | _ => rfl

/-- An action that leaves the transmit queue and its bytes alone, but for moving a count. -/
theorem TxSound.frame {log events : List Event} {uart next : State} (sound : TxSound log uart)
    (fifo : next.txFifo = uart.txFifo)
    (items : next.txfull + next.transmitter.claimed + next.kernel.queued =
      uart.txfull + uart.transmitter.claimed + uart.kernel.queued)
    (carried : next.transmitter.carried = uart.transmitter.carried)
    (besides : events.all Event.besidesTx) : TxSound (log ++ events) next := by
  obtain ⟨accepted, written⟩ := silent_besidesTx besides
  rw [List.all_eq_true] at besides
  constructor
  · rw [fifo, items]
    exact sound.items
  · rw [fifo]
    exact sound.room
  · rw [acceptedTx_append, writtenTx_append, accepted, written, List.append_nil, List.append_nil,
      carried, fifo]
    exact sound.order
  · intro byte rest value member
    rcases List.mem_append.mp member with old | new
    · exact sound.lowBytes byte rest value old
    · cases besides _ new
  · intro queue member
    rcases List.mem_append.mp member with old | new
    · exact sound.pops queue old
    · cases besides _ new
  · intro queue member
    rcases List.mem_append.mp member with old | new
    · exact sound.drops queue old
    · cases besides _ new

/-- The transmit thread pops a byte that is there. -/
theorem TxSound.popTx {log : List Event} {uart : State} (sound : TxSound log uart)
    (granted : uart.transmitter = .granted) :
    TxSound (log ++ [.popTx uart.txFifo])
      { uart with
        txFifo := uart.txFifo.tail
        transmitter := .popped (uart.txFifo.headD 0) } := by
  have items := sound.items
  have room := sound.room
  have order := sound.order
  rw [granted] at items order
  cases queue : uart.txFifo with
  | nil =>
      rw [queue] at items
      simp only [Transmitter.claimed, List.length_nil] at items
      omega
  | cons byte rest =>
      rw [queue] at items room order
      simp only [Transmitter.claimed, Transmitter.carried, List.length_cons, List.append_nil]
        at items room order
      refine ⟨?_, ?_, ?_, ?_, ?_, ?_⟩
      · simp only [Transmitter.claimed, List.tail_cons]
        omega
      · simp only [List.tail_cons]
        omega
      · rw [acceptedTx_append, writtenTx_append, order]
        simp [acceptedTx, writtenTx, Transmitter.carried]
      · intro first others value member
        exact sound.lowBytes first others value (by simpa using member)
      · intro fifo member
        rcases List.mem_append.mp member with old | new
        · exact sound.pops fifo old
        · simp only [List.mem_singleton, Event.popTx.injEq] at new
          rw [new]
          exact List.cons_ne_nil byte rest
      · intro fifo member
        exact sound.drops fifo (by simpa using member)

theorem TxSound.writeData {log : List Event} {uart : State} {data : Byte}
    (sound : TxSound log uart) (notified : uart.transmitter = .notified data) :
    TxSound (log ++ [.written data]) { uart with transmitter := .waiting } := by
  have items := sound.items
  have order := sound.order
  rw [notified] at items order
  refine ⟨items, sound.room, ?_, ?_, ?_, ?_⟩
  · rw [acceptedTx_append, writtenTx_append, order]
    simp [acceptedTx, writtenTx, Transmitter.carried]
  · intro first others value member
    exact sound.lowBytes first others value (by simpa using member)
  · intro fifo member
    exact sound.pops fifo (by simpa using member)
  · intro fifo member
    exact sound.drops fifo (by simpa using member)

/-- A write behind the low byte leaves it as it is. -/
theorem lowByte_writeBytes_succ (value : BitVec 32) (offset : Nat) (data : List Byte) :
    (writeBytes value (offset + 1) data).setWidth 8 = value.setWidth 8 := by
  induction data generalizing value offset with
  | nil => rfl
  | cons byte rest later =>
      rw [writeBytes, later]
      apply BitVec.eq_of_getLsbD_eq
      intro index inside
      have below : index < 8 * (offset + 1) := by omega
      simp [BitFields.setField, BitFields.getLsbD_merge, BitFields.fieldMask, below]

/-- The low byte of a register is the first byte of a write that starts there. -/
theorem lowByte_writeBytes (value : BitVec 32) (byte : Byte) (rest : List Byte) :
    (writeBytes value 0 (byte :: rest)).setWidth 8 = byte := by
  rw [writeBytes, lowByte_writeBytes_succ]
  apply BitVec.eq_of_getLsbD_eq
  intro index inside
  have wide : index < 32 := by omega
  rw [BitFields.setField, BitVec.getLsbD_setWidth, BitFields.getLsbD_merge,
    BitFields.getLsbD_fieldMask _ _ _ (by decide)]
  simp [inside, wide]

/-- A write of TXDATA is dropped if the queue is full, and queued if it is not. -/
theorem TxSound.writeTxdata {log : List Event} {uart : State} (sound : TxSound log uart)
    (idle : uart.kernel = .idle) (offset : Nat) (data : List Byte) :
    TxSound (log ++ (writeAccess uart .txdata offset data).2)
      (writeAccess uart .txdata offset data).1 := by
  have items := sound.items
  have room := sound.room
  simp only [AbstractUart.writeAccess, if_true]
  split_ifs with filled
  · refine ⟨items, room, ?_, ?_, ?_, ?_⟩
    · rw [acceptedTx_append, writtenTx_append, sound.order]
      simp [acceptedTx, writtenTx]
    · intro first others value member
      exact sound.lowBytes first others value (by simpa using member)
    · intro fifo member
      exact sound.pops fifo (by simpa using member)
    · intro fifo member
      rcases List.mem_append.mp member with old | new
      · exact sound.drops fifo old
      · simp only [List.mem_singleton, Event.dropped.injEq] at new
        rw [new]
        exact Nat.le_antisymm room filled
  · rw [idle] at items
    refine ⟨?_, ?_, ?_, ?_, ?_, ?_⟩
    · simp only [Kernel.queued, List.length_append, List.length_singleton] at items ⊢
      omega
    · simp only [List.length_append, List.length_singleton]
      omega
    · rw [acceptedTx_append, writtenTx_append, sound.order]
      simp [acceptedTx, writtenTx]
    · intro first others value member
      rcases List.mem_append.mp member with old | new
      · exact sound.lowBytes first others value old
      · simp only [List.mem_singleton, Event.accepted.injEq] at new
        obtain ⟨rfl, rfl, rfl⟩ := new
        exact lowByte_writeBytes _ first others
    · intro fifo member
      exact sound.pops fifo (by simpa using member)
    · intro fifo member
      exact sound.drops fifo (by simpa using member)

theorem TxSound.writeAccess {log : List Event} {uart : State} (sound : TxSound log uart)
    (idle : uart.kernel = .idle) (register : Register) (offset : Nat) (data : List Byte) :
    TxSound (log ++ (writeAccess uart register offset data).2)
      (writeAccess uart register offset data).1 := by
  cases register with
  | txdata => exact sound.writeTxdata idle offset data
  | _ => exact sound.frame rfl rfl rfl rfl

theorem TxSound.readAccess {log : List Event} {uart : State} (sound : TxSound log uart)
    (idle : uart.kernel = .idle) (register : Register) (offset count : Nat) :
    TxSound (log ++ (readAccess uart register offset count).2)
      (readAccess uart register offset count).1 := by
  have queued : uart.kernel.queued = 0 := by rw [idle]; rfl
  cases register with
  | rxdata =>
      simp only [AbstractUart.readAccess]
      cases uart.rxFifo with
      | nil => exact sound.frame rfl (by rw [queued]; rfl) rfl rfl
      | cons byte rest => exact sound.frame rfl (by rw [queued]; rfl) rfl rfl
  | _ => exact sound.frame rfl (by rw [queued]; rfl) rfl rfl

theorem TxSound.resume {log events : List Event} {uart next : State} (sound : TxSound log uart)
    (taken : resume uart = some (next, events)) : TxSound (log ++ events) next := by
  unfold AbstractUart.resume at taken
  cases kernel : uart.kernel with
  | idle => rw [kernel] at taken; cases taken
  | postRxempty offset count =>
      rw [kernel] at taken
      cases taken
      exact sound.frame rfl (by rw [kernel]; rfl) rfl rfl
  | readIp ret offset count =>
      rw [kernel] at taken
      cases taken
      exact sound.frame rfl (by rw [kernel]; rfl) rfl rfl
  | postTxfull =>
      rw [kernel] at taken
      cases taken
      refine sound.frame rfl ?_ rfl rfl
      rw [kernel]
      simp only [Kernel.queued]
      omega
  | interrupt trigger =>
      rw [kernel] at taken
      simp only [Option.some.injEq, Prod.mk.injEq] at taken
      obtain ⟨rfl, rfl⟩ := taken
      refine sound.frame rfl (by rw [kernel]; rfl) rfl ?_
      split_ifs <;> rfl

/-! ## Runs -/

def Sound (log : List Event) (uart : State) : Prop := RxSound log uart ∧ TxSound log uart

/-- Every action of every thread keeps both queues sound. -/
theorem Sound.step {log events : List Event} {uart next : State} {action : Action}
    (sound : Sound log uart) (taken : step uart action = some (next, events)) :
    Sound (log ++ events) next := by
  obtain ⟨rx, tx⟩ := sound
  cases action with
  | swaitRxempty data =>
      simp only [AbstractUart.step] at taken
      split at taken
      case h_1 count idle free =>
        cases taken
        exact ⟨rx.swaitRxempty idle free data, tx.frame rfl rfl rfl rfl⟩
      case h_2 => cases taken
  | pushRx =>
      simp only [AbstractUart.step] at taken
      split at taken
      case h_1 data granted =>
        cases taken
        exact ⟨rx.pushRx granted, tx.frame rfl rfl rfl rfl⟩
      case h_2 => cases taken
  | notifyRx =>
      obtain ⟨pushed, rest⟩ := Option.ite_none_right_eq_some.mp taken
      cases rest
      refine ⟨rx.frame rfl rfl ?_ (.inr ⟨rfl, rfl⟩) rfl, tx.frame rfl rfl rfl rfl⟩
      rw [pushed]
      rfl
  | swaitTxfull =>
      simp only [AbstractUart.step] at taken
      split at taken
      case h_1 count waiting items =>
        cases taken
        refine ⟨rx.frame rfl rfl rfl (.inr ⟨rfl, rfl⟩) rfl, tx.frame rfl ?_ ?_ rfl⟩
        · rw [waiting, items]
          rfl
        · rw [waiting]
          rfl
      case h_2 => cases taken
  | popTx =>
      obtain ⟨granted, rest⟩ := Option.ite_none_right_eq_some.mp taken
      cases rest
      exact ⟨rx.frame rfl rfl rfl (.inr ⟨rfl, rfl⟩) rfl, tx.popTx granted⟩
  | notifyTx =>
      simp only [AbstractUart.step] at taken
      split at taken
      case h_1 data popped =>
        cases taken
        refine ⟨rx.frame rfl rfl rfl (.inr ⟨rfl, rfl⟩) rfl, tx.frame rfl ?_ ?_ rfl⟩
        · rw [popped]
          rfl
        · rw [popped]
          rfl
      case h_2 => cases taken
  | writeData =>
      simp only [AbstractUart.step] at taken
      split at taken
      case h_1 data notified =>
        cases taken
        exact ⟨rx.frame rfl rfl rfl (.inr ⟨rfl, rfl⟩) rfl, tx.writeData notified⟩
      case h_2 => cases taken
  | read address count =>
      simp only [AbstractUart.step] at taken
      split at taken
      case h_1 register idle found =>
        obtain ⟨-, rest⟩ := Option.ite_none_right_eq_some.mp taken
        have pair : readAccess uart register (address % 4) count = (next, events) :=
          Option.some.inj rest
        have kept := And.intro (rx.readAccess idle register (address % 4) count)
          (tx.readAccess idle register (address % 4) count)
        rwa [pair] at kept
      case h_2 => cases taken
  | write address data =>
      simp only [AbstractUart.step] at taken
      split at taken
      case h_1 register idle found =>
        obtain ⟨-, rest⟩ := Option.ite_none_right_eq_some.mp taken
        have pair : writeAccess uart register (address % 4) data = (next, events) :=
          Option.some.inj rest
        have kept := And.intro (rx.writeAccess idle register (address % 4) data)
          (tx.writeAccess idle register (address % 4) data)
        rwa [pair] at kept
      case h_2 => cases taken
  | interrupt =>
      obtain ⟨⟨idle, -⟩, rest⟩ := Option.ite_none_right_eq_some.mp taken
      cases rest
      refine ⟨rx.frame rfl rfl rfl (.inl ⟨?_, rfl⟩) rfl, tx.frame rfl ?_ rfl rfl⟩
      · rw [idle]
        rfl
      · rw [idle]
        rfl
  | resume => exact ⟨rx.resume taken, tx.resume taken⟩

theorem sound_of_perform {actions : List Action} {log : List Event} {uart : State}
    (ran : perform step .initial actions = some (uart, log)) : Sound log uart :=
  perform_invariant (fun sound taken => sound.step taken) ⟨rxSound_initial, txSound_initial⟩ ran

/-- A byte in each direction; the transmit thread stands between its two operations while the
next byte is queued. -/
def exchange : List Action :=
  [.swaitRxempty 0x41, .write 0x0 [0x61, 0, 0, 0], .resume, .swaitTxfull, .pushRx, .popTx,
    .write 0x0 [0x62], .resume, .read 0x4 4, .notifyTx, .resume, .writeData]

end SymexVP.AbstractUart
