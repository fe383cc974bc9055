import SymexVP.AbstractUart

/-!
# Watermark interrupts of the serial port

The port asks for an interrupt when it notifies `asyncEvent`, and decides then. It has to
notify with every step that brings an enabled watermark up. Steps of the threads notify
always. Of the writes to the control registers those notify that lower a count: that
brings up the watermark of the receive queue, while the one of the transmit queue comes
up when its count is raised. The count is compared before it is stored, with the word at
the data pointer.
-/

namespace SymexVP.AbstractUart

open SymbolicUart (Register find txwm rxwm ctrlCnt newValue)
open ActionRun

/-! ## Watermarks -/

/-- What a read of IP finds. -/
def watermarks (uart : State) : BitVec 32 :=
  (if uart.txFifo.length < ctrlCnt uart.regs.txctrl then txwm else 0) |||
    if ctrlCnt uart.regs.rxctrl < uart.rxFifo.length then rxwm else 0

/-- `ie & ip`. -/
def raised (uart : State) : Bool := uart.regs.ie &&& watermarks uart != 0

/-- The watermark of the transmit queue is enabled and up. -/
def TxRaised (uart : State) : Prop :=
  uart.regs.ie &&& txwm ≠ 0 ∧ uart.txFifo.length < ctrlCnt uart.regs.txctrl

def RxRaised (uart : State) : Prop :=
  uart.regs.ie &&& rxwm ≠ 0 ∧ ctrlCnt uart.regs.rxctrl < uart.rxFifo.length

theorem and_ite_ne_zero (word bit : BitVec 32) (condition : Prop) [Decidable condition] :
    (word &&& if condition then bit else 0) ≠ 0 ↔ word &&& bit ≠ 0 ∧ condition := by
  split_ifs with holds
  · rw [and_iff_left holds]
  · simp [holds]

theorem raised_iff (uart : State) : raised uart = true ↔ TxRaised uart ∨ RxRaised uart := by
  rw [raised, watermarks, bne_iff_ne, BitVec.and_or_distrib_left]
  refine (not_congr BitVec.or_eq_zero_iff).trans ?_
  rw [not_and_or]
  exact or_congr (and_ite_ne_zero ..) (and_ite_ne_zero ..)

/-- A read of IP gives the watermarks. -/
theorem ip_of_read {uart : State} (idle : uart.kernel = .idle) :
    (perform step uart [.read 0x14 4, .resume]).map (·.1.regs.ip) = some (watermarks uart) := by
  have register : find 0x14 = some .ip := by decide
  by_cases above : ctrlCnt uart.regs.rxctrl < uart.rxFifo.length
  · simp [perform, step, idle, register, readAccess, resume, finishRead, watermarks, above]
  · simp [perform, step, idle, register, readAccess, resume, finishRead, watermarks, above]

/-- A state in which no watermark is up that was not up before. -/
structure Quieter (before after : State) : Prop where
  ie : after.regs.ie = before.regs.ie
  txctrl : ctrlCnt after.regs.txctrl ≤ ctrlCnt before.regs.txctrl
  rxctrl : ctrlCnt before.regs.rxctrl ≤ ctrlCnt after.regs.rxctrl
  txFifo : before.txFifo.length ≤ after.txFifo.length
  rxFifo : after.rxFifo.length ≤ before.rxFifo.length

theorem Quieter.raised {before after : State} (quieter : Quieter before after)
    (up : raised after = true) : AbstractUart.raised before = true := by
  obtain ⟨ie, txctrl, rxctrl, txFifo, rxFifo⟩ := quieter
  rw [raised_iff] at up ⊢
  unfold TxRaised RxRaised at up ⊢
  rw [ie] at up
  rcases up with ⟨enabled, below⟩ | ⟨enabled, above⟩
  · exact .inl ⟨enabled, by omega⟩
  · exact .inr ⟨enabled, by omega⟩

/-! ## Steps -/

/-- The calls of the threads, taken as a whole. The bytes behind the data of a write are those
its pointer reaches beyond them. -/
inductive Call
  | write (address : Nat) (data behind : List Byte)
  | read (address count : Nat)
  | rxpush (data : Byte)
  /-- A round of `transmit`. -/
  | transmit
  deriving DecidableEq

/-- A write whose notification is decided with the word `nv`. -/
def writeAccessNv (uart : State) (register : Register) (offset : Nat) (data : List Byte)
    (nv : BitVec 32) : State :=
  { (writeAccess uart register offset data).1 with
    event := uart.event || (lowersThreshold uart.regs nv register || register == .ie) }

/-- With nothing behind the data this is the write of the model. -/
theorem writeAccessNv_newValue (uart : State) (register : Register) (offset : Nat)
    (data : List Byte) :
    writeAccessNv uart register offset data (newValue data) =
      (writeAccess uart register offset data).1 := by
  unfold writeAccessNv writeAccess
  dsimp only
  split_ifs <;> rfl

/-- The simulator's thread ends its access. -/
def finished (uart : State) : State :=
  match resume uart with
  | some (next, _) => next
  | none => uart

def Call.take (uart : State) : Call → Option State
  | .write address data behind =>
      match uart.kernel, find address with
      | .idle, some register =>
          if data.length + address % 4 ≤ 4 then
            some (finished (writeAccessNv uart register (address % 4) data
              (newValue (data ++ behind))))
          else none
      | _, _ => none
  | .read address count => (step uart (.read address count)).map fun (next, _) => finished next
  | .rxpush data =>
      (perform step uart [.swaitRxempty data, .pushRx, .notifyRx]).map fun (next, _) => next
  | .transmit => (perform step uart [.swaitTxfull, .popTx, .notifyTx]).map fun (next, _) => next

theorem take_write_nil (uart : State) (address : Nat) (data : List Byte) :
    (Call.write address data []).take uart =
      (step uart (.write address data)).map fun (next, _) => finished next := by
  unfold Call.take step
  dsimp only
  rw [List.append_nil]
  cases uart.kernel with
  | idle =>
      cases find address with
      | none => rfl
      | some register =>
          dsimp only
          rw [writeAccessNv_newValue]
          split_ifs <;> rfl
  | _ => rfl

/-- The call notifies if it brings an enabled watermark up, and the process then triggers. -/
def Signals (uart : State) (call : Call) : Prop :=
  ∀ last, call.take { uart with event := false } = some last → raised uart = false →
    raised last = true → last.event = true ∧ (last.kernel = .idle →
      ∃ next shown, perform step last [.interrupt, .resume] = some (next, shown) ∧
        .triggered ∈ shown)

/-- A write to a control register that brings a watermark up without the comparison of the
counts to show for it. -/
def Forgets (uart : State) : Call → Prop
  | .write address data behind =>
      uart.kernel = .idle ∧ data.length + address % 4 ≤ 4 ∧
        (find address = some .txctrl ∧ uart.regs.ie &&& txwm ≠ 0 ∧ ¬RxRaised uart ∧
            ctrlCnt uart.regs.txctrl ≤ uart.txFifo.length ∧
            uart.txFifo.length < ctrlCnt (writeBytes uart.regs.txctrl (address % 4) data) ∧
            ctrlCnt uart.regs.txctrl ≤ ctrlCnt (newValue (data ++ behind)) ∨
          find address = some .rxctrl ∧ uart.regs.ie &&& rxwm ≠ 0 ∧ ¬TxRaised uart ∧
            uart.rxFifo.length ≤ ctrlCnt uart.regs.rxctrl ∧
            ctrlCnt (writeBytes uart.regs.rxctrl (address % 4) data) < uart.rxFifo.length ∧
            ctrlCnt uart.regs.rxctrl ≤ ctrlCnt (newValue (data ++ behind)))
  | _ => False

/-! ## Writes -/

/-- What is left of a write when the access has ended. -/
theorem finished_writeAccessNv {uart : State} (idle : uart.kernel = .idle) (register : Register)
    (offset : Nat) (data : List Byte) (nv : BitVec 32) :
    let last := finished (writeAccessNv uart register offset data nv)
    last.regs = uart.regs.set (writeBytes (uart.regs.get register) offset data) register ∧
      last.rxFifo = uart.rxFifo ∧ last.kernel = .idle ∧
      last.event = (uart.event || (lowersThreshold uart.regs nv register || register == .ie)) ∧
      uart.txFifo.length ≤ last.txFifo.length ∧
      (register ≠ .txdata → last.txFifo = uart.txFifo) := by
  unfold writeAccessNv writeAccess
  dsimp only
  split_ifs with txdata full
  · simp [finished, resume, idle]
  · simp [finished, resume, txdata]
  · simp [finished, resume, idle]

/-- A write to a register other than those of the watermarks brings none up. -/
theorem quieter_write {uart last : State} {value : BitVec 32} {register : Register}
    (other : register ≠ .ie ∧ register ≠ .txctrl ∧ register ≠ .rxctrl)
    (regs : last.regs = uart.regs.set value register) (rxFifo : last.rxFifo = uart.rxFifo)
    (txFifo : uart.txFifo.length ≤ last.txFifo.length) : Quieter uart last := by
  obtain ⟨notIe, notTxctrl, notRxctrl⟩ := other
  cases register with
  | ie => exact absurd rfl notIe
  | txctrl => exact absurd rfl notTxctrl
  | rxctrl => exact absurd rfl notRxctrl
  | _ =>
      constructor
      · rw [regs]; rfl
      · rw [regs]; exact le_rfl
      · rw [regs]; exact le_rfl
      · exact txFifo
      · rw [rxFifo]

/-! ## Calls -/

/-- The process triggers for a notification with an enabled watermark up. -/
theorem interrupt_triggers {uart : State} (idle : uart.kernel = .idle) (event : uart.event = true)
    (up : raised uart = true) :
    ∃ next shown, perform step uart [.interrupt, .resume] = some (next, shown) ∧
      .triggered ∈ shown := by
  have fires : (uart.regs.ie &&& rxwm != 0 && decide (ctrlCnt uart.regs.rxctrl < uart.rxFifo.length)
      || uart.regs.ie &&& txwm != 0 && decide (uart.txFifo.length < ctrlCnt uart.regs.txctrl)) =
      true := by
    rw [raised_iff] at up
    rw [Bool.or_eq_true, Bool.and_eq_true, Bool.and_eq_true, bne_iff_ne, bne_iff_ne,
      decide_eq_true_iff, decide_eq_true_iff]
    exact up.symm
  refine ⟨{ uart with event := false, kernel := .idle }, [.triggered], ?_,
    List.mem_singleton_self _⟩
  simp only [perform, step, idle, event, and_self, if_true, interrupt, resume, fires,
    Option.map_some, List.nil_append, List.append_nil]

theorem signals_of_event {uart : State} {call : Call}
    (notifies : ∀ last, call.take { uart with event := false } = some last → last.event = true) :
    Signals uart call := by
  intro last taken _ up
  have event := notifies last taken
  exact ⟨event, fun idle => interrupt_triggers idle event up⟩

theorem signals_of_quieter {uart : State} {call : Call}
    (quieter : ∀ last, call.take { uart with event := false } = some last → Quieter uart last) :
    Signals uart call := by
  intro last taken down up
  rw [(quieter last taken).raised up] at down
  cases down

theorem signals_rxpush (uart : State) (data : Byte) : Signals uart (.rxpush data) := by
  refine signals_of_event fun last taken => ?_
  obtain ⟨⟨reached, shown⟩, ran, rfl⟩ := Option.map_eq_some_iff.mp taken
  have ran : perform step _ ([.swaitRxempty data, .pushRx] ++ [.notifyRx]) =
    some (reached, shown) := ran
  obtain ⟨middle, _, _, _, notified, _⟩ := perform_concat ran
  unfold step at notified
  dsimp only at notified
  split_ifs at notified
  cases notified
  rfl

theorem signals_transmit (uart : State) : Signals uart .transmit := by
  refine signals_of_event fun last taken => ?_
  obtain ⟨⟨reached, shown⟩, ran, rfl⟩ := Option.map_eq_some_iff.mp taken
  have ran : perform step _ ([.swaitTxfull, .popTx] ++ [.notifyTx]) = some (reached, shown) := ran
  obtain ⟨middle, _, _, _, notified, _⟩ := perform_concat ran
  unfold step at notified
  dsimp only at notified
  split at notified
  case h_1 =>
    cases notified
    rfl
  case h_2 => cases notified

/-- A read takes at most a byte from the receive queue. -/
theorem quieter_readAccess (uart : State) (register : Register) (offset count : Nat) :
    Quieter uart (finished (readAccess uart register offset count).1) := by
  cases register with
  | rxdata =>
      unfold readAccess
      cases queued : uart.rxFifo with
      | nil => exact ⟨rfl, le_rfl, le_rfl, le_rfl, Nat.zero_le _⟩
      | cons data rest =>
          refine ⟨rfl, le_rfl, le_rfl, le_rfl, ?_⟩
          rw [queued]
          exact Nat.le_succ rest.length
  | _ => exact ⟨rfl, le_rfl, le_rfl, le_rfl, le_rfl⟩

theorem signals_read (uart : State) (address count : Nat) : Signals uart (.read address count) := by
  refine signals_of_quieter fun last taken => ?_
  obtain ⟨⟨next, shown⟩, moved, rfl⟩ := Option.map_eq_some_iff.mp taken
  unfold step at moved
  dsimp only at moved
  split at moved
  case h_1 register _ _ =>
    split_ifs at moved
    obtain rfl := congrArg Prod.fst (Option.some.inj moved)
    obtain ⟨ie, txctrl, rxctrl, txFifo, rxFifo⟩ :=
      quieter_readAccess { uart with event := false } register (address % 4) count
    exact ⟨ie, txctrl, rxctrl, txFifo, rxFifo⟩
  case h_2 => cases moved

/-- What a write does if it is taken. -/
theorem take_write_iff {uart last : State} {address : Nat} {data behind : List Byte} :
    (Call.write address data behind).take uart = some last ↔
      uart.kernel = .idle ∧ data.length + address % 4 ≤ 4 ∧ ∃ register,
        find address = some register ∧
        finished (writeAccessNv uart register (address % 4) data (newValue (data ++ behind))) =
          last := by
  unfold Call.take
  dsimp only
  constructor
  · intro taken
    split at taken
    case h_1 register idle found =>
      split_ifs at taken with short
      exact ⟨idle, short, register, found, Option.some.inj taken⟩
    case h_2 => cases taken
  · rintro ⟨idle, short, register, found, rfl⟩
    rw [idle, found]
    exact if_pos short

section Writes

variable {uart : State} {address : Nat} {data behind : List Byte} {register : Register}

/-- A write that is taken signals if it notifies when it brings a watermark up. -/
theorem signals_write_of_taken (idle : uart.kernel = .idle) (short : data.length + address % 4 ≤ 4)
    (found : find address = some register) :
    let last := finished (writeAccessNv { uart with event := false } register (address % 4) data
      (newValue (data ++ behind)))
    Signals uart (.write address data behind) ↔
      (raised uart = false → raised last = true → last.event = true) := by
  intro last
  have taken : (Call.write address data behind).take { uart with event := false } = some last :=
    take_write_iff.mpr ⟨idle, short, register, found, rfl⟩
  constructor
  · intro signals down up
    exact (signals last taken down up).1
  · intro notifies other taken' down up
    obtain rfl := Option.some.inj (taken.symm.trans taken')
    have event := notifies down up
    exact ⟨event, fun idle => interrupt_triggers idle event up⟩

/-- A notification is missing where this watermark alone comes up. -/
theorem notified_iff {enabled other before after notifies : Prop} :
    (¬(enabled ∧ before ∨ other) → enabled ∧ after ∨ other → notifies) ↔
      ¬(enabled ∧ ¬other ∧ ¬before ∧ after ∧ ¬notifies) := by
  constructor
  · rintro notified ⟨on, calm, low, up, silent⟩
    refine silent (notified ?_ (.inl ⟨on, up⟩))
    rintro (⟨_, above⟩ | raised)
    · exact low above
    · exact calm raised
  · intro kept down up
    by_contra silent
    rcases up with ⟨on, up⟩ | raised
    · exact kept ⟨on, fun raised => down (.inr raised), fun above => down (.inl ⟨on, above⟩), up,
        silent⟩
    · exact down (.inr raised)

theorem signals_txctrl_iff (idle : uart.kernel = .idle) (short : data.length + address % 4 ≤ 4)
    (found : find address = some .txctrl) :
    Signals uart (.write address data behind) ↔ ¬Forgets uart (.write address data behind) := by
  refine (signals_write_of_taken idle short found).trans ?_
  obtain ⟨regs, rxFifo, _, event, _, txFifo⟩ := finished_writeAccessNv
    (show ({ uart with event := false } : State).kernel = .idle from idle) .txctrl (address % 4)
    data (newValue (data ++ behind))
  generalize finished _ = last at regs rxFifo event txFifo ⊢
  have txFifo : last.txFifo = uart.txFifo := txFifo (by decide)
  have tx : TxRaised last ↔ uart.regs.ie &&& txwm ≠ 0 ∧ uart.txFifo.length <
      ctrlCnt (writeBytes uart.regs.txctrl (address % 4) data) := by
    rw [TxRaised, regs, txFifo]
    rfl
  have rx : RxRaised last ↔ RxRaised uart := by
    rw [RxRaised, regs, rxFifo]
    rfl
  have notifies : last.event = true ↔
      ctrlCnt (newValue (data ++ behind)) < ctrlCnt uart.regs.txctrl := by
    rw [event]
    simp [lowersThreshold]
  rw [← Bool.not_eq_true, raised_iff, raised_iff, tx, rx, notifies, TxRaised, notified_iff]
  simp only [Forgets, idle, short, found, true_and, Option.some.injEq, reduceCtorEq, false_and,
    or_false, not_lt]

theorem signals_rxctrl_iff (idle : uart.kernel = .idle) (short : data.length + address % 4 ≤ 4)
    (found : find address = some .rxctrl) :
    Signals uart (.write address data behind) ↔ ¬Forgets uart (.write address data behind) := by
  refine (signals_write_of_taken idle short found).trans ?_
  obtain ⟨regs, rxFifo, _, event, _, txFifo⟩ := finished_writeAccessNv
    (show ({ uart with event := false } : State).kernel = .idle from idle) .rxctrl (address % 4)
    data (newValue (data ++ behind))
  generalize finished _ = last at regs rxFifo event txFifo ⊢
  have txFifo : last.txFifo = uart.txFifo := txFifo (by decide)
  have tx : TxRaised last ↔ TxRaised uart := by
    rw [TxRaised, regs, txFifo]
    rfl
  have rx : RxRaised last ↔ uart.regs.ie &&& rxwm ≠ 0 ∧
      ctrlCnt (writeBytes uart.regs.rxctrl (address % 4) data) < uart.rxFifo.length := by
    rw [RxRaised, regs, rxFifo]
    rfl
  have notifies : last.event = true ↔
      ctrlCnt (newValue (data ++ behind)) < ctrlCnt uart.regs.rxctrl := by
    rw [event]
    simp [lowersThreshold]
  rw [← Bool.not_eq_true, raised_iff, raised_iff, tx, rx, notifies, RxRaised,
    or_comm (a := TxRaised uart), or_comm (a := TxRaised uart), notified_iff]
  simp only [Forgets, idle, short, found, true_and, Option.some.injEq, reduceCtorEq, false_and,
    false_or, not_lt]

/-- The other registers do not bring a watermark up, or notify. -/
theorem signals_other_write (idle : uart.kernel = .idle) (short : data.length + address % 4 ≤ 4)
    (found : find address = some register) (notTxctrl : register ≠ .txctrl)
    (notRxctrl : register ≠ .rxctrl) : Signals uart (.write address data behind) := by
  refine (signals_write_of_taken idle short found).mpr ?_
  obtain ⟨regs, rxFifo, _, event, txFifo, _⟩ := finished_writeAccessNv
    (show ({ uart with event := false } : State).kernel = .idle from idle) register (address % 4)
    data (newValue (data ++ behind))
  generalize finished _ = last at regs rxFifo event txFifo ⊢
  intro down up
  by_cases ie : register = .ie
  · rw [event, ie]
    simp
  · have quieter : Quieter uart last :=
      quieter_write ⟨ie, notTxctrl, notRxctrl⟩ regs rxFifo txFifo
    rw [quieter.raised up] at down
    cases down

end Writes

theorem signals_write_iff (uart : State) (address : Nat) (data behind : List Byte) :
    Signals uart (.write address data behind) ↔ ¬Forgets uart (.write address data behind) := by
  by_cases taken : uart.kernel = .idle ∧ data.length + address % 4 ≤ 4 ∧ ∃ register,
      find address = some register
  · obtain ⟨idle, short, register, found⟩ := taken
    by_cases txctrl : register = .txctrl
    · exact signals_txctrl_iff idle short (txctrl ▸ found)
    by_cases rxctrl : register = .rxctrl
    · exact signals_rxctrl_iff idle short (rxctrl ▸ found)
    refine iff_of_true (signals_other_write idle short found txctrl rxctrl) ?_
    rintro ⟨_, _, ⟨same, _⟩ | ⟨same, _⟩⟩
    · exact txctrl (Option.some.inj (found.symm.trans same))
    · exact rxctrl (Option.some.inj (found.symm.trans same))
  · refine iff_of_true ?_ ?_
    · intro last moved
      obtain ⟨idle, short, register, found, _⟩ := take_write_iff.mp moved
      exact absurd ⟨idle, short, register, found⟩ taken
    · rintro ⟨idle, short, ⟨found, _⟩ | ⟨found, _⟩⟩
      · exact taken ⟨idle, short, _, found⟩
      · exact taken ⟨idle, short, _, found⟩

/-- A call signals the watermarks it brings up unless it is a write to a control register that
brings one up without lowering the count it compares. -/
theorem watermark_signalled_iff (uart : State) (call : Call) :
    Signals uart call ↔ ¬Forgets uart call := by
  cases call with
  | write address data behind => exact signals_write_iff uart address data behind
  | read address count => exact iff_of_true (signals_read uart address count) id
  | rxpush data => exact iff_of_true (signals_rxpush uart data) id
  | transmit => exact iff_of_true (signals_transmit uart) id

/-- With TXWM enabled and nothing to transmit, the count of the transmit queue is raised. -/
theorem raised_count_forgotten :
    ¬∀ (actions : List Action) (uart : State) (log : List Event) (call : Call),
      perform step .initial actions = some (uart, log) → Signals uart call := by
  intro claimed
  have shown : (perform step .initial [.write 0x10 [1, 0, 0, 0]]).any (fun (uart, _) =>
      !raised uart && ((Call.write 0x8 [0, 0, 1, 0] []).take { uart with event := false }).any
        fun last => raised last && !last.event) = true := by decide +kernel
  obtain ⟨⟨uart, log⟩, ran, facts⟩ := (Option.any_eq_true _ _).mp shown
  rw [Bool.and_eq_true, Bool.not_eq_true'] at facts
  obtain ⟨down, risen⟩ := facts
  obtain ⟨last, taken, facts⟩ := (Option.any_eq_true _ _).mp risen
  rw [Bool.and_eq_true, Bool.not_eq_true'] at facts
  obtain ⟨up, silent⟩ := facts
  have notified := (claimed _ uart log _ ran last taken down up).1
  rw [silent] at notified
  cases notified

end SymexVP.AbstractUart
