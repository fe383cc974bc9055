import SymexVP.CanSteps

/-!
# Ways back to the first byte of a command

A byte is taken as a command in one state only; in the others it continues a command that
has begun, and the functions keep how far they are in variables of their own. From most
states some bytes lead back to that state with all of these variables as they were. The
states from which none do are those where a function has been given a number it cannot
deal with: it rejects every byte without going back, or leaves its arrays.
-/

namespace SymexVP.Can

open Exec ActionRun

variable {can after : CAN} {byte : Byte}

/-- No command has begun, and no buffer is partly loaded or read. -/
structure Reset (can : CAN) : Prop extends Idle can where
  loadTX : can.loadTX = .initial
  rxPtr : can.rxPtr = 0

theorem PowerOn.reset (powerOn : PowerOn can) : Reset can where
  state := powerOn.state
  readSelected := powerOn.readSelected
  writeSelected := powerOn.writeSelected
  modReg := by rw [powerOn.modReg]
  loadTX := powerOn.loadTX
  rxPtr := powerOn.rxPtr

/-! ## What other commands have left -/

/-- The functions of other states than the current one have nothing begun. -/
structure Tidy (can : CAN) : Prop extends Sound can where
  read : can.state ≠ .readRegister → can.readSelected = -1
  write : can.state ≠ .writeRegister → can.writeSelected = -1
  modify : can.state ≠ .bitmod → can.modReg.state = .address
  receive : receives can.state = false → can.rxPtr = 0

theorem Reset.tidy (reset : Reset can) : Tidy can where
  toSound := sound_of_initial reset.loadTX
  read _ := reset.readSelected
  write _ := reset.writeSelected
  modify _ := reset.modReg
  receive _ := reset.rxPtr

theorem Tidy.reset (tidy : Tidy can) (state : can.state = .init) : Reset can where
  state := state
  readSelected := tidy.read (by rw [state]; nofun)
  writeSelected := tidy.write (by rw [state]; nofun)
  modReg := tidy.modify (by rw [state]; nofun)
  loadTX := tidy.toSound.initial (by rw [state]; rfl)
  rxPtr := tidy.receive (by rw [state]; rfl)

section Tidy

variable (tidy : Tidy can) (step : ByteStep can byte after)

include tidy step

theorem Tidy.read_step : after.state ≠ .readRegister → after.readSelected = -1 := by
  cases step with
  | readSelect state | readNext state => exact fun other => absurd state other
  | readEnd => exact fun _ => rfl
  | send => exact fun other => absurd rfl other
  | command state | writeSelect state | writeHigh state | writeValue state | modifyAddress state
  | modifyMask state | modifyData state | status state =>
      exact fun _ => tidy.read (by rw [state]; nofun)
  | loadId active | loadLength active | loadMore active | loadLast active | receiveMore active
  | receiveLast active =>
      refine fun _ => tidy.read fun state => ?_
      rw [state] at active
      cases active

theorem Tidy.write_step : after.state ≠ .writeRegister → after.writeSelected = -1 := by
  cases step with
  | writeSelect state | writeHigh state => exact fun other => absurd state other
  | writeValue => exact fun _ => rfl
  | command state | readSelect state | readNext state | readEnd state | modifyAddress state
  | modifyMask state | modifyData state | status state =>
      exact fun _ => tidy.write (by rw [state]; nofun)
  | loadId active | loadLength active | loadMore active | loadLast active | send active
  | receiveMore active | receiveLast active =>
      refine fun _ => tidy.write fun state => ?_
      rw [state] at active
      cases active

theorem Tidy.modify_step : after.state ≠ .bitmod → after.modReg.state = .address := by
  cases step with
  | modifyAddress state | modifyMask state => exact fun other => absurd state other
  | modifyData => exact fun _ => rfl
  | command state | readSelect state | readNext state | readEnd state | writeSelect state
  | writeHigh state | writeValue state | status state =>
      exact fun _ => tidy.modify (by rw [state]; nofun)
  | loadId active | loadLength active | loadMore active | loadLast active | send active
  | receiveMore active | receiveLast active =>
      refine fun _ => tidy.modify fun state => ?_
      rw [state] at active
      cases active

theorem Tidy.receive_step : receives after.state = false → after.rxPtr = 0 := by
  cases step with
  | receiveMore receiving =>
      intro other
      rw [receiving] at other
      cases other
  | receiveLast => exact fun _ => rfl
  | command state | readSelect state | readNext state | readEnd state | writeSelect state
  | writeHigh state | writeValue state | modifyAddress state | modifyMask state | modifyData state
  | status state =>
      exact fun _ => tidy.receive (by rw [state]; rfl)
  | loadId active | loadLength active | loadMore active | loadLast active | send active =>
      refine fun _ => tidy.receive ?_
      revert active
      cases can.state <;> first | exact fun _ => rfl | nofun

end Tidy

theorem tidy_takes (tidy : Tidy can) {input : Input} {events : List Event}
    (taken : takes can input = some (after, events)) : Tidy after := by
  have sound := sound_takes tidy.toSound taken
  cases input with
  | byte byte =>
      have step := byteStep_of_takes tidy.toSound taken
      exact ⟨sound, tidy.read_step step, tidy.write_step step, tidy.modify_step step,
        tidy.receive_step step⟩
  | frame frame =>
      obtain ⟨rxBuf, status, stored, -⟩ := @takes_frame can frame
      rw [stored] at taken
      cases taken
      exact ⟨sound, tidy.read, tidy.write, tidy.modify, tidy.receive⟩

/-! ## Stuck states -/

/-- A function has been given a number it can deal with. -/
def Recovers (can : CAN) : Prop :=
  match can.state with
  | .init | .readRegister | .getStatus => True
  | .writeRegister => can.writeSelected.toInt ≤ MCP_RXB1SIDH
  | .bitmod => can.modReg.state ≠ .address → can.modReg.address.toNat ≤ MCP_RXB1SIDH
  | .loadTX0 | .loadTX1 | .loadTX2 =>
      can.loadTX.state = .payload →
        0 < claimedLength can.txBuf (whichBuf can.state) ∧
          claimedLength can.txBuf (whichBuf can.state) ≤ CANFD_MAX_DLEN
  | .sendALL => False
  | .sendTX0 | .sendTX1 | .sendTX2 => claimedLength can.txBuf (whichBuf can.state) ≤ CAN_MAX_DLEN
  | .readRX0 | .readRX1 =>
      can.rxPtr.toNat < 5 + CANFD_MAX_DLEN ∧
        receivedLength can.rxBuf (whichBuf can.state) ≤ CANFD_MAX_DLEN

/-- Some bytes lead back to the first byte of a command. -/
def Returns (can : CAN) : Prop :=
  ∃ (bytes : List Byte) (after : CAN) (log : List Event),
    perform takes can (bytes.map .byte) = some (after, log) ∧ Reset after

theorem recovers_of_state_init (state : can.state = .init) : Recovers can := by
  rw [Recovers, state]
  trivial

theorem recovers_iff_of_loads (loading : loads can.state = true) :
    Recovers can ↔ (can.loadTX.state = .payload →
      0 < claimedLength can.txBuf (whichBuf can.state) ∧
        claimedLength can.txBuf (whichBuf can.state) ≤ CANFD_MAX_DLEN) := by
  unfold Recovers
  cases state : can.state with
  | loadTX0 | loadTX1 | loadTX2 => exact Iff.rfl
  | _ =>
      rw [state] at loading
      cases loading

theorem recovers_iff_of_receives (receiving : receives can.state = true) :
    Recovers can ↔ can.rxPtr.toNat < 5 + CANFD_MAX_DLEN ∧
      receivedLength can.rxBuf (whichBuf can.state) ≤ CANFD_MAX_DLEN := by
  unfold Recovers
  cases state : can.state with
  | readRX0 | readRX1 => exact Iff.rfl
  | _ =>
      rw [state] at receiving
      cases receiving

/-- A byte does not help a function that has been given another number. -/
theorem recovers_of_byteStep (step : ByteStep can byte after) (recovers : Recovers after)
    (begun : can.state ≠ .init) : Recovers can := by
  cases step with
  | command state => exact absurd state begun
  | readSelect state | readNext state | readEnd state | status state =>
      rw [Recovers, state]
      trivial
  | writeSelect state unselected =>
      rw [Recovers, state]
      exact unselected.le.trans (by decide)
  | writeHigh => exact recovers
  | writeValue state selected low =>
      rw [Recovers, state]
      exact low
  | modifyAddress state first =>
      rw [Recovers, state]
      exact fun other => absurd first other
  | modifyMask state first =>
      rw [Recovers, state] at recovers
      rw [Recovers, state]
      exact fun _ => recovers nofun
  | modifyData state first low =>
      rw [Recovers, state]
      exact fun _ => low
  | loadId loading first | loadLength loading first =>
      rw [recovers_iff_of_loads loading, first]
      nofun
  | loadMore loading first inside txBuf claims =>
      have later := (recovers_iff_of_loads (by exact loading)).mp recovers rfl
      rw [recovers_iff_of_loads loading]
      intro _
      rwa [← claims]
  | loadLast loading first inside txBuf last =>
      rw [recovers_iff_of_loads loading]
      intro _
      have up : (can.loadTX.payload_ptr + 1).toNat = can.loadTX.payload_ptr.toNat + 1 := by
        unfold CANFD_MAX_DLEN at inside
        bv_omega
      omega
  | send sending fits =>
      unfold Recovers
      cases state : can.state with
      | sendTX0 | sendTX1 | sendTX2 =>
          rw [state] at fits
          exact fits
      | _ =>
          rw [state] at sending
          cases sending
  | receiveMore receiving inside =>
      have later := (recovers_iff_of_receives (by exact receiving)).mp recovers
      rw [recovers_iff_of_receives receiving]
      exact ⟨inside, later.2⟩
  | receiveLast receiving inside last =>
      rw [recovers_iff_of_receives receiving]
      refine ⟨inside, ?_⟩
      have up : (can.rxPtr + 1).toNat ≤ can.rxPtr.toNat + 1 := by bv_omega
      omega

/-- No bytes lead back from a state that does not recover. -/
theorem recovers_of_perform (tidy : Tidy can) {bytes : List Byte} {log : List Event}
    (performed : perform takes can (bytes.map .byte) = some (after, log))
    (recovers : Recovers after) : Recovers can := by
  induction bytes generalizing can log with
  | nil =>
      cases performed
      exact recovers
  | cons byte rest inductionHypothesis =>
      obtain ⟨middle, events, more, taken, continued, -⟩ := perform_cons performed
      have later := inductionHypothesis (tidy_takes tidy taken) continued
      by_cases init : can.state = .init
      · exact recovers_of_state_init init
      · exact recovers_of_byteStep (byteStep_of_takes tidy.toSound taken) later init

/-! ## Ways back -/

theorem Reset.returns (reset : Reset can) : Returns can := ⟨[], can, [], rfl, reset⟩

theorem Returns.of_takes {events : List Event} (returns : Returns after)
    (taken : takes can (.byte byte) = some (after, events)) : Returns can := by
  obtain ⟨bytes, last, log, performed, reset⟩ := returns
  exact ⟨byte :: bytes, last, events ++ log, perform_of_step taken performed, reset⟩

/-- A step into the first state is a way back. -/
theorem Tidy.returns_of_takes (tidy : Tidy can) {events : List Event}
    (taken : takes can (.byte byte) = some (after, events)) (state : after.state = .init) :
    Returns can :=
  ((tidy_takes tidy taken).reset state).returns.of_takes taken

section Ways

variable (tidy : Tidy can)

include tidy

theorem Tidy.returns_readRegister (state : can.state = .readRegister) : Returns can := by
  have ends : ∀ {can : CAN}, Tidy can → can.state = .readRegister → 0 ≤ can.readSelected.toInt →
      Returns can := fun tidy state selected =>
    tidy.returns_of_takes
      (takes_readEnd state selected (show BitVec.ofNat 8 MCP_RESET ≠ 0 by decide)) rfl
  by_cases unselected : can.readSelected.toInt < 0
  · have taken := @takes_readSelect can 0 state unselected
    exact (ends (tidy_takes tidy taken) state (by dsimp only; decide)).of_takes taken
  · exact ends tidy state (Int.not_lt.mp unselected)

theorem Tidy.returns_writeRegister (state : can.state = .writeRegister)
    (low : can.writeSelected.toInt ≤ MCP_RXB1SIDH) : Returns can := by
  have value : ∀ {can : CAN}, Tidy can → can.state = .writeRegister →
      0 ≤ can.writeSelected.toInt → can.writeSelected.toInt ≤ MCP_RXB1SIDH → Returns can :=
    fun tidy state selected low =>
      tidy.returns_of_takes (@takes_writeValue _ 0 state selected (by omega)) rfl
  by_cases unselected : can.writeSelected.toInt < 0
  · have taken := @takes_writeSelect can 0 state unselected
    exact (value (tidy_takes tidy taken) state (by dsimp only; decide)
      (by dsimp only; decide)).of_takes taken
  · exact value tidy state (Int.not_lt.mp unselected) low

theorem Tidy.returns_bitmod (state : can.state = .bitmod)
    (low : can.modReg.state ≠ .address → can.modReg.address.toNat ≤ MCP_RXB1SIDH) :
    Returns can := by
  have data : ∀ {can : CAN}, Tidy can → can.state = .bitmod → can.modReg.state = .data →
      can.modReg.address.toNat ≤ MCP_RXB1SIDH → Returns can := fun tidy state begun low =>
    tidy.returns_of_takes (@takes_modifyData _ 0 state begun (Nat.lt_succ_of_le low)) rfl
  have mask : ∀ {can : CAN}, Tidy can → can.state = .bitmod → can.modReg.state = .mask →
      can.modReg.address.toNat ≤ MCP_RXB1SIDH → Returns can := fun {can} tidy state begun low => by
    have taken := @takes_modifyMask can 0 state begun
    exact (data (tidy_takes tidy taken) state rfl low).of_takes taken
  cases begun : can.modReg.state with
  | address =>
      have taken := @takes_modifyAddress can 0 state begun
      exact (mask (tidy_takes tidy taken) state rfl (by dsimp only; decide)).of_takes taken
  | mask => exact mask tidy state begun (low (by rw [begun]; nofun))
  | data => exact data tidy state begun (low (by rw [begun]; nofun))

theorem Tidy.returns_payload (loading : loads can.state = true)
    (begun : can.loadTX.state = .payload)
    (positive : 0 < claimedLength can.txBuf (whichBuf can.state))
    (fits : claimedLength can.txBuf (whichBuf can.state) ≤ CANFD_MAX_DLEN) : Returns can := by
  induction remaining : claimedLength can.txBuf (whichBuf can.state) - can.loadTX.payload_ptr.toNat
    generalizing can with
  | zero =>
      have sooner := tidy.payload begun positive
      omega
  | succ remaining inductionHypothesis =>
      have sooner := tidy.payload begun positive
      obtain ⟨txBuf, taken, claims⟩ := @takes_loadPayload can 0 loading begun (by omega)
      by_cases last : (can.loadTX.payload_ptr + 1).toNat =
          claimedLength can.txBuf (whichBuf can.state)
      · rw [if_pos last] at taken
        exact tidy.returns_of_takes taken rfl
      · rw [if_neg last] at taken
        have up : (can.loadTX.payload_ptr + 1).toNat = can.loadTX.payload_ptr.toNat + 1 := by
          unfold CANFD_MAX_DLEN at fits
          bv_omega
        refine (inductionHypothesis (tidy_takes tidy taken) loading rfl ?_ ?_ ?_).of_takes taken
        · rwa [claims]
        · rwa [claims]
        · dsimp only
          rw [claims, up]
          omega

theorem Tidy.returns_length (loading : loads can.state = true)
    (begun : can.loadTX.state = .length) : Returns can := by
  obtain ⟨txBuf, taken, claims⟩ := @takes_loadLength can 1 loading begun
  refine ((tidy_takes tidy taken).returns_payload loading rfl ?_ ?_).of_takes taken
  · rw [claims]
    decide
  · rw [claims]
    decide

theorem Tidy.returns_id (loading : loads can.state = true) (begun : can.loadTX.state = .id) :
    Returns can := by
  induction remaining : 4 - can.loadTX.payload_ptr.toNat generalizing can with
  | zero =>
      have first := tidy.id begun
      omega
  | succ remaining inductionHypothesis =>
      have first := tidy.id begun
      obtain ⟨txBuf, taken⟩ := @takes_loadId can 0 loading begun first
      by_cases last : can.loadTX.payload_ptr + 1 = 4
      · rw [if_pos last] at taken
        exact ((tidy_takes tidy taken).returns_length loading rfl).of_takes taken
      · rw [if_neg last] at taken
        refine (inductionHypothesis (tidy_takes tidy taken) loading rfl ?_).of_takes taken
        dsimp only
        bv_omega

theorem Tidy.returns_loads (loading : loads can.state = true) (recovers : Recovers can) :
    Returns can := by
  cases begun : can.loadTX.state with
  | id => exact tidy.returns_id loading begun
  | length => exact tidy.returns_length loading begun
  | payload =>
      obtain ⟨positive, fits⟩ := (recovers_iff_of_loads loading).mp recovers begun
      exact tidy.returns_payload loading begun positive fits

theorem Tidy.returns_sends (sending : sends can.state = true)
    (fits : claimedLength can.txBuf (whichBuf can.state) ≤ CAN_MAX_DLEN) : Returns can := by
  obtain ⟨registers, events, taken⟩ := @takes_send can 0 sending fits
  exact ((tidy_takes tidy taken).returns_readRegister rfl).of_takes taken

theorem Tidy.returns_receives (receiving : receives can.state = true)
    (inside : can.rxPtr.toNat < 5 + CANFD_MAX_DLEN)
    (fits : receivedLength can.rxBuf (whichBuf can.state) ≤ CANFD_MAX_DLEN) : Returns can := by
  induction remaining : 5 + CANFD_MAX_DLEN - can.rxPtr.toNat generalizing can with
  | zero => omega
  | succ remaining inductionHypothesis =>
      obtain ⟨status, events, taken⟩ := @takes_receive can 0 receiving inside
      have up : (can.rxPtr + 1).toNat = can.rxPtr.toNat + 1 := by
        unfold CANFD_MAX_DLEN at inside
        bv_omega
      by_cases last : receivedLength can.rxBuf (whichBuf can.state) + 4 < (can.rxPtr + 1).toNat
      · rw [if_pos last] at taken
        exact tidy.returns_of_takes taken rfl
      · rw [if_neg last] at taken
        refine (inductionHypothesis (tidy_takes tidy taken) receiving ?_ fits ?_).of_takes taken
        · dsimp only
          omega
        · dsimp only
          omega

/-- From a state that recovers some bytes lead back. -/
theorem Tidy.returns (recovers : Recovers can) : Returns can := by
  cases state : can.state with
  | init => exact (tidy.reset state).returns
  | readRegister => exact tidy.returns_readRegister state
  | getStatus => exact tidy.returns_of_takes (@takes_status can 0 state) rfl
  | loadTX0 | loadTX1 | loadTX2 => exact tidy.returns_loads (by rw [state]; rfl) recovers
  | writeRegister =>
      rw [Recovers, state] at recovers
      exact tidy.returns_writeRegister state recovers
  | bitmod =>
      rw [Recovers, state] at recovers
      exact tidy.returns_bitmod state recovers
  | sendTX0 | sendTX1 | sendTX2 =>
      rw [Recovers, state] at recovers
      exact tidy.returns_sends (by rw [state]; rfl) (by rwa [state])
  | sendALL =>
      rw [Recovers, state] at recovers
      cases recovers
  | readRX0 | readRX1 =>
      rw [Recovers, state] at recovers
      exact tidy.returns_receives (by rw [state]; rfl) recovers.1 (by rw [state]; exact recovers.2)

end Ways

/-! ## Runs -/

theorem tidy_of_perform (powerOn : PowerOn can) {inputs : List Input} {log : List Event}
    (performed : perform takes can inputs = some (after, log)) : Tidy after :=
  perform_keeps_state (fun tidy _ taken => tidy_takes tidy taken) powerOn.reset.tidy
    (meets_true inputs) performed

theorem returns_iff_recovers (tidy : Tidy can) : Returns can ↔ Recovers can := by
  constructor
  · rintro ⟨bytes, last, log, performed, reset⟩
    exact recovers_of_perform tidy performed (recovers_of_state_init reset.state)
  · exact tidy.returns

/-! ## Careful runs -/

/-- A command can be carried out: its buffer has a length that the functions can deal with. -/
def Feasible (can : CAN) (state : State) : Prop :=
  match state with
  | .sendALL => False
  | .sendTX0 | .sendTX1 | .sendTX2 => claimedLength can.txBuf (whichBuf state) ≤ CAN_MAX_DLEN
  | .readRX0 | .readRX1 => receivedLength can.rxBuf (whichBuf state) ≤ CANFD_MAX_DLEN
  | _ => True

instance (can : CAN) : (state : State) → Decidable (Feasible can state)
  | .sendALL => isFalse id
  | .sendTX0 | .sendTX1 | .sendTX2 => inferInstanceAs (Decidable (_ ≤ CAN_MAX_DLEN))
  | .readRX0 | .readRX1 => inferInstanceAs (Decidable (_ ≤ CANFD_MAX_DLEN))
  | .init | .readRegister | .writeRegister | .bitmod | .loadTX0 | .loadTX1 | .loadTX2
  | .getStatus => isTrue trivial

/-- A byte that begins a command begins a feasible one, one that names a register for a write or a
BITMOD names one that exists, and one that is the length of a payload is the length of one. -/
def CarefulIn (can : CAN) (byte : Byte) : State → Prop
  | .init => ∀ state ∈ commanded byte, Feasible can state
  | .readRegister => 0 ≤ can.readSelected.toInt → ∀ state ∈ commanded byte, Feasible can state
  | .writeRegister => can.writeSelected.toInt < 0 → byte.toNat ≤ MCP_RXB1SIDH
  | .bitmod => can.modReg.state = .address → byte.toNat ≤ MCP_RXB1SIDH
  | .loadTX0 | .loadTX1 | .loadTX2 =>
      can.loadTX.state = .length → 0 < byte.toNat ∧ byte.toNat ≤ CANFD_MAX_DLEN
  | _ => True

instance (can : CAN) (byte : Byte) : (state : State) → Decidable (CarefulIn can byte state)
  | .init => inferInstanceAs (Decidable (∀ state ∈ commanded byte, Feasible can state))
  | .readRegister =>
      inferInstanceAs (Decidable (_ → ∀ state ∈ commanded byte, Feasible can state))
  | .writeRegister | .bitmod => inferInstanceAs (Decidable (_ → byte.toNat ≤ MCP_RXB1SIDH))
  | .loadTX0 | .loadTX1 | .loadTX2 =>
      inferInstanceAs (Decidable (_ → 0 < byte.toNat ∧ byte.toNat ≤ CANFD_MAX_DLEN))
  | .sendTX0 | .sendTX1 | .sendTX2 | .sendALL | .readRX0 | .readRX1 | .getStatus => isTrue trivial

def Careful (can : CAN) : Input → Prop
  | .frame _ => True
  | .byte byte => CarefulIn can byte can.state

instance (can : CAN) : (input : Input) → Decidable (Careful can input)
  | .frame _ => isTrue trivial
  | .byte byte => inferInstanceAs (Decidable (CarefulIn can byte can.state))

/-- A feasible command that has just begun. -/
theorem recovers_of_feasible {state : State} (begun : can.state = state)
    (write : can.writeSelected = -1) (modify : can.modReg.state = .address)
    (load : can.loadTX = .initial) (receive : can.rxPtr = 0) (feasible : Feasible can state) :
    Recovers can := by
  subst begun
  unfold Recovers
  cases state : can.state with
  | init | readRegister | getStatus => trivial
  | writeRegister =>
      dsimp only
      rw [write]
      decide
  | bitmod => exact fun other => absurd modify other
  | loadTX0 | loadTX1 | loadTX2 =>
      rw [load]
      nofun
  | sendTX0 | sendTX1 | sendTX2 | sendALL =>
      unfold Feasible at feasible
      rw [state] at feasible
      exact feasible
  | readRX0 | readRX1 =>
      unfold Feasible at feasible
      rw [state] at feasible
      rw [receive]
      exact ⟨by decide, feasible⟩

theorem orderly_of_recovers (recovers : Recovers can) (byte : Byte) : Orderly can (.byte byte) := by
  unfold Orderly
  unfold Recovers at recovers
  cases state : can.state with
  | init | readRegister | writeRegister | getStatus => trivial
  | bitmod =>
      rw [state] at recovers
      exact fun begun => recovers (by rw [begun]; nofun)
  | loadTX0 | loadTX1 | loadTX2 =>
      rw [state] at recovers
      exact fun begun => .inl (recovers begun)
  | sendTX0 | sendTX1 | sendTX2 | sendALL =>
      rw [state] at recovers
      exact recovers
  | readRX0 | readRX1 =>
      rw [state] at recovers
      exact recovers.1

theorem recovers_byteStep (tidy : Tidy can) (recovers : Recovers can)
    (careful : Careful can (.byte byte)) (step : ByteStep can byte after) : Recovers after := by
  cases step with
  | command state =>
      rw [Careful, state] at careful
      have reset := tidy.reset state
      cases commands : commanded byte with
      | none => exact recovers_of_state_init rfl
      | some next =>
          exact recovers_of_feasible rfl reset.writeSelected reset.modReg reset.loadTX reset.rxPtr
            (careful next commands)
  | readEnd state selected =>
      rw [Careful, state] at careful
      have write := tidy.write (by rw [state]; nofun)
      have modify := tidy.modify (by rw [state]; nofun)
      have load := tidy.toSound.initial (by rw [state]; rfl)
      have receive := tidy.receive (by rw [state]; rfl)
      cases commands : commanded byte with
      | none => exact recovers_of_feasible rfl write modify load receive trivial
      | some next =>
          exact recovers_of_feasible rfl write modify load receive (careful selected next commands)
  | readSelect state | readNext state =>
      unfold Recovers
      rw [state]
      trivial
  | writeSelect state unselected =>
      rw [Careful, state] at careful
      unfold Recovers
      rw [state]
      dsimp only
      rw [toInt_address]
      exact Int.ofNat_le.mpr (careful unselected)
  | writeHigh => exact recovers
  | writeValue | modifyData | loadLast | receiveLast | status => exact recovers_of_state_init rfl
  | modifyAddress state begun =>
      rw [Careful, state] at careful
      unfold Recovers
      rw [state]
      exact fun _ => careful begun
  | modifyMask state begun =>
      rw [Recovers, state] at recovers
      unfold Recovers
      rw [state]
      exact fun _ => recovers (by rw [begun]; nofun)
  | loadId loading begun =>
      rw [recovers_iff_of_loads (by exact loading)]
      dsimp only
      split_ifs <;> nofun
  | loadLength loading begun txBuf claims =>
      rw [recovers_iff_of_loads (by exact loading)]
      intro _
      dsimp only
      rw [claims]
      revert careful
      unfold Careful
      cases state : can.state with
      | loadTX0 | loadTX1 | loadTX2 => exact fun (careful : CarefulIn can byte _) => careful begun
      | _ =>
          rw [state] at loading
          cases loading
  | loadMore loading begun inside txBuf claims =>
      rw [recovers_iff_of_loads (by exact loading)]
      intro _
      dsimp only
      rw [claims]
      exact (recovers_iff_of_loads loading).mp recovers begun
  | send =>
      unfold Recovers
      trivial
  | receiveMore receiving inside more =>
      obtain ⟨-, fits⟩ := (recovers_iff_of_receives receiving).mp recovers
      rw [recovers_iff_of_receives (by exact receiving)]
      refine ⟨?_, fits⟩
      dsimp only
      omega

/-- A careful input leaves no array, and what it leads to recovers. -/
theorem takes_careful (tidy : Tidy can) (recovers : Recovers can) {input : Input}
    (careful : Careful can input) :
    ∃ after events, takes can input = some (after, events) ∧ Recovers after := by
  cases input with
  | byte byte =>
      have inside := (inside_handle tidy.toSound _).mpr (orderly_of_recovers recovers byte)
      obtain ⟨⟨after, events⟩, taken⟩ :=
        Option.isSome_iff_exists.mp ((takes_isSome_iff _).mpr inside)
      exact ⟨after, events, taken,
        recovers_byteStep tidy recovers careful (byteStep_of_takes tidy.toSound taken)⟩
  | frame frame =>
      obtain ⟨rxBuf, status, taken, lengths⟩ := @takes_frame can frame
      refine ⟨_, [], taken, ?_⟩
      cases receiving : receives can.state with
      | true =>
          obtain ⟨inside, fits⟩ := (recovers_iff_of_receives receiving).mp recovers
          rw [recovers_iff_of_receives (by exact receiving)]
          exact ⟨inside, (lengths _).trans (max_le fits (by decide))⟩
      | false =>
          unfold Recovers at recovers ⊢
          cases state : can.state with
          | readRX0 | readRX1 =>
              rw [state] at receiving
              cases receiving
          | _ =>
              rw [state] at recovers
              exact recovers

theorem perform_careful (tidy : Tidy can) (recovers : Recovers can) {inputs : List Input}
    (careful : Meets takes Careful can inputs) :
    ∃ after log, perform takes can inputs = some (after, log) ∧ Tidy after ∧ Recovers after := by
  induction inputs generalizing can with
  | nil => exact ⟨can, [], rfl, tidy, recovers⟩
  | cons input rest inductionHypothesis =>
      obtain ⟨middle, events, taken, kept⟩ := takes_careful tidy recovers careful.1
      obtain ⟨after, log, continued, last⟩ :=
        inductionHypothesis (tidy_takes tidy taken) kept (careful.2 middle events taken)
      exact ⟨after, events ++ log, perform_of_step taken continued, last⟩

/-- From a state that a run reaches, some bytes lead back to the first byte of a command if and only
if no function has been given a number it cannot deal with. A run of careful inputs leaves no array
and reaches only such states. -/
theorem returns_along_run (powerOn : PowerOn can) (inputs : List Input) :
    (∀ after log, perform takes can inputs = some (after, log) →
        (Returns after ↔ Recovers after)) ∧
      (Meets takes Careful can inputs →
        ∃ after log, perform takes can inputs = some (after, log) ∧ Returns after) := by
  have tidy := powerOn.reset.tidy
  constructor
  · intro after log performed
    exact returns_iff_recovers (tidy_of_perform powerOn performed)
  · intro careful
    obtain ⟨after, log, performed, last, recovers⟩ :=
      perform_careful tidy (recovers_of_state_init powerOn.state) careful
    exact ⟨after, log, performed, last.returns recovers⟩

/-- A register is read, written and modified, and a frame is loaded. -/
theorem returns_along_session :
    ∃ after log, perform takes blank
        (bytes [MCP_READ, 0x0F, 0, MCP_WRITE, 0x0F, 0x80, MCP_BITMOD, 0x0F, 0xE0, 0x00,
          MCP_LOAD_TX0, 0, 0, 0, 0, 1]) = some (after, log) ∧ Returns after := by
  refine (returns_along_run powerOn_blank _).2 ?_
  decide +kernel

/-- A write to the register behind the last one. -/
theorem not_returns_write :
    ∃ after log, perform takes blank (bytes [MCP_WRITE, 0x72]) = some (after, log) ∧
      ¬ Returns after := by
  have performed : perform takes blank (bytes [MCP_WRITE, 0x72]) =
      some ({ blank with state := .writeRegister, writeSelected := 0x72 },
        [.replied 0, .replied 0]) := rfl
  refine ⟨_, _, performed, ?_⟩
  rw [returns_iff_recovers (tidy_of_perform powerOn_blank performed)]
  exact (by decide : ¬(0x72 : BitVec 16).toInt ≤ MCP_RXB1SIDH)

end SymexVP.Can
