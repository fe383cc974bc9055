import SymexVP.CanRegisters

/-!
# What a byte does to the CAN controller

Each function of the controller is described by what a byte does to the variables it
keeps. A byte that makes it leave no array does one of the things listed here, and
invariants are checked against that list.
-/

namespace SymexVP.Can

open Exec ActionRun

variable {can after : CAN} {byte : Byte} {no : Nat}

/-! ## Bytes for buffers -/

theorem takes_some {body : CanM Byte} (run : (write byte).run can = body.run can)
    (answered : ∃ reply log, body.run can = ⟨.ok reply, after, log⟩) :
    ∃ events, takes can (.byte byte) = some (after, events) := by
  obtain ⟨reply, log, answer⟩ := answered
  exact ⟨_, takes_byte (run.trans answer)⟩

section Load

variable (loading : loads can.state = true)

include loading

theorem write_of_loading :
    (write byte).run can = (loadTxBuf (whichBuf can.state) byte).run can := by
  rw [write, bind_run, get_run, Outcome.andThen_ok]
  cases state : can.state with
  | loadTX0 | loadTX1 | loadTX2 => rfl
  | _ =>
      rw [state] at loading
      cases loading

theorem takes_loadId (begun : can.loadTX.state = .id) (first : can.loadTX.payload_ptr.toNat < 4) :
    ∃ txBuf, takes can (.byte byte) =
        some ({ can with
          txBuf := txBuf
          loadTX := if can.loadTX.payload_ptr + 1 = 4 then ⟨.length, 0⟩
            else ⟨.id, can.loadTX.payload_ptr + 1⟩ }, [.replied 0]) := by
  have buffer := whichBuf_lt can.state loading
  let frame := can.txBuf[whichBuf can.state]
  let id := frame.id.set can.loadTX.payload_ptr.toNat byte first
  refine ⟨can.txBuf.set (whichBuf can.state) { frame with id := id }, takes_quiet ?_⟩
  rw [write_of_loading loading, loadTxBuf, bind_run, get_run, Outcome.andThen_ok]
  dsimp only
  rw [bind_run, element_of_lt buffer, pure_run, Outcome.andThen_ok, begun]
  simp only [bind_run, replace_of_lt first, replace_of_lt buffer, pure_run, modify_run,
    Outcome.andThen_ok]
  rfl

theorem takes_loadLength (begun : can.loadTX.state = .length) :
    ∃ txBuf, takes can (.byte byte) =
        some ({ can with txBuf := txBuf, loadTX := { can.loadTX with state := .payload } },
          [.replied 0]) ∧
      claimedLength txBuf (whichBuf can.state) = byte.toNat := by
  have buffer := whichBuf_lt can.state loading
  refine ⟨can.txBuf.set (whichBuf can.state) { can.txBuf[whichBuf can.state] with length := byte },
    takes_quiet ?_, by simp [claimedLength, buffer]⟩
  rw [write_of_loading loading, loadTxBuf, bind_run, get_run, Outcome.andThen_ok]
  dsimp only
  rw [bind_run, element_of_lt buffer, pure_run, Outcome.andThen_ok, begun]
  simp only [bind_run, replace_of_lt buffer, pure_run, modify_run, Outcome.andThen_ok]
  rfl

theorem takes_loadPayload (begun : can.loadTX.state = .payload)
    (inside : can.loadTX.payload_ptr.toNat < CANFD_MAX_DLEN) :
    ∃ txBuf, takes can (.byte byte) =
        some (if (can.loadTX.payload_ptr + 1).toNat =
            claimedLength can.txBuf (whichBuf can.state) then
          { can with txBuf := txBuf, loadTX := .initial, state := .init }
        else { can with txBuf := txBuf, loadTX := ⟨.payload, can.loadTX.payload_ptr + 1⟩ },
          [.replied 0]) ∧
      ∀ other, claimedLength txBuf other = claimedLength can.txBuf other := by
  have buffer := whichBuf_lt can.state loading
  have last : (can.loadTX.payload_ptr + 1).toNat = claimedLength can.txBuf (whichBuf can.state) ↔
      can.loadTX.payload_ptr + 1 = can.txBuf[whichBuf can.state].length := by
    rw [claimedLength_of_lt buffer, BitVec.toNat_inj]
  simp only [last]
  let frame := can.txBuf[whichBuf can.state]
  let payload := frame.payload.set can.loadTX.payload_ptr.toNat byte inside
  refine ⟨can.txBuf.set (whichBuf can.state) { frame with payload := payload }, takes_quiet ?_, ?_⟩
  · rw [write_of_loading loading, loadTxBuf, bind_run, get_run, Outcome.andThen_ok]
    dsimp only
    rw [bind_run, element_of_lt buffer, pure_run, Outcome.andThen_ok, begun]
    simp only [bind_run, replace_of_lt inside, replace_of_lt buffer, pure_run, modify_run,
      Outcome.andThen_ok]
    rfl
  · exact claimedLength_set buffer rfl

end Load

/-- The states in which a transmit buffer is sent. -/
def sends : State → Bool
  | .sendTX0 | .sendTX1 | .sendTX2 => true
  | _ => false

/-- The states in which a received frame is read. -/
def receives : State → Bool
  | .readRX0 | .readRX1 => true
  | _ => false

theorem takes_send (sending : sends can.state = true)
    (fits : claimedLength can.txBuf (whichBuf can.state) ≤ CAN_MAX_DLEN) :
    ∃ registers events, takes can (.byte byte) =
      some ({ can with registers := registers, state := .readRegister }, events) := by
  have buffer : whichBuf can.state < 3 := by
    cases state : can.state with
    | sendTX0 | sendTX1 | sendTX2 => decide
    | _ =>
        rw [state] at sending
        cases sending
  have run : (write byte).run can = (sendTxBuf (whichBuf can.state) byte).run can := by
    rw [write, bind_run, get_run, Outcome.andThen_ok]
    cases state : can.state with
    | sendTX0 | sendTX1 | sendTX2 => rfl
    | _ =>
        rw [state] at sending
        cases sending
  rw [claimedLength_of_lt buffer] at fits
  have register : MCP_TXB0CTRL < MCP_RXB1SIDH + 1 := by decide
  refine ⟨can.registers.set MCP_TXB0CTRL 0, takes_some run ?_⟩
  unfold sendTxBuf
  rw [if_neg (by omega)]
  dsimp only
  rw [bind_run, get_run, Outcome.andThen_ok, bind_run, element_of_lt buffer, pure_run,
    Outcome.andThen_ok, copy_of_le (fits.trans (by decide)) fits]
  exact ⟨_, _, rfl⟩

/-- The length of a received frame. -/
def receivedLength (rxBuf : Vector MCPFrame 2) (no : Nat) : Nat :=
  (rxBuf[no]?.map (·.length.toNat)).getD 0

theorem takes_receive (receiving : receives can.state = true)
    (inside : can.rxPtr.toNat < 5 + CANFD_MAX_DLEN) :
    ∃ status events, takes can (.byte byte) =
      some (if receivedLength can.rxBuf (whichBuf can.state) + 4 < (can.rxPtr + 1).toNat then
          { can with rxPtr := 0, state := .init, status := status }
        else { can with rxPtr := can.rxPtr + 1 }, events) := by
  have buffer : whichBuf can.state < 2 := by
    cases state : can.state with
    | readRX0 | readRX1 => decide
    | _ =>
        rw [state] at receiving
        cases receiving
  have run : (write byte).run can = (readRxBuf (whichBuf can.state) byte).run can := by
    rw [write, bind_run, get_run, Outcome.andThen_ok]
    cases state : can.state with
    | readRX0 | readRX1 => rfl
    | _ =>
        rw [state] at receiving
        cases receiving
  have length : receivedLength can.rxBuf (whichBuf can.state) =
      can.rxBuf[whichBuf can.state].length.toNat := by
    simp [receivedLength, buffer]
  refine ⟨can.status &&& ~~~((1 : Byte) <<< whichBuf can.state), takes_some run ?_⟩
  unfold readRxBuf
  rw [bind_run, get_run, Outcome.andThen_ok, bind_run, element_of_lt buffer, pure_run,
    Outcome.andThen_ok, bind_run, element_of_lt inside, length]
  simp only [pure_run, Outcome.andThen_ok, bind_run, modify_run]
  split_ifs with ends
  · rw [Exec.when, if_pos ends]
    exact ⟨_, _, rfl⟩
  · rw [Exec.when, if_neg ends]
    exact ⟨_, _, rfl⟩

theorem takes_status (state : can.state = .getStatus) :
    takes can (.byte byte) = some ({ can with state := .init }, [.replied can.status]) := by
  apply takes_quiet
  rw [write, bind_run, get_run, Outcome.andThen_ok, state]
  rfl

theorem takes_frame (frame : ReceivedFrame) :
    ∃ rxBuf status, takes can (.frame frame) =
        some ({ can with rxBuf := rxBuf, status := status }, []) ∧
      ∀ no, receivedLength rxBuf no ≤ max (receivedLength can.rxBuf no) CAN_MAX_DLEN := by
  unfold takes handle enqueueIncomingCanFrame
  rw [bind_run, get_run, Outcome.andThen_ok]
  cases free : [0, 1].find? fun index => !can.status.getLsbD index with
  | none => exact ⟨can.rxBuf, can.status, rfl, fun no => Nat.le_max_left _ _⟩
  | some index =>
      have buffer : index < 2 := by
        have among := List.mem_of_find?_eq_some free
        simp only [List.mem_cons, List.not_mem_nil, or_false] at among
        omega
      have fits := frame.bounded
      dsimp only
      rw [copy_of_le fits (fits.trans (by decide)), bind_run, pure_run, Outcome.andThen_ok,
        bind_run, replace_of_lt buffer]
      refine ⟨_, _, rfl, fun no => ?_⟩
      rw [receivedLength, receivedLength, Vector.getElem?_set]
      split_ifs
      · exact (Nat.le_max_right _ _).trans' fits
      · exact Nat.le_max_left _ _

/-! ## Steps -/

/-- All that a byte can do. -/
inductive ByteStep (can : CAN) (byte : Byte) : CAN → Prop
  | command (state : can.state = .init) :
      ByteStep can byte { can with state := (commanded byte).getD .init }
  | readSelect (state : can.state = .readRegister) (unselected : can.readSelected.toInt < 0) :
      ByteStep can byte { can with readSelected := byte.setWidth 16 }
  | readNext (state : can.state = .readRegister) (selected : 0 ≤ can.readSelected.toInt) :
      ByteStep can byte { can with readSelected := can.readSelected + 1 }
  | readEnd (state : can.state = .readRegister) (selected : 0 ≤ can.readSelected.toInt)
      (ends : byte ≠ 0) :
      ByteStep can byte
        { can with readSelected := -1, state := (commanded byte).getD .readRegister }
  | writeSelect (state : can.state = .writeRegister) (unselected : can.writeSelected.toInt < 0) :
      ByteStep can byte { can with writeSelected := byte.setWidth 16 }
  | writeHigh (state : can.state = .writeRegister) (high : MCP_RXB1SIDH < can.writeSelected.toInt) :
      ByteStep can byte can
  | writeValue (state : can.state = .writeRegister) (selected : 0 ≤ can.writeSelected.toInt)
      (low : can.writeSelected.toInt ≤ MCP_RXB1SIDH)
      (registers : Vector Byte (MCP_RXB1SIDH + 1)) :
      ByteStep can byte { can with registers := registers, writeSelected := -1, state := .init }
  | modifyAddress (state : can.state = .bitmod) (begun : can.modReg.state = .address) :
      ByteStep can byte { can with modReg := { can.modReg with address := byte, state := .mask } }
  | modifyMask (state : can.state = .bitmod) (begun : can.modReg.state = .mask) :
      ByteStep can byte { can with modReg := { can.modReg with mask := byte, state := .data } }
  | modifyData (state : can.state = .bitmod) (begun : can.modReg.state = .data)
      (low : can.modReg.address.toNat ≤ MCP_RXB1SIDH)
      (registers : Vector Byte (MCP_RXB1SIDH + 1)) :
      ByteStep can byte
        { can with
          registers := registers
          modReg := { can.modReg with data := byte, state := .address }
          state := .init }
  | loadId (loading : loads can.state = true) (begun : can.loadTX.state = .id)
      (txBuf : Vector MCPFrame 3) :
      ByteStep can byte
        { can with
          txBuf := txBuf
          loadTX := if can.loadTX.payload_ptr + 1 = 4 then ⟨.length, 0⟩
            else ⟨.id, can.loadTX.payload_ptr + 1⟩ }
  | loadLength (loading : loads can.state = true) (begun : can.loadTX.state = .length)
      (txBuf : Vector MCPFrame 3)
      (claims : claimedLength txBuf (whichBuf can.state) = byte.toNat) :
      ByteStep can byte
        { can with txBuf := txBuf, loadTX := { can.loadTX with state := .payload } }
  | loadMore (loading : loads can.state = true) (begun : can.loadTX.state = .payload)
      (inside : can.loadTX.payload_ptr.toNat < CANFD_MAX_DLEN) (txBuf : Vector MCPFrame 3)
      (claims : ∀ other, claimedLength txBuf other = claimedLength can.txBuf other)
      (more : (can.loadTX.payload_ptr + 1).toNat ≠ claimedLength can.txBuf (whichBuf can.state)) :
      ByteStep can byte
        { can with txBuf := txBuf, loadTX := ⟨.payload, can.loadTX.payload_ptr + 1⟩ }
  | loadLast (loading : loads can.state = true) (begun : can.loadTX.state = .payload)
      (inside : can.loadTX.payload_ptr.toNat < CANFD_MAX_DLEN) (txBuf : Vector MCPFrame 3)
      (last : (can.loadTX.payload_ptr + 1).toNat = claimedLength can.txBuf (whichBuf can.state)) :
      ByteStep can byte { can with txBuf := txBuf, loadTX := .initial, state := .init }
  | send (sending : sends can.state = true)
      (fits : claimedLength can.txBuf (whichBuf can.state) ≤ CAN_MAX_DLEN)
      (registers : Vector Byte (MCP_RXB1SIDH + 1)) :
      ByteStep can byte { can with registers := registers, state := .readRegister }
  | receiveMore (receiving : receives can.state = true)
      (inside : can.rxPtr.toNat < 5 + CANFD_MAX_DLEN)
      (more : (can.rxPtr + 1).toNat ≤ receivedLength can.rxBuf (whichBuf can.state) + 4) :
      ByteStep can byte { can with rxPtr := can.rxPtr + 1 }
  | receiveLast (receiving : receives can.state = true)
      (inside : can.rxPtr.toNat < 5 + CANFD_MAX_DLEN)
      (last : receivedLength can.rxBuf (whichBuf can.state) + 4 < (can.rxPtr + 1).toNat)
      (status : Byte) :
      ByteStep can byte { can with rxPtr := 0, state := .init, status := status }
  | status (state : can.state = .getStatus) : ByteStep can byte { can with state := .init }

section Steps

variable {events : List Event}

theorem orderly_of_takes (sound : Sound can) {input : Input}
    (taken : takes can input = some (after, events)) : Orderly can input :=
  (inside_handle sound input).mp ((takes_isSome_iff input).mp (Option.isSome_of_eq_some taken))

theorem byteStep_of_readRegister (state : can.state = .readRegister)
    (taken : takes can (.byte byte) = some (after, events)) : ByteStep can byte after := by
  by_cases unselected : can.readSelected.toInt < 0
  · rw [takes_readSelect state unselected] at taken
    cases taken
    exact .readSelect state unselected
  · have selected := Int.not_lt.mp unselected
    by_cases ends : byte = 0
    · subst ends
      by_cases inside : can.readSelected.toInt.toNat < MCP_RXB1SIDH + 1
      · rw [takes_readNext state selected inside] at taken
        cases taken
        exact .readNext state selected
      · rw [takes_readHigh state (by omega)] at taken
        cases taken
        exact .readNext state selected
    · rw [takes_readEnd state selected ends] at taken
      cases taken
      exact .readEnd state selected ends

theorem byteStep_of_writeRegister (state : can.state = .writeRegister)
    (taken : takes can (.byte byte) = some (after, events)) : ByteStep can byte after := by
  by_cases unselected : can.writeSelected.toInt < 0
  · rw [takes_writeSelect state unselected] at taken
    cases taken
    exact .writeSelect state unselected
  · have selected := Int.not_lt.mp unselected
    by_cases low : can.writeSelected.toInt ≤ MCP_RXB1SIDH
    · rw [takes_writeValue state selected (by omega)] at taken
      cases taken
      exact .writeValue state selected low _
    · rw [takes_writeHigh state (by omega)] at taken
      cases taken
      exact .writeHigh state (by omega)

theorem byteStep_of_bitmod (sound : Sound can) (state : can.state = .bitmod)
    (taken : takes can (.byte byte) = some (after, events)) : ByteStep can byte after := by
  cases begun : can.modReg.state with
  | address =>
      rw [takes_modifyAddress state begun] at taken
      cases taken
      exact .modifyAddress state begun
  | mask =>
      rw [takes_modifyMask state begun] at taken
      cases taken
      exact .modifyMask state begun
  | data =>
      have orderly := orderly_of_takes sound taken
      rw [Orderly, state] at orderly
      have low : can.modReg.address.toNat ≤ MCP_RXB1SIDH := orderly begun
      rw [takes_modifyData state begun (Nat.lt_succ_of_le low)] at taken
      cases taken
      exact .modifyData state begun low _

theorem byteStep_of_loads (sound : Sound can) (loading : loads can.state = true)
    (taken : takes can (.byte byte) = some (after, events)) : ByteStep can byte after := by
  cases begun : can.loadTX.state with
  | id =>
      obtain ⟨txBuf, stepped⟩ := @takes_loadId can byte loading begun (sound.id begun)
      rw [stepped] at taken
      cases taken
      exact .loadId loading begun txBuf
  | length =>
      obtain ⟨txBuf, stepped, claims⟩ := @takes_loadLength can byte loading begun
      rw [stepped] at taken
      cases taken
      exact .loadLength loading begun txBuf claims
  | payload =>
      have inside : can.loadTX.payload_ptr.toNat < CANFD_MAX_DLEN := by
        have orderly := orderly_of_takes sound taken
        refine sound.payload_iff.mpr ?_ begun
        cases state : can.state with
        | loadTX0 | loadTX1 | loadTX2 =>
            rw [Orderly, state] at orderly
            exact orderly
        | _ =>
            rw [state] at loading
            cases loading
      obtain ⟨txBuf, stepped, claims⟩ := @takes_loadPayload can byte loading begun inside
      rw [stepped] at taken
      split_ifs at taken with last
      · cases taken
        exact .loadLast loading begun inside txBuf last
      · cases taken
        exact .loadMore loading begun inside txBuf claims last

/-- A byte that leaves no array does one of these things. -/
theorem byteStep_of_takes (sound : Sound can)
    (taken : takes can (.byte byte) = some (after, events)) : ByteStep can byte after := by
  have orderly := orderly_of_takes sound taken
  cases state : can.state with
  | init =>
      rw [takes_init state] at taken
      cases taken
      exact .command state
  | readRegister => exact byteStep_of_readRegister state taken
  | writeRegister => exact byteStep_of_writeRegister state taken
  | bitmod => exact byteStep_of_bitmod sound state taken
  | loadTX0 | loadTX1 | loadTX2 => exact byteStep_of_loads sound (by rw [state]; rfl) taken
  | sendTX0 | sendTX1 | sendTX2 =>
      have sending : sends can.state = true := by rw [state]; rfl
      have fits : claimedLength can.txBuf (whichBuf can.state) ≤ CAN_MAX_DLEN := by
        rw [Orderly, state] at orderly
        rwa [state]
      obtain ⟨registers, answers, stepped⟩ := @takes_send can byte sending fits
      rw [stepped] at taken
      cases taken
      exact .send sending fits registers
  | sendALL =>
      rw [Orderly, state] at orderly
      cases orderly
  | readRX0 | readRX1 =>
      have receiving : receives can.state = true := by rw [state]; rfl
      have inside : can.rxPtr.toNat < 5 + CANFD_MAX_DLEN := by
        rwa [Orderly, state] at orderly
      obtain ⟨status, answers, stepped⟩ := @takes_receive can byte receiving inside
      rw [stepped] at taken
      split_ifs at taken with last
      · cases taken
        exact .receiveLast receiving inside last status
      · cases taken
        exact .receiveMore receiving inside (Nat.not_lt.mp last)
  | getStatus =>
      rw [takes_status state] at taken
      cases taken
      exact .status state

end Steps

end SymexVP.Can
