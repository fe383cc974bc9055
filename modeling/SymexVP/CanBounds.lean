import SymexVP.ActionRuns
import SymexVP.CanController

/-!
# The indices of the CAN controller

Which accesses of the controller stay inside their arrays is decided by the bytes of the
guest. The functions that read and write a register check the address it has sent; the
one that modifies a register does not, and the ones that load, send and read a buffer
take its length as it is.
-/

namespace SymexVP.Can

open Exec

variable {can after : CAN} {byte : Byte} {no : Nat}

/-! ## Functions that stay inside -/

/-- All accesses are inside their arrays. -/
def Inside {α : Type} (body : CanM α) (can : CAN) : Prop :=
  ∃ value, (body.run can).result = .ok value

theorem inside_readRegister : Inside (readRegister byte) can := by
  unfold Inside readRegister
  rw [bind_run, get_run, Outcome.andThen_ok]
  split_ifs with unselected ends
  · exact ⟨0, rfl⟩
  · exact ⟨0, rfl⟩
  · rw [bind_run, registerValue]
    split_ifs with high
    · exact ⟨0, rfl⟩
    · rw [element_of_lt (by unfold MCP_RXB1SIDH at *; omega)]
      exact ⟨_, rfl⟩

theorem inside_writeRegister : Inside (writeRegister byte) can := by
  unfold Inside writeRegister
  rw [bind_run, get_run, Outcome.andThen_ok]
  split_ifs with unselected high
  · exact ⟨0, rfl⟩
  · exact ⟨0, rfl⟩
  · rw [bind_run, replace_of_lt (by unfold MCP_RXB1SIDH at *; omega)]
    exact ⟨0, rfl⟩

theorem inside_modifyRegister :
    Inside (modifyRegister byte) can ↔
      (can.modReg.state = .data → can.modReg.address.toNat ≤ MCP_RXB1SIDH) := by
  unfold Inside modifyRegister
  rw [bind_run, get_run, Outcome.andThen_ok]
  cases can.modReg.state with
  | address => exact iff_of_true ⟨0, rfl⟩ nofun
  | mask => exact iff_of_true ⟨0, rfl⟩ nofun
  | data =>
      simp only [bind_run, modify_run, Outcome.andThen_ok, forall_const]
      by_cases inside : can.modReg.address.toNat < MCP_RXB1SIDH + 1
      · rw [element_of_lt inside, pure_run, Outcome.andThen_ok, replace_of_lt inside]
        exact iff_of_true ⟨0, rfl⟩ (Nat.lt_succ_iff.mp inside)
      · rw [element_of_le (Nat.not_lt.mp inside)]
        exact iff_of_false (fun ⟨_, impossible⟩ => nomatch impossible) (by omega)

/-! ## Buffers -/

/-- The length a transmit buffer claims to have. -/
def claimedLength (txBuf : Vector MCPFrame 3) (no : Nat) : Nat :=
  (txBuf[no]?.map (·.length.toNat)).getD 0

theorem claimedLength_of_lt {txBuf : Vector MCPFrame 3} (inside : no < 3) :
    claimedLength txBuf no = txBuf[no].length.toNat := by
  simp [claimedLength, inside]

/-- What is stored by a byte of a payload: one that is inside. -/
theorem inside_loadTxBuf (buffer : no < 3)
    (id : can.loadTX.state = .id → can.loadTX.payload_ptr.toNat < 4) :
    Inside (loadTxBuf no byte) can ↔
      (can.loadTX.state = .payload → can.loadTX.payload_ptr.toNat < CANFD_MAX_DLEN) := by
  unfold Inside loadTxBuf
  rw [bind_run, get_run, Outcome.andThen_ok]
  dsimp only
  rw [bind_run, element_of_lt buffer, pure_run, Outcome.andThen_ok]
  cases state : can.loadTX.state with
  | id =>
      simp only [bind_run, replace_of_lt (id state), replace_of_lt buffer, pure_run, modify_run,
        Outcome.andThen_ok]
      exact iff_of_true ⟨0, rfl⟩ nofun
  | length =>
      simp only [bind_run, replace_of_lt buffer, pure_run, modify_run, Outcome.andThen_ok]
      exact iff_of_true ⟨0, rfl⟩ nofun
  | payload =>
      simp only [forall_const]
      by_cases inside : can.loadTX.payload_ptr.toNat < CANFD_MAX_DLEN
      · simp only [bind_run, replace_of_lt inside, replace_of_lt buffer, pure_run, modify_run,
          Outcome.andThen_ok]
        exact iff_of_true ⟨0, rfl⟩ inside
      · simp only [bind_run, replace_of_le (Nat.not_lt.mp inside), throw_run, Outcome.andThen_error]
        exact iff_of_false (fun ⟨_, impossible⟩ => nomatch impossible) inside

theorem inside_sendTxBuf (byte : Byte) (small : no ≤ 3) :
    Inside (sendTxBuf no byte) can ↔ no < 3 ∧ claimedLength can.txBuf no ≤ CAN_MAX_DLEN := by
  unfold Inside sendTxBuf
  rw [if_neg (by omega)]
  dsimp only
  rw [bind_run, get_run, Outcome.andThen_ok]
  by_cases buffer : no < 3
  · rw [claimedLength_of_lt buffer, bind_run, element_of_lt buffer, pure_run, Outcome.andThen_ok]
    by_cases fits : can.txBuf[no].length.toNat ≤ CAN_MAX_DLEN
    · rw [copy_of_le (fits.trans (by decide)) fits]
      exact iff_of_true ⟨0, rfl⟩ ⟨buffer, fits⟩
    · have claims := Nat.not_le.mp fits
      obtain ⟨fault, faulted⟩ :=
        @copy_of_lt _ _ _ _ _ _ can.txBuf[no].payload _ _ _ _ (.inr claims) can
      rw [bind_run, faulted]
      exact iff_of_false (fun ⟨_, impossible⟩ => nomatch impossible) fun both => fits both.2
  · rw [bind_run, element_of_le (Nat.not_lt.mp buffer)]
    exact iff_of_false (fun ⟨_, impossible⟩ => nomatch impossible) fun both => buffer both.1

theorem inside_readRxBuf (byte : Byte) (buffer : no < 2) :
    Inside (readRxBuf no byte) can ↔ can.rxPtr.toNat < 5 + CANFD_MAX_DLEN := by
  unfold Inside readRxBuf
  rw [bind_run, get_run, Outcome.andThen_ok]
  dsimp only
  rw [bind_run, element_of_lt buffer, pure_run, Outcome.andThen_ok]
  by_cases inside : can.rxPtr.toNat < 5 + CANFD_MAX_DLEN
  · rw [bind_run, element_of_lt inside]
    refine iff_of_true ⟨can.rxBuf[no].raw[can.rxPtr.toNat], ?_⟩ inside
    simp only [pure_run, Outcome.andThen_ok, bind_run, modify_run]
    by_cases ends : can.rxBuf[no].length.toNat + 4 < (can.rxPtr + 1).toNat
    · rw [Exec.when, if_pos ends]
      rfl
    · rw [Exec.when, if_neg ends]
      rfl
  · rw [bind_run, element_of_le (Nat.not_lt.mp inside)]
    exact iff_of_false (fun ⟨_, impossible⟩ => nomatch impossible) inside

/-! ## Loading -/

/-- The states in which a transmit buffer is loaded. -/
def loads : State → Bool
  | .loadTX0 | .loadTX1 | .loadTX2 => true
  | _ => false

/-- Where the loading of a buffer stands. Nothing is left over once another command may come. -/
structure Sound (can : CAN) : Prop where
  id : can.loadTX.state = .id → can.loadTX.payload_ptr.toNat < 4
  length : can.loadTX.state = .length → can.loadTX.payload_ptr = 0
  payload : can.loadTX.state = .payload → 0 < claimedLength can.txBuf (whichBuf can.state) →
    can.loadTX.payload_ptr.toNat < claimedLength can.txBuf (whichBuf can.state)
  loading : can.loadTX ≠ .initial → loads can.state = true

theorem sound_of_initial (initial : can.loadTX = .initial) : Sound can := by
  refine ⟨?_, ?_, ?_, fun begun => absurd initial begun⟩ <;> rw [initial]
  · decide
  · decide
  · nofun

theorem Sound.initial (sound : Sound can) (other : loads can.state = false) :
    can.loadTX = .initial := by
  by_contra begun
  rw [sound.loading begun] at other
  cases other

theorem whichBuf_lt (state : State) (loading : loads state = true) : whichBuf state < 3 := by
  cases state <;> first | decide | cases loading

/-- The buffer that is loaded gets no other length by the bytes of its identifier and payload. -/
theorem claimedLength_set {txBuf : Vector MCPFrame 3} (buffer : no < 3) {frame : MCPFrame}
    (same : frame.length = txBuf[no].length) (other : Nat) :
    claimedLength (txBuf.set no frame) other = claimedLength txBuf other := by
  by_cases inside : other < 3
  · rw [claimedLength_of_lt inside, claimedLength_of_lt inside, Vector.getElem_set]
    split
    · subst_vars
      rw [same]
    · rfl
  · simp [claimedLength, inside]

/-- A byte that is loaded keeps track of the rest. -/
theorem sound_loadTxBuf (sound : Sound can) (loading : loads can.state = true) {reply : Byte}
    (returned : ((loadTxBuf (whichBuf can.state) byte).run can).result = .ok reply) :
    Sound ((loadTxBuf (whichBuf can.state) byte).run can).state := by
  have buffer := whichBuf_lt can.state loading
  unfold loadTxBuf at returned ⊢
  rw [bind_run, get_run, Outcome.andThen_ok] at returned ⊢
  dsimp only at returned ⊢
  rw [bind_run, element_of_lt buffer, pure_run, Outcome.andThen_ok] at returned ⊢
  cases state : can.loadTX.state with
  | id =>
      have first := sound.id state
      simp only [bind_run, replace_of_lt first, replace_of_lt buffer, pure_run, modify_run,
        Outcome.andThen_ok]
      split_ifs with last
      · exact ⟨nofun, fun _ => rfl, nofun, fun _ => loading⟩
      · exact ⟨fun _ => by bv_omega, nofun, nofun, fun _ => loading⟩
  | length =>
      have none := sound.length state
      simp only [bind_run, replace_of_lt buffer, pure_run, modify_run, Outcome.andThen_ok]
      refine ⟨nofun, nofun, fun _ positive => ?_, fun _ => loading⟩
      simpa [none] using positive
  | payload =>
      rw [state] at returned
      by_cases inside : can.loadTX.payload_ptr.toNat < CANFD_MAX_DLEN
      · simp only [bind_run, replace_of_lt inside, replace_of_lt buffer, pure_run, modify_run,
          Outcome.andThen_ok]
        split_ifs with last
        · exact sound_of_initial rfl
        · refine ⟨nofun, nofun, fun _ positive => ?_, fun _ => loading⟩
          dsimp only at positive ⊢
          rw [claimedLength_set buffer (by rfl)] at positive ⊢
          have sooner := sound.payload state positive
          rw [claimedLength_of_lt buffer] at positive sooner ⊢
          bv_omega
      · simp only [bind_run, replace_of_le (Nat.not_lt.mp inside), throw_run,
          Outcome.andThen_error] at returned
        cases returned

/-! ## Everything else -/

theorem steps_command : Steps (Unchanged CAN.loadTX) (command byte) :=
  Steps.modify fun _ => rfl

theorem steps_readRegister : Steps (Unchanged CAN.loadTX) (readRegister byte) := by
  refine Steps.bind Steps.get fun can => Steps.ite ?_ (Steps.ite ?_ ?_)
  · exact Steps.bind (Steps.modify fun can => rfl) fun _ => Steps.pure _
  · refine Steps.bind (Steps.modify fun can => rfl) fun _ => ?_
    exact Steps.bind steps_command fun _ => Steps.pure _
  · refine Steps.bind (Steps.ite (Steps.pure _) (Steps.element _ _ _)) fun _ => ?_
    exact Steps.bind (Steps.modify fun can => rfl) fun _ => Steps.pure _

theorem steps_writeRegister : Steps (Unchanged CAN.loadTX) (writeRegister byte) := by
  refine Steps.bind Steps.get fun can => Steps.ite ?_ (Steps.ite (Steps.pure _) ?_)
  · exact Steps.bind (Steps.modify fun can => rfl) fun _ => Steps.pure _
  · refine Steps.bind (Steps.replace _ _ _ _) fun _ => ?_
    exact Steps.bind (Steps.modify fun can => rfl) fun _ => Steps.pure _

theorem steps_modifyRegister : Steps (Unchanged CAN.loadTX) (modifyRegister byte) := by
  refine Steps.bind Steps.get fun before => ?_
  cases before.modReg.state with
  | address | mask => exact Steps.bind (Steps.modify fun can => rfl) fun _ => Steps.pure _
  | data =>
      refine Steps.bind (Steps.modify fun can => rfl) fun _ => ?_
      refine Steps.bind (Steps.element _ _ _) fun _ => ?_
      refine Steps.bind (Steps.replace _ _ _ _) fun _ => ?_
      exact Steps.bind (Steps.modify fun can => rfl) fun _ => Steps.pure _

theorem steps_sendTxBuf (byte : Byte) (no : Nat) :
    Steps (Unchanged CAN.loadTX) (sendTxBuf no byte) := by
  refine Steps.bind Steps.get fun can => Steps.bind (Steps.element _ _ _) fun buffer => ?_
  refine Steps.bind (Steps.copy _ _ _ _ _) fun data => Steps.bind (Steps.emit _) fun _ => ?_
  refine Steps.bind (Steps.replace _ _ _ _) fun registers => ?_
  exact Steps.bind (Steps.modify fun can => rfl) fun _ => Steps.pure _

theorem steps_readRxBuf (byte : Byte) (no : Nat) :
    Steps (Unchanged CAN.loadTX) (readRxBuf no byte) := by
  refine Steps.bind Steps.get fun can => Steps.bind (Steps.element _ _ _) fun buffer => ?_
  refine Steps.bind (Steps.element _ _ _) fun ret => ?_
  refine Steps.bind (Steps.modify fun can => rfl) fun _ => ?_
  exact Steps.bind (Steps.when fun _ => Steps.modify fun can => rfl) fun _ => Steps.pure _

/-- Bytes of other commands leave the loading alone. -/
theorem steps_write (other : loads can.state = false) :
    ((write byte).run can).state.loadTX = can.loadTX := by
  unfold write
  rw [bind_run, get_run, Outcome.andThen_ok]
  cases state : can.state with
  | init => exact Steps.bind steps_command (fun _ => Steps.pure _) can
  | readRegister =>
      dsimp only
      exact steps_readRegister can
  | writeRegister =>
      dsimp only
      exact steps_writeRegister can
  | bitmod => exact steps_modifyRegister can
  | sendTX0 | sendTX1 | sendTX2 | sendALL => exact steps_sendTxBuf byte _ can
  | readRX0 | readRX1 => exact steps_readRxBuf byte _ can
  | getStatus => rfl
  | loadTX0 | loadTX1 | loadTX2 =>
      rw [state] at other
      cases other

theorem write_of_loads (byte : Byte) (loading : loads can.state = true) :
    ((write byte).run can).result = ((loadTxBuf (whichBuf can.state) byte).run can).result ∧
      ((write byte).run can).state = ((loadTxBuf (whichBuf can.state) byte).run can).state := by
  unfold write
  rw [bind_run, get_run, Outcome.andThen_ok]
  cases state : can.state with
  | loadTX0 | loadTX1 | loadTX2 => exact ⟨rfl, rfl⟩
  | _ =>
      rw [state] at loading
      cases loading

theorem sound_write (sound : Sound can) {reply : Byte}
    (returned : ((write byte).run can).result = .ok reply) :
    Sound ((write byte).run can).state := by
  cases loading : loads can.state with
  | true =>
      obtain ⟨result, reached⟩ := write_of_loads byte loading
      rw [result] at returned
      rw [reached]
      exact sound_loadTxBuf sound loading returned
  | false =>
      exact sound_of_initial ((steps_write loading).trans (sound.initial loading))

/-! ## Orderly runs -/

/-- A byte makes the controller use no index outside an array. The address of a BITMOD names a
register; no byte follows an RTS for all buffers; the buffer of an RTS claims at most eight bytes;
a LOAD TX has claimed a length its payload has room for, or has not used the room up yet; a READ RX
has not read the whole buffer yet. -/
def Orderly (can : CAN) : Input → Prop
  | .frame _ => True
  | .byte _ =>
      match can.state with
      | .bitmod => can.modReg.state = .data → can.modReg.address.toNat ≤ MCP_RXB1SIDH
      | .loadTX0 | .loadTX1 | .loadTX2 =>
          can.loadTX.state = .payload →
            (0 < claimedLength can.txBuf (whichBuf can.state) ∧
              claimedLength can.txBuf (whichBuf can.state) ≤ CANFD_MAX_DLEN) ∨
            can.loadTX.payload_ptr.toNat < CANFD_MAX_DLEN
      | .sendALL => False
      | .sendTX0 | .sendTX1 | .sendTX2 =>
          claimedLength can.txBuf (whichBuf can.state) ≤ CAN_MAX_DLEN
      | .readRX0 | .readRX1 => can.rxPtr.toNat < 5 + CANFD_MAX_DLEN
      | _ => True

/-- A payload that has claimed a possible length stays within it. -/
theorem Sound.payload_iff (sound : Sound can) :
    (can.loadTX.state = .payload → can.loadTX.payload_ptr.toNat < CANFD_MAX_DLEN) ↔
      (can.loadTX.state = .payload →
        (0 < claimedLength can.txBuf (whichBuf can.state) ∧
          claimedLength can.txBuf (whichBuf can.state) ≤ CANFD_MAX_DLEN) ∨
        can.loadTX.payload_ptr.toNat < CANFD_MAX_DLEN) := by
  refine forall_congr' fun payload => ⟨.inr, ?_⟩
  rintro (⟨positive, fits⟩ | inside)
  · exact (sound.payload payload positive).trans_le fits
  · exact inside

theorem inside_write (sound : Sound can) :
    Inside (write byte) can ↔ Orderly can (.byte byte) := by
  unfold Inside write Orderly
  rw [bind_run, get_run, Outcome.andThen_ok]
  cases state : can.state with
  | init => exact iff_of_true ⟨0, rfl⟩ trivial
  | readRegister =>
      dsimp only
      exact iff_of_true inside_readRegister trivial
  | writeRegister =>
      dsimp only
      exact iff_of_true inside_writeRegister trivial
  | bitmod => exact inside_modifyRegister
  | loadTX0 | loadTX1 | loadTX2 =>
      have payload := sound.payload_iff
      rw [state] at payload
      exact (inside_loadTxBuf (by decide) sound.id).trans payload
  | sendTX0 | sendTX1 | sendTX2 =>
      exact (inside_sendTxBuf byte (by decide)).trans (and_iff_right (by decide))
  | sendALL =>
      exact (inside_sendTxBuf byte (by decide)).trans (iff_of_false (by simp [whichBuf]) id)
  | readRX0 | readRX1 => exact inside_readRxBuf byte (by decide)
  | getStatus => exact iff_of_true ⟨can.status, rfl⟩ trivial

theorem inside_enqueueIncomingCanFrame (frame : ReceivedFrame) :
    Inside (enqueueIncomingCanFrame frame.toCanFrame) can := by
  unfold Inside enqueueIncomingCanFrame
  rw [bind_run, get_run, Outcome.andThen_ok]
  cases free : [0, 1].find? fun index => !can.status.getLsbD index with
  | none => exact ⟨(), rfl⟩
  | some index =>
      have buffer : index < 2 := by
        have among := List.mem_of_find?_eq_some free
        simp only [List.mem_cons, List.not_mem_nil, or_false] at among
        omega
      have fits := frame.bounded
      dsimp only
      rw [copy_of_le fits (fits.trans (by decide)), bind_run, pure_run, Outcome.andThen_ok,
        bind_run, replace_of_lt buffer]
      exact ⟨(), rfl⟩

theorem steps_enqueueIncomingCanFrame (frame : CanFrame) :
    Steps (Unchanged fun can : CAN => (can.loadTX, can.txBuf, can.state))
      (enqueueIncomingCanFrame frame) := by
  refine Steps.bind Steps.get fun can => ?_
  split
  · exact Steps.pure _
  · refine Steps.bind (Steps.copy _ _ _ _ _) fun payload => ?_
    exact Steps.bind (Steps.replace _ _ _ _) fun _ => Steps.modify fun can => rfl

/-- A frame from the network does not concern the transmit buffers. -/
theorem sound_enqueueIncomingCanFrame (sound : Sound can) (frame : CanFrame) :
    Sound ((enqueueIncomingCanFrame frame).run can).state := by
  have same := steps_enqueueIncomingCanFrame frame can
  generalize ((enqueueIncomingCanFrame frame).run can).state = after at same ⊢
  obtain ⟨loadTX, txBuf, state⟩ : after.loadTX = can.loadTX ∧ after.txBuf = can.txBuf ∧
      after.state = can.state := by simpa [Unchanged] using same
  exact ⟨by rw [loadTX]; exact sound.id, by rw [loadTX]; exact sound.length,
    by rw [loadTX, txBuf, state]; exact sound.payload, by rw [loadTX, state]; exact sound.loading⟩

/-- What the controller does with an input; nothing if it uses an index outside an array. -/
def takes (can : CAN) (input : Input) : Option (CAN × List Event) :=
  match (handle input).run can with
  | ⟨.ok _, after, log⟩ => some (after, log)
  | ⟨.error _, _, _⟩ => none

theorem takes_isSome_iff (input : Input) :
    (takes can input).isSome = true ↔ Inside (handle input) can := by
  unfold takes Inside
  generalize (handle input).run can = outcome
  obtain ⟨result, after, log⟩ := outcome
  cases result <;> simp

theorem inside_handle (sound : Sound can) (input : Input) :
    Inside (handle input) can ↔ Orderly can input := by
  cases input with
  | byte byte =>
      rw [← inside_write sound]
      unfold Inside handle
      rw [bind_run]
      generalize (write byte).run can = outcome
      obtain ⟨result, after, log⟩ := outcome
      cases result <;> simp
  | frame frame => exact iff_of_true (inside_enqueueIncomingCanFrame frame) trivial

theorem sound_takes (sound : Sound can) {input : Input} {events : List Event}
    (taken : takes can input = some (after, events)) : Sound after := by
  unfold takes at taken
  cases input with
  | byte byte =>
      rw [handle, bind_run] at taken
      have kept : ∀ reply, ((write byte).run can).result = .ok reply →
          Sound ((write byte).run can).state := fun reply => sound_write sound
      generalize (write byte).run can = outcome at taken kept
      obtain ⟨result, reached, log⟩ := outcome
      cases result with
      | ok reply =>
          cases taken
          exact kept reply rfl
      | error fault => cases taken
  | frame frame =>
      rw [handle] at taken
      have kept := sound_enqueueIncomingCanFrame sound frame.toCanFrame
      generalize (enqueueIncomingCanFrame frame.toCanFrame).run can = outcome at taken kept
      obtain ⟨result, reached, log⟩ := outcome
      cases result with
      | ok reply =>
          cases taken
          exact kept
      | error fault => cases taken

/-- A run of bytes and frames uses only indices inside the arrays if and only if each of its bytes
is orderly where it comes. -/
theorem perform_isSome_iff_orderly (powerOn : PowerOn can) (inputs : List Input) :
    (ActionRun.perform takes can inputs).isSome = true ↔
      ActionRun.Meets takes Orderly can inputs := by
  refine ActionRun.perform_isSome_iff (fun sound => ?_) (fun sound taken => sound_takes sound taken)
    (sound_of_initial powerOn.loadTX)
  exact (takes_isSome_iff _).trans (inside_handle sound _)

/-! ## Four ways out of the arrays -/

/-- A controller in memory that was zero. -/
def blank : CAN where
  state := .init
  registers := Vector.replicate _ 0
  txBuf := Vector.replicate _ ⟨Vector.replicate _ 0, 0, Vector.replicate _ 0⟩
  rxBuf := Vector.replicate _ ⟨Vector.replicate _ 0, 0, Vector.replicate _ 0⟩
  status := 0
  readSelected := -1
  writeSelected := -1
  modReg := ⟨.address, 0, 0, 0⟩
  loadTX := .initial
  rxPtr := 0

theorem powerOn_blank : PowerOn blank := ⟨rfl, rfl, rfl, rfl, rfl, rfl, rfl⟩

def bytes (sent : List Nat) : List Input := sent.map fun byte => .byte (BitVec.ofNat 8 byte)

/-- A BITMOD of a register that does not exist; an RTS for all buffers; a frame of nine bytes; and a
payload that claims to have no bytes, and has 65. -/
theorem not_inside :
    PowerOn blank ∧
      ActionRun.perform takes blank (bytes [MCP_BITMOD, 0x72, 0xFF, 0x01]) = none ∧
      ActionRun.perform takes blank (bytes [MCP_RTS_ALL, 0]) = none ∧
      ActionRun.perform takes blank
        (bytes ([MCP_LOAD_TX0, 0, 0, 0, 0, 9] ++ List.replicate 9 0 ++ [MCP_RTS_TX0, 0])) = none ∧
      ActionRun.perform takes blank
        (bytes ([MCP_LOAD_TX0, 0, 0, 0, 0, 0] ++ List.replicate 65 0)) = none := by
  refine ⟨powerOn_blank, ?_, ?_, ?_, ?_⟩ <;> decide +kernel

/-- A register is written and modified, a frame with one byte is loaded and sent, and one is
received and read. -/
theorem orderly_session :
    ActionRun.Meets takes Orderly blank
      (bytes ([MCP_WRITE, 0x0F, 0x80, MCP_BITMOD, 0x0F, 0xE0, 0x00] ++
          [MCP_LOAD_TX0, 0x20, 0, 0, 0, 1, 0x42, MCP_RTS_TX0, 0]) ++
        [.frame ⟨⟨1, 1, Vector.replicate _ 7⟩, by decide⟩] ++
        bytes [0, MCP_READ_RX0, 0, 0, 0, 0, 0, 0]) := by
  refine (perform_isSome_iff_orderly powerOn_blank _).mp ?_
  decide +kernel

end SymexVP.Can
