import SymexVP.Arrivals
import SymexVP.CanRecovery
import SymexVP.UnseenParts

/-!
# Frames that arrive between the bytes of a command

A thread of its own listens to the network and puts what it receives into a free receive
buffer, at any time. The bytes of the guest are not disturbed by it: a frame is not answered,
it touches no buffer that is in use, and it touches nothing that a command looks at, but for
the one that asks which buffers are in use.
-/

namespace SymexVP.Can

open Exec ActionRun

variable {can other next : CAN} {byte reply : Byte} {events : List Event}

/-! ## Frames -/

/-- What a receive buffer holds of a frame. -/
def received (frame : CanFrame) : MCPFrame where
  id := mcp2515IdToBuf (frame.can_id.setWidth 64) false
  length := frame.can_dlc
  payload := copied frame.data frame.can_dlc.toNat (Vector.replicate CANFD_MAX_DLEN 0)

/-- The buffer that takes the next frame. -/
def freeBuffer (can : CAN) : Option Nat := [0, 1].find? fun index => !can.status.getLsbD index

theorem freeBuffer_spec {index : Nat} (free : freeBuffer can = some index) :
    index < 2 ∧ can.status.getLsbD index = false := by
  have unused := List.find?_some free
  have among := List.mem_of_find?_eq_some free
  simp only [List.mem_cons, List.not_mem_nil, or_false] at among
  constructor
  · omega
  · simpa using unused

theorem takes_frame_of_none (full : freeBuffer can = none) (frame : ReceivedFrame) :
    takes can (.frame frame) = some (can, []) := by
  unfold takes handle enqueueIncomingCanFrame
  unfold freeBuffer at full
  rw [bind_run, get_run, Outcome.andThen_ok, full]
  rfl

theorem takes_frame_of_some {index : Nat} (free : freeBuffer can = some index) (inside : index < 2)
    (frame : ReceivedFrame) :
    takes can (.frame frame) =
      some ({ can with
        rxBuf := can.rxBuf.set index (received frame.toCanFrame)
        status := can.status ||| (1 : Byte) <<< index }, []) := by
  have fits := frame.bounded
  unfold takes handle enqueueIncomingCanFrame
  unfold freeBuffer at free
  rw [bind_run, get_run, Outcome.andThen_ok, free]
  dsimp only
  rw [copy_of_le fits (fits.trans (by decide)), bind_run, pure_run, Outcome.andThen_ok, bind_run,
    replace_of_lt inside]
  rfl

/-! ## Controllers beside each other -/

/-- The controller with other receive buffers. -/
def CAN.withReceived (can : CAN) (rxBuf : Vector MCPFrame 2) (status : Byte) : CAN :=
  { can with rxBuf := rxBuf, status := status }

/-- The second controller has received more: it differs in buffers that are free in the first. -/
structure Aside (can other : CAN) : Prop where
  same : other = can.withReceived other.rxBuf other.status
  kept : ∀ no, can.status.getLsbD no = true →
    other.status.getLsbD no = true ∧ other.rxBuf[no]? = can.rxBuf[no]?

theorem Aside.refl (can : CAN) : Aside can can := ⟨rfl, fun _ used => ⟨used, rfl⟩⟩

theorem Aside.state (aside : Aside can other) : other.state = can.state := by
  rw [aside.same]
  rfl

theorem getLsbD_shiftOne (index no : Nat) (inside : index < 8) :
    ((1 : Byte) <<< index).getLsbD no = decide (no = index) := by
  rw [BitVec.getLsbD_shiftLeft, show (1 : Byte) = BitVec.ofNat 8 1 from rfl, BitVec.getLsbD_one]
  by_cases same : no = index
  · subst same
    simp [inside]
  · have differs : ¬(no - index = 0 ∧ index ≤ no) := by omega
    simp only [same, decide_false, Bool.and_eq_false_iff, Bool.not_eq_false', decide_eq_true_eq,
      decide_eq_false_iff_not]
    omega

theorem Aside.arrives (aside : Aside can other) (frame : ReceivedFrame) :
    ∃ next, takes other (.frame frame) = some (next, []) ∧ Aside can next := by
  cases free : freeBuffer other with
  | none => exact ⟨other, takes_frame_of_none free frame, aside⟩
  | some index =>
      obtain ⟨inside, unused⟩ := freeBuffer_spec free
      refine ⟨_, takes_frame_of_some free inside frame, ?_, fun no used => ?_⟩
      · rw [aside.same]
        rfl
      · obtain ⟨stillUsed, sameFrame⟩ := aside.kept no used
        have differs : index ≠ no := by
          rintro rfl
          rw [unused] at stillUsed
          cases stillUsed
        constructor
        · rw [BitVec.getLsbD_or, stillUsed, Bool.true_or]
        · rw [Vector.getElem?_set_ne inside differs, sameFrame]

/-! ## Bytes -/

section Blind

variable (rxBuf : Vector MCPFrame 2) (status : Byte)

theorem blind_command (byte : Byte) : Blind (·.withReceived rxBuf status) (command byte) :=
  .modify fun _ => rfl

theorem blind_readRegister (byte : Byte) :
    Blind (·.withReceived rxBuf status) (readRegister byte) := by
  refine .get_bind (fun _ => rfl) fun can => .ite ?_ (.ite ?_ ?_)
  · exact .bind (.modify fun _ => rfl) fun _ => .pure _
  · refine .bind (.modify fun _ => rfl) fun _ => ?_
    exact .bind (blind_command rxBuf status byte) fun _ => .pure _
  · have value : Blind (·.withReceived rxBuf status) (registerValue can) := by
      unfold registerValue
      exact .ite (.pure _) (.element _ _ _)
    exact .bind value fun _ => .bind (.modify fun _ => rfl) fun _ => .pure _

theorem blind_writeRegister (byte : Byte) :
    Blind (·.withReceived rxBuf status) (writeRegister byte) := by
  refine .get_bind (fun _ => rfl) fun can => .ite ?_ (.ite (.pure _) ?_)
  · exact .bind (.modify fun _ => rfl) fun _ => .pure _
  · exact .bind (.replace _ _ _ _) fun _ => .bind (.modify fun _ => rfl) fun _ => .pure _

theorem blind_modifyRegister (byte : Byte) :
    Blind (·.withReceived rxBuf status) (modifyRegister byte) := by
  refine .get_bind (fun _ => rfl) fun can => ?_
  cases can.modReg.state with
  | address | mask => exact .bind (.modify fun _ => rfl) fun _ => .pure _
  | data =>
      refine .bind (.modify fun _ => rfl) fun _ => .bind (.element _ _ _) fun _ => ?_
      exact .bind (.replace _ _ _ _) fun _ => .bind (.modify fun _ => rfl) fun _ => .pure _

theorem blind_loadTxBuf (no : Nat) (byte : Byte) :
    Blind (·.withReceived rxBuf status) (loadTxBuf no byte) := by
  refine .get_bind (fun _ => rfl) fun can => .bind (.element _ _ _) fun buffer => ?_
  cases can.loadTX.state with
  | id =>
      refine .bind (.replace _ _ _ _) fun _ => .bind (.replace _ _ _ _) fun _ => ?_
      exact .bind (.modify fun _ => rfl) fun _ => .pure _
  | length =>
      exact .bind (.replace _ _ _ _) fun _ => .bind (.modify fun _ => rfl) fun _ => .pure _
  | payload =>
      refine .bind (.replace _ _ _ _) fun _ => .bind (.replace _ _ _ _) fun _ => ?_
      refine .bind (.modify fun can => ?_) fun _ => .pure _
      split
      · rfl
      · rfl

theorem blind_sendTxBuf (no : Nat) (byte : Byte) :
    Blind (·.withReceived rxBuf status) (sendTxBuf no byte) := by
  refine .get_bind (fun _ => rfl) fun can => .bind (.element _ _ _) fun buffer => ?_
  refine .bind (.copy _ _ _ _ _) fun _ => .bind (.emit _) fun _ => ?_
  exact .bind (.replace _ _ _ _) fun _ => .bind (.modify fun _ => rfl) fun _ => .pure _

/-- Only three states look at the receive buffers. -/
theorem blind_write (receiving : receives can.state = false) (asking : can.state ≠ .getStatus)
    (byte : Byte) :
    (write byte).run (can.withReceived rxBuf status) =
      ((write byte).run can).changed (·.withReceived rxBuf status) := by
  rw [write, bind_run, bind_run, get_run, get_run, Outcome.andThen_ok, Outcome.andThen_ok,
    show (can.withReceived rxBuf status).state = can.state from rfl]
  cases state : can.state with
  | init => exact Blind.bind (blind_command rxBuf status byte) (fun _ => .pure _) can
  | readRegister => exact blind_readRegister rxBuf status byte can
  | writeRegister => exact blind_writeRegister rxBuf status byte can
  | bitmod => exact blind_modifyRegister rxBuf status byte can
  | loadTX0 | loadTX1 | loadTX2 => exact blind_loadTxBuf rxBuf status _ byte can
  | sendTX0 | sendTX1 | sendTX2 | sendALL => exact blind_sendTxBuf rxBuf status _ byte can
  | readRX0 | readRX1 =>
      rw [state] at receiving
      cases receiving
  | getStatus => exact absurd state asking

theorem blind_takes (receiving : receives can.state = false) (asking : can.state ≠ .getStatus)
    (taken : takes can (.byte byte) = some (next, events)) :
    takes (can.withReceived rxBuf status) (.byte byte) =
      some (next.withReceived rxBuf status, events) := by
  unfold takes handle at taken ⊢
  rw [bind_run] at taken ⊢
  rw [blind_write rxBuf status receiving asking byte]
  generalize (write byte).run can = outcome at taken ⊢
  obtain ⟨result, middle, log⟩ := outcome
  cases result with
  | error fault => cases taken
  | ok value =>
      cases taken
      rfl

end Blind

/-- A byte that is not for a receive buffer leaves them as they are. -/
theorem received_kept (receiving : receives can.state = false) (asking : can.state ≠ .getStatus)
    (taken : takes can (.byte byte) = some (next, events)) :
    next.rxBuf = can.rxBuf ∧ next.status = can.status := by
  have same := blind_takes can.rxBuf can.status receiving asking taken
  rw [show can.withReceived can.rxBuf can.status = can from rfl, taken] at same
  obtain ⟨unchanged, -⟩ := Prod.mk.inj (Option.some.inj same)
  rw [unchanged]
  exact ⟨rfl, rfl⟩

/-! ## Bytes for a receive buffer -/

theorem whichBuf_lt_of_receives (receiving : receives can.state = true) :
    whichBuf can.state < 2 := by
  cases state : can.state with
  | readRX0 | readRX1 => decide
  | _ =>
      rw [state] at receiving
      cases receiving

theorem write_of_receives (receiving : receives can.state = true) (byte : Byte) :
    (write byte).run can = (readRxBuf (whichBuf can.state) byte).run can := by
  rw [write, bind_run, get_run, Outcome.andThen_ok]
  cases state : can.state with
  | readRX0 | readRX1 => rfl
  | _ =>
      rw [state] at receiving
      cases receiving

/-- The controller behind a byte for a receive buffer. -/
def CAN.read (can : CAN) (frame : MCPFrame) : CAN :=
  if frame.length.toNat + 4 < (can.rxPtr + 1).toNat then
    { can with
      rxPtr := 0
      state := .init
      status := can.status &&& ~~~((1 : Byte) <<< whichBuf can.state) }
  else { can with rxPtr := can.rxPtr + 1 }

theorem takes_receive_eq (receiving : receives can.state = true) {frame : MCPFrame}
    (held : can.rxBuf[whichBuf can.state]? = some frame) (byte : Byte) :
    takes can (.byte byte) =
      if inside : can.rxPtr.toNat < 5 + CANFD_MAX_DLEN then
        some (can.read frame, [.replied frame.raw[can.rxPtr.toNat]])
      else none := by
  have buffer := whichBuf_lt_of_receives receiving
  rw [Vector.getElem?_eq_getElem buffer] at held
  have run := write_of_receives receiving byte
  unfold readRxBuf at run
  rw [bind_run, get_run, Outcome.andThen_ok, bind_run, element_of_lt buffer, pure_run,
    Outcome.andThen_ok, Option.some.inj held] at run
  split_ifs with inside
  · rw [bind_run, element_of_lt inside] at run
    refine takes_quiet (run.trans ?_)
    simp only [pure_run, Outcome.andThen_ok, bind_run, modify_run, CAN.read]
    split_ifs with ends
    · rw [Exec.when, if_pos ends]
      rfl
    · rw [Exec.when, if_neg ends]
      rfl
  · rw [bind_run, element_of_le (Nat.not_lt.mp inside)] at run
    rw [takes, handle, bind_run, run]
    rfl

theorem getLsbD_freed (status : Byte) (index no : Nat) (inside : index < 8) :
    (status &&& ~~~((1 : Byte) <<< index)).getLsbD no =
      (status.getLsbD no && !decide (no = index)) := by
  rw [BitVec.getLsbD_and, BitVec.getLsbD_not, getLsbD_shiftOne _ _ inside]
  by_cases small : no < 8
  · simp [small]
  · simp [BitVec.getLsbD_of_ge status no (Nat.not_lt.mp small)]

/-- A buffer in use is read in the same way, whatever the other one holds. -/
theorem Aside.receives (aside : Aside can other) (receiving : receives can.state = true)
    (used : can.status.getLsbD (whichBuf can.state) = true)
    (taken : takes can (.byte byte) = some (next, events)) :
    ∃ next', takes other (.byte byte) = some (next', events) ∧ Aside next next' := by
  have buffer := whichBuf_lt_of_receives receiving
  have held : can.rxBuf[whichBuf can.state]? = some can.rxBuf[whichBuf can.state] :=
    Vector.getElem?_eq_getElem buffer
  obtain ⟨-, sameFrame⟩ := aside.kept _ used
  have receiving' : Can.receives other.state = true := by rw [aside.state, receiving]
  have held' : other.rxBuf[whichBuf other.state]? = some can.rxBuf[whichBuf can.state] := by
    rw [aside.state, sameFrame, held]
  have taken' := takes_receive_eq receiving' held' byte
  have pointer : other.rxPtr = can.rxPtr := by
    rw [aside.same]
    rfl
  rw [takes_receive_eq receiving held] at taken
  simp only [pointer] at taken'
  split_ifs at taken taken' with inside
  obtain ⟨rfl, rfl⟩ := Prod.mk.inj (Option.some.inj taken)
  refine ⟨_, taken', ?_⟩
  unfold CAN.read
  rw [pointer]
  split_ifs with ends
  · refine ⟨?_, fun no stillUsed => ?_⟩
    · rw [aside.same]
      rfl
    · dsimp only at stillUsed ⊢
      rw [aside.state]
      rw [getLsbD_freed _ _ _ (buffer.trans (by decide)), Bool.and_eq_true] at stillUsed ⊢
      obtain ⟨same, kept⟩ := aside.kept no stillUsed.1
      exact ⟨⟨same, stillUsed.2⟩, kept⟩
  · refine ⟨?_, aside.kept⟩
    rw [aside.same]
    rfl

/-! ## Runs -/

/-- A byte that frames do not bear upon: the buffers in use are not asked for, and a receive buffer
is read only while it is in use. -/
def Heeds (can : CAN) : Input → Prop
  | .frame _ => True
  | .byte _ => can.state ≠ .getStatus ∧
      (receives can.state = true → can.status.getLsbD (whichBuf can.state) = true)

instance (can : CAN) : (input : Input) → Decidable (Heeds can input)
  | .frame _ => isTrue trivial
  | .byte _ => inferInstanceAs (Decidable (_ ∧ (_ → _)))

def Input.isByte : Input → Bool
  | .byte _ => true
  | .frame _ => false

theorem undisturbed : Undisturbed takes Input.isByte Heeds Aside where
  arrives := by
    intro can other input aside arrival
    cases input with
    | byte byte => cases arrival
    | frame frame => exact aside.arrives frame
  takes := by
    intro can other input next events aside isByte heeds taken
    cases input with
    | frame frame => cases isByte
    | byte byte =>
        obtain ⟨asking, inUse⟩ := heeds
        cases receiving : Can.receives can.state with
        | true => exact aside.receives receiving (inUse receiving) taken
        | false =>
            obtain ⟨sameBuffers, sameStatus⟩ := received_kept receiving asking taken
            have taken' := blind_takes other.rxBuf other.status receiving asking taken
            rw [← aside.same] at taken'
            refine ⟨_, taken', rfl, fun no used => ?_⟩
            rw [sameStatus] at used
            rw [sameBuffers]
            exact aside.kept no used

/-- Frames may arrive at any time: as long as the bytes of the guest do not ask for the buffers in
use and read no buffer that is free, the answers are what they are without any frame, and so is
the controller, apart from the buffers that are free without it. -/
theorem frames_do_not_disturb (can last : CAN) (log : List Event) (inputs : List Input)
    (heeds : Meets takes Heeds can (inputs.filter Input.isByte))
    (ran : perform takes can (inputs.filter Input.isByte) = some (last, log)) :
    ∃ reached, perform takes can inputs = some (reached, log) ∧ Aside last reached :=
  undisturbed.perform (Aside.refl can) heeds ran

/-- A frame from elsewhere. -/
def strayFrame : ReceivedFrame := ⟨⟨0x7FF, 1, Vector.replicate 8 0xEE⟩, by decide⟩

/-- A register is written and read while frames arrive. -/
def disturbedSession : List Input :=
  bytes [MCP_WRITE, 0x0F] ++ .frame strayFrame :: bytes [0x80, MCP_READ, 0x0F] ++
    .frame strayFrame :: bytes [0]

theorem frames_do_not_disturb_session :
    ∃ last log reached, perform takes blank (disturbedSession.filter Input.isByte) = some (last, log) ∧
      perform takes blank disturbedSession = some (reached, log) ∧ Aside last reached := by
  have enabled : (perform takes blank (disturbedSession.filter Input.isByte)).isSome = true := by
    decide +kernel
  have heeds : Meets takes Heeds blank (disturbedSession.filter Input.isByte) := by decide +kernel
  obtain ⟨⟨last, log⟩, ran⟩ := Option.isSome_iff_exists.mp enabled
  obtain ⟨reached, performed, aside⟩ :=
    frames_do_not_disturb blank last log disturbedSession heeds ran
  exact ⟨last, log, reached, ran, performed, aside⟩

end SymexVP.Can
