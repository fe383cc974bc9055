import SymexVP.CanArrivals
import SymexVP.CanIdentifiers

/-!
# Frames from one controller to another

A guest loads a transmit buffer byte by byte and asks for it to be sent, and another guest reads
a frame out of the receive buffer that took it. What is read is what was loaded, with the
identifier as far as a receive buffer keeps it, whatever frames arrive in the meantime.
-/

namespace SymexVP.Can

open Exec ActionRun

variable {can after : CAN} {byte : Byte}

/-! ## Commands for buffers -/

def MCP_LOAD_TX : Fin 3 → Nat
  | 0 => MCP_LOAD_TX0
  | 1 => MCP_LOAD_TX1
  | 2 => MCP_LOAD_TX2

def MCP_RTS_TX : Fin 3 → Nat
  | 0 => MCP_RTS_TX0
  | 1 => MCP_RTS_TX1
  | 2 => MCP_RTS_TX2

def MCP_READ_RX : Fin 2 → Nat
  | 0 => MCP_READ_RX0
  | 1 => MCP_READ_RX1

def loadState : Fin 3 → State
  | 0 => .loadTX0
  | 1 => .loadTX1
  | 2 => .loadTX2

def sendState : Fin 3 → State
  | 0 => .sendTX0
  | 1 => .sendTX1
  | 2 => .sendTX2

def readState : Fin 2 → State
  | 0 => .readRX0
  | 1 => .readRX1

theorem commanded_load (no : Fin 3) :
    commanded (BitVec.ofNat 8 (MCP_LOAD_TX no)) = some (loadState no) := by
  revert no
  decide

theorem commanded_rts (no : Fin 3) :
    commanded (BitVec.ofNat 8 (MCP_RTS_TX no)) = some (sendState no) := by
  revert no
  decide

theorem commanded_read (no : Fin 2) :
    commanded (BitVec.ofNat 8 (MCP_READ_RX no)) = some (readState no) := by
  revert no
  decide

theorem ne_zero_of_commanded {state : State} (commands : commanded byte = some state) :
    byte ≠ 0 := by
  rintro rfl
  cases commands

theorem loadState_spec (no : Fin 3) :
    whichBuf (loadState no) = no ∧ loads (loadState no) = true ∧
      receives (loadState no) = false ∧ loadState no ≠ .getStatus := by
  revert no
  decide

theorem sendState_spec (no : Fin 3) :
    whichBuf (sendState no) = no ∧ sends (sendState no) = true ∧
      receives (sendState no) = false ∧ sendState no ≠ .getStatus := by
  revert no
  decide

theorem readState_spec (no : Fin 2) :
    whichBuf (readState no) = no ∧ receives (readState no) = true ∧ readState no ≠ .getStatus := by
  revert no
  decide

/-! ## Reading -/

/-- The bytes of a frame as they are read. -/
def MCPFrame.shown (frame : MCPFrame) : List Byte :=
  frame.raw.toList.take (5 + frame.length.toNat)

section Reading

variable {frame : MCPFrame}

/-- The rest of a frame is read, and its buffer is free again. -/
theorem perform_read (receiving : receives can.state = true) (asking : can.state ≠ .getStatus)
    (held : can.rxBuf[whichBuf can.state]? = some frame)
    (used : can.status.getLsbD (whichBuf can.state) = true)
    (fits : frame.length.toNat ≤ CANFD_MAX_DLEN) {bytes : List Byte} (nonempty : bytes ≠ [])
    (remaining : can.rxPtr.toNat + bytes.length = 5 + frame.length.toNat) :
    perform takes can (bytes.map .byte) =
        some ({ can with
          rxPtr := 0
          state := .init
          status := can.status &&& ~~~((1 : Byte) <<< whichBuf can.state) },
          (frame.shown.drop can.rxPtr.toNat).map .replied) ∧
      Meets takes Heeds can (bytes.map .byte) := by
  induction bytes generalizing can with
  | nil => exact absurd rfl nonempty
  | cons byte rest inductionHypothesis =>
      unfold CANFD_MAX_DLEN at fits
      rw [List.length_cons] at remaining
      have inside : can.rxPtr.toNat < 5 + CANFD_MAX_DLEN := by
        unfold CANFD_MAX_DLEN
        omega
      have taken := takes_receive_eq receiving held byte
      rw [dif_pos inside] at taken
      have up : (can.rxPtr + 1).toNat = can.rxPtr.toNat + 1 := by bv_omega
      have length : frame.shown.length = 5 + frame.length.toNat := by
        rw [MCPFrame.shown, List.length_take, Vector.length_toList, Nat.min_eq_left]
        unfold CANFD_MAX_DLEN
        omega
      have next : frame.shown.drop can.rxPtr.toNat =
          frame.raw[can.rxPtr.toNat] :: frame.shown.drop (can.rxPtr.toNat + 1) := by
        rw [List.drop_eq_getElem_cons (by omega)]
        congr 1
        simp [MCPFrame.shown]
      unfold CAN.read at taken
      cases rest with
      | nil =>
          rw [List.length_nil] at remaining
          rw [if_pos (by omega)] at taken
          have empty : frame.shown.drop (can.rxPtr.toNat + 1) = [] := by
            rw [List.drop_eq_nil_iff, length]
            omega
          rw [next, empty]
          exact ⟨perform_of_step taken rfl, (meets_cons taken).mpr ⟨⟨asking, fun _ => used⟩, trivial⟩⟩
      | cons second others =>
          rw [List.length_cons] at remaining
          rw [if_neg (by omega)] at taken
          obtain ⟨ran, heeds⟩ := @inductionHypothesis { can with rxPtr := can.rxPtr + 1 } receiving
            asking held used (List.cons_ne_nil _ _) (by
              dsimp only
              rw [up, List.length_cons]
              omega)
          rw [next, ← up]
          exact ⟨perform_of_step taken ran, (meets_cons taken).mpr ⟨⟨asking, fun _ => used⟩, heeds⟩⟩

/-- A command may come, and no function of a buffer has anything begun. -/
theorem Tidy.between (tidy : Tidy can) (ready : Ready can) :
    can.loadTX = .initial ∧ can.rxPtr = 0 ∧ receives can.state = false ∧ can.state ≠ .getStatus := by
  obtain ⟨state, -⟩ | ⟨state, -⟩ := ready.waits
  · have idle : receives can.state = false := by rw [state]; rfl
    exact ⟨tidy.toSound.initial (by rw [state]; rfl), tidy.receive idle, idle, by rw [state]; decide⟩
  · have idle : receives can.state = false := by rw [state]; rfl
    exact ⟨tidy.toSound.initial (by rw [state]; rfl), tidy.receive idle, idle, by rw [state]; decide⟩

/-- A byte that begins a command is not disturbed. -/
theorem Tidy.heeds (tidy : Tidy can) (ready : Ready can) (byte : Byte) : Heeds can (.byte byte) := by
  obtain ⟨-, -, idle, asking⟩ := tidy.between ready
  refine ⟨asking, fun receiving => ?_⟩
  rw [idle] at receiving
  cases receiving

/-- The bytes that read a buffer. -/
def fetchBytes (no : Fin 2) (bytes : List Byte) : List Byte :=
  BitVec.ofNat 8 (MCP_READ_RX no) :: bytes

/-- The controller after a buffer has been read. -/
def CAN.freed (can : CAN) (no : Nat) : CAN :=
  { can with
    readSelected := -1
    rxPtr := 0
    state := .init
    status := can.status &&& ~~~((1 : Byte) <<< no) }

theorem perform_fetchBytes (tidy : Tidy can) (ready : Ready can) {no : Fin 2}
    (held : can.rxBuf[no.val]? = some frame) (used : can.status.getLsbD no = true)
    (fits : frame.length.toNat ≤ CANFD_MAX_DLEN) {bytes : List Byte}
    (all : bytes.length = 5 + frame.length.toNat) :
    perform takes can ((fetchBytes no bytes).map .byte) =
        some (can.freed no, (0 :: frame.shown).map .replied) ∧
      Meets takes Heeds can ((fetchBytes no bytes).map .byte) := by
  obtain ⟨buffer, receiving, asking⟩ := readState_spec no
  have first := ready.takes_command (commanded_read no) (ne_zero_of_commanded (commanded_read no))
  have nonempty : bytes ≠ [] := by
    rintro rfl
    rw [List.length_nil] at all
    omega
  obtain ⟨ran, heeds⟩ := @perform_read { can with readSelected := -1, state := readState no } frame
    receiving asking (by rw [buffer]; exact held) (by rw [buffer]; exact used) fits bytes nonempty (by
      dsimp only
      rw [(tidy.between ready).2.1, all]
      exact Nat.zero_add _)
  constructor
  · refine (perform_of_step first ran).trans ?_
    dsimp only
    rw [(tidy.between ready).2.1, buffer]
    rfl
  · exact (meets_cons first).mpr ⟨tidy.heeds ready _, heeds⟩

end Reading

/-- A frame in a receive buffer is read as it is, whatever frames arrive in the meantime: none takes
its place before it has been read, and none gets lost in the other buffer. -/
theorem mailbox_is_read (can : CAN) (tidy : Tidy can) (ready : Ready can) (no : Fin 2)
    (frame : MCPFrame) (held : can.rxBuf[no.val]? = some frame)
    (used : can.status.getLsbD no = true) (fits : frame.length.toNat ≤ CANFD_MAX_DLEN)
    (bytes : List Byte) (all : bytes.length = 5 + frame.length.toNat) (inputs : List Input)
    (asked : inputs.filter Input.isByte = (fetchBytes no bytes).map .byte) :
    ∃ reached, perform takes can inputs = some (reached, (0 :: frame.shown).map .replied) ∧
      Tidy reached ∧ reached.state = .init ∧
      ∀ other, other ≠ no.val → can.status.getLsbD other = true →
        reached.status.getLsbD other = true ∧ reached.rxBuf[other]? = can.rxBuf[other]? := by
  obtain ⟨ran, heeds⟩ := perform_fetchBytes tidy ready held used fits all
  rw [← asked] at ran heeds
  obtain ⟨reached, performed, aside⟩ := undisturbed.perform (Aside.refl can) heeds ran
  have kept : Tidy reached := perform_keeps_state (fun tidy _ taken => tidy_takes tidy taken) tidy
    (meets_true inputs) performed
  refine ⟨reached, performed, kept, aside.state, fun other differs inUse => aside.kept other ?_⟩
  rw [CAN.freed, getLsbD_freed _ _ _ (no.isLt.trans (by decide)), inUse]
  simpa using differs

/-- A frame with two bytes waits in the first buffer. -/
def waiting : CAN :=
  { blank with
    rxBuf := blank.rxBuf.setIfInBounds 0 (received ⟨0x123, 2, #v[0xAB, 0xCD, 0, 0, 0, 0, 0, 0]⟩)
    status := 1 }

theorem tidy_waiting : Tidy waiting := Reset.tidy ⟨⟨rfl, rfl, rfl, rfl⟩, rfl, rfl⟩

/-- Another frame arrives while the first one is read. -/
theorem mailbox_is_read_waiting :
    ∃ reached, perform takes waiting
        (bytes [MCP_READ_RX0, 0, 0] ++ .frame strayFrame :: bytes [0, 0, 0, 0, 0]) =
        some (reached, (0 :: [0x24, 0x60, 0, 0, 2, 0xAB, 0xCD]).map .replied) ∧
      Tidy reached ∧ reached.state = .init ∧
      ∀ other, other ≠ (0 : Fin 2).val → waiting.status.getLsbD other = true →
        reached.status.getLsbD other = true ∧ reached.rxBuf[other]? = waiting.rxBuf[other]? :=
  mailbox_is_read waiting tidy_waiting ⟨.inl ⟨rfl, rfl⟩, rfl, rfl⟩ 0 _ rfl rfl (by decide)
    (List.replicate 7 0) rfl _ rfl

/-! ## Loading -/

/-- The controller while a buffer is loaded, which holds a frame so far. -/
def CAN.loading (can : CAN) (no : Fin 3) (frame : MCPFrame) (load : LoadTX) : CAN :=
  { can with state := loadState no, txBuf := can.txBuf.set no frame, loadTX := load }

/-- The payload with bytes put in from a place on. -/
def filled (payload : Vector Byte CANFD_MAX_DLEN) (place : Nat) :
    List Byte → Vector Byte CANFD_MAX_DLEN
  | [] => payload
  | byte :: rest => filled (payload.setIfInBounds place byte) (place + 1) rest

section Loading

variable {no : Fin 3} {frame : MCPFrame} {ptr : Byte}

/-- A byte of an identifier. -/
theorem takes_loading_id (inside : ptr.toNat < 4) :
    takes (can.loading no frame ⟨.id, ptr⟩) (.byte byte) =
      some (can.loading no { frame with id := frame.id.set ptr.toNat byte }
        (if ptr + 1 = 4 then ⟨.length, 0⟩ else ⟨.id, ptr + 1⟩), [.replied 0]) := by
  obtain ⟨buffer, loading, -⟩ := loadState_spec no
  apply takes_quiet
  rw [write_of_loading loading]
  change (loadTxBuf (whichBuf (loadState no)) byte).run _ = _
  rw [buffer, loadTxBuf, bind_run, get_run, Outcome.andThen_ok]
  dsimp only [CAN.loading]
  rw [bind_run, element_of_lt no.isLt, pure_run, Outcome.andThen_ok]
  simp only [bind_run, replace_of_lt inside, replace_of_lt no.isLt, pure_run, modify_run,
    Outcome.andThen_ok, Vector.getElem_set_self, Vector.set_set]
  rfl

/-- The length. -/
theorem takes_loading_length :
    takes (can.loading no frame ⟨.length, ptr⟩) (.byte byte) =
      some (can.loading no { frame with length := byte } ⟨.payload, ptr⟩, [.replied 0]) := by
  obtain ⟨buffer, loading, -⟩ := loadState_spec no
  apply takes_quiet
  rw [write_of_loading loading]
  change (loadTxBuf (whichBuf (loadState no)) byte).run _ = _
  rw [buffer, loadTxBuf, bind_run, get_run, Outcome.andThen_ok]
  dsimp only [CAN.loading]
  rw [bind_run, element_of_lt no.isLt, pure_run, Outcome.andThen_ok]
  simp only [bind_run, replace_of_lt no.isLt, pure_run, modify_run, Outcome.andThen_ok,
    Vector.getElem_set_self, Vector.set_set]
  rfl

/-- A byte of the payload. -/
theorem takes_loading_payload (inside : ptr.toNat < CANFD_MAX_DLEN) :
    takes (can.loading no frame ⟨.payload, ptr⟩) (.byte byte) =
      some (if ptr + 1 = frame.length then
          { can.loading no { frame with payload := frame.payload.set ptr.toNat byte } .initial with
            state := .init }
        else can.loading no { frame with payload := frame.payload.set ptr.toNat byte }
          ⟨.payload, ptr + 1⟩, [.replied 0]) := by
  obtain ⟨buffer, loading, -⟩ := loadState_spec no
  apply takes_quiet
  rw [write_of_loading loading]
  change (loadTxBuf (whichBuf (loadState no)) byte).run _ = _
  rw [buffer, loadTxBuf, bind_run, get_run, Outcome.andThen_ok]
  dsimp only [CAN.loading]
  rw [bind_run, element_of_lt no.isLt, pure_run, Outcome.andThen_ok]
  simp only [bind_run, replace_of_lt inside, replace_of_lt no.isLt, pure_run, modify_run,
    Outcome.andThen_ok, Vector.getElem_set_self, Vector.set_set]
  rfl

/-- A byte for a buffer that is loaded is not disturbed. -/
theorem heeds_loading (load : LoadTX) : Heeds (can.loading no frame load) (.byte byte) := by
  obtain ⟨-, -, idle, asking⟩ := loadState_spec no
  refine ⟨asking, fun receiving => ?_⟩
  rw [show (can.loading no frame load).state = loadState no from rfl, idle] at receiving
  cases receiving

/-- The rest of a payload is loaded. -/
theorem perform_payload (fits : frame.length.toNat ≤ CANFD_MAX_DLEN) {data : List Byte}
    (nonempty : data ≠ []) (remaining : ptr.toNat + data.length = frame.length.toNat) :
    perform takes (can.loading no frame ⟨.payload, ptr⟩) (data.map .byte) =
        some ({ can.loading no { frame with payload := filled frame.payload ptr.toNat data }
            .initial with state := .init },
          List.replicate data.length (.replied 0)) ∧
      Meets takes Heeds (can.loading no frame ⟨.payload, ptr⟩) (data.map .byte) := by
  induction data generalizing frame ptr with
  | nil => exact absurd rfl nonempty
  | cons byte rest inductionHypothesis =>
      unfold CANFD_MAX_DLEN at fits
      rw [List.length_cons] at remaining
      have inside : ptr.toNat < CANFD_MAX_DLEN := by
        unfold CANFD_MAX_DLEN
        omega
      have taken := @takes_loading_payload can byte no frame ptr inside
      have up : (ptr + 1).toNat = ptr.toNat + 1 := by bv_omega
      have last : ptr + 1 = frame.length ↔ rest = [] := by
        rw [← BitVec.toNat_inj, up, ← List.length_eq_zero_iff]
        omega
      have here : frame.payload.setIfInBounds ptr.toNat byte = frame.payload.set ptr.toNat byte := by
        ext index bound
        rw [Vector.getElem_setIfInBounds, Vector.getElem_set]
      rw [filled, here]
      cases rest with
      | nil =>
          rw [if_pos (last.mpr rfl)] at taken
          exact ⟨perform_of_step taken rfl, (meets_cons taken).mpr ⟨heeds_loading _, trivial⟩⟩
      | cons second others =>
          rw [if_neg fun ends => List.cons_ne_nil _ _ (last.mp ends)] at taken
          obtain ⟨ran, heeds⟩ := @inductionHypothesis
            { frame with payload := frame.payload.set ptr.toNat byte } (ptr + 1) fits
            (List.cons_ne_nil _ _) (by
              dsimp only
              omega)
          rw [← up]
          exact ⟨perform_of_step taken ran, (meets_cons taken).mpr ⟨heeds_loading _, heeds⟩⟩

theorem set_all (old id : Vector Byte 4) :
    (((old.set 0 id[0]).set 1 id[1]).set 2 id[2]).set 3 id[3] = id := by
  ext index inside
  interval_cases index <;> simp

theorem toList_four (id : Vector Byte 4) : id.toList = [id[0], id[1], id[2], id[3]] := by
  refine List.ext_getElem (by simp) fun index inside _ => ?_
  rw [Vector.length_toList] at inside
  interval_cases index <;> simp

/-- An identifier is loaded. -/
theorem perform_id (id : Vector Byte 4) :
    perform takes (can.loading no frame ⟨.id, 0⟩) (id.toList.map .byte) =
        some (can.loading no { frame with id := id } ⟨.length, 0⟩, List.replicate 4 (.replied 0)) ∧
      Meets takes Heeds (can.loading no frame ⟨.id, 0⟩) (id.toList.map .byte) := by
  obtain ⟨old, length, payload⟩ := frame
  rw [toList_four]
  have first := @takes_loading_id can id[0] no ⟨old, length, payload⟩ 0 (by decide)
  have second := @takes_loading_id can id[1] no ⟨old.set 0 id[0], length, payload⟩ 1 (by decide)
  have third := @takes_loading_id can id[2] no ⟨(old.set 0 id[0]).set 1 id[1], length, payload⟩ 2
    (by decide)
  have fourth := @takes_loading_id can id[3] no
    ⟨((old.set 0 id[0]).set 1 id[1]).set 2 id[2], length, payload⟩ 3 (by decide)
  constructor
  · refine (perform_of_step first (perform_of_step second (perform_of_step third (perform_of_step
      fourth rfl)))).trans ?_
    have all := set_all old id
    dsimp only at all ⊢
    change some (can.loading no
      ⟨(((old.set 0 id[0]).set 1 id[1]).set 2 id[2]).set 3 id[3], length, payload⟩ _, _) = _
    rw [all]
    rfl
  · exact (meets_cons first).mpr ⟨heeds_loading _, (meets_cons second).mpr ⟨heeds_loading _,
      (meets_cons third).mpr ⟨heeds_loading _, (meets_cons fourth).mpr ⟨heeds_loading _, trivial⟩⟩⟩⟩

/-- The bytes that load a buffer. -/
def loadBytes (no : Fin 3) (id : Vector Byte 4) (length : Byte) (data : List Byte) : List Byte :=
  BitVec.ofNat 8 (MCP_LOAD_TX no) :: (id.toList ++ length :: data)

/-- What a buffer holds after these bytes. -/
def MCPFrame.loaded (frame : MCPFrame) (id : Vector Byte 4) (length : Byte) (data : List Byte) :
    MCPFrame where
  id := id
  length := length
  payload := filled frame.payload 0 data

/-- The controller after a buffer has been loaded. -/
def CAN.loaded (can : CAN) (no : Fin 3) (frame : MCPFrame) : CAN :=
  { can with
    readSelected := -1
    state := .init
    txBuf := can.txBuf.set no frame
    loadTX := .initial }

theorem perform_loadBytes (tidy : Tidy can) (ready : Ready can) (id : Vector Byte 4)
    {length : Byte} {data : List Byte} (nonempty : data ≠ []) (counts : data.length = length.toNat)
    (fits : length.toNat ≤ CANFD_MAX_DLEN) :
    perform takes can ((loadBytes no id length data).map .byte) =
        some (can.loaded no (can.txBuf[no].loaded id length data),
          List.replicate (6 + data.length) (.replied 0)) ∧
      Meets takes Heeds can ((loadBytes no id length data).map .byte) := by
  have begun := ready.takes_command (commanded_load no) (ne_zero_of_commanded (commanded_load no))
  have initial : { can with readSelected := -1, state := loadState no } =
      { can with readSelected := -1 }.loading no can.txBuf[no] ⟨.id, 0⟩ := by
    have unloaded := (tidy.between ready).1
    unfold CAN.loading
    rw [show (can.txBuf.set no can.txBuf[no]) = can.txBuf from Vector.set_getElem_self no.isLt,
      show (⟨.id, 0⟩ : LoadTX) = can.loadTX from unloaded.symm]
  rw [initial] at begun
  obtain ⟨named, heedsId⟩ := @perform_id { can with readSelected := -1 } no can.txBuf[no] id
  have counted := @takes_loading_length { can with readSelected := -1 } length no
    { can.txBuf[no] with id := id } 0
  obtain ⟨ran, heeds⟩ := @perform_payload { can with readSelected := -1 } no
    ⟨id, length, can.txBuf[no].payload⟩ 0 fits data nonempty ((Nat.zero_add _).trans counts)
  rw [loadBytes, List.map_cons, List.map_append, List.map_cons]
  constructor
  · refine (perform_of_step begun (perform_append named (perform_of_step counted ran))).trans ?_
    have replies : [Event.replied 0] ++ (List.replicate 4 (Event.replied 0) ++
        ([Event.replied 0] ++ List.replicate data.length (Event.replied 0))) =
        List.replicate (6 + data.length) (Event.replied 0) :=
      @List.replicate_append_replicate 6 _ _ _
    rw [replies]
    rfl
  · refine (meets_cons begun).mpr ⟨tidy.heeds ready _, Meets.append named heedsId ?_⟩
    exact (meets_cons counted).mpr ⟨heeds_loading _, heeds⟩

end Loading

/-! ## Sending -/

/-- The data of a frame, padded with zeros. -/
def frameData (data : List Byte) : Vector Byte CAN_MAX_DLEN := Vector.ofFn fun index => data.getD index 0

theorem getElem?_filled (payload : Vector Byte CANFD_MAX_DLEN) (place : Nat) (data : List Byte)
    (fits : place + data.length ≤ CANFD_MAX_DLEN) (index : Nat) :
    (filled payload place data)[index]? =
      if place ≤ index ∧ index < place + data.length then data[index - place]?
      else payload[index]? := by
  induction data generalizing payload place with
  | nil => rw [filled, if_neg (by rw [List.length_nil]; omega)]
  | cons byte rest inductionHypothesis =>
      rw [List.length_cons] at fits ⊢
      rw [filled, inductionHypothesis _ _ (by omega)]
      by_cases here : index = place
      · subst here
        rw [if_neg (by omega), if_pos (by omega), Nat.sub_self,
          Vector.getElem?_setIfInBounds_self_of_lt (by omega)]
        rfl
      · by_cases later : place + 1 ≤ index ∧ index < place + 1 + rest.length
        · obtain ⟨distance, rfl⟩ : ∃ distance, index = place + 1 + distance :=
            ⟨index - (place + 1), by omega⟩
          rw [if_pos later, if_pos (by omega), Nat.add_sub_cancel_left,
            show place + 1 + distance - place = distance + 1 by omega]
          rfl
        · rw [if_neg later, if_neg (by omega), Vector.getElem?_setIfInBounds_ne (Ne.symm here)]

theorem copied_filled (payload : Vector Byte CANFD_MAX_DLEN) (data : List Byte)
    (short : data.length ≤ CAN_MAX_DLEN) :
    copied (filled payload 0 data) data.length (Vector.replicate CAN_MAX_DLEN 0) =
      frameData data := by
  apply Vector.ext
  intro index inside
  have whole : index < CANFD_MAX_DLEN := inside.trans (by decide)
  have held := getElem?_filled payload 0 data ((Nat.zero_add _).le.trans (short.trans (by decide))) index
  rw [Vector.getElem?_eq_getElem whole] at held
  simp only [copied, frameData, Vector.getElem_mapFinIdx, Vector.getElem_ofFn,
    List.getD_eq_getElem?_getD]
  by_cases loaded : index < data.length
  · rw [if_pos (by omega), Nat.sub_zero] at held
    rw [dif_pos ⟨loaded, whole⟩, ← held]
    rfl
  · rw [dif_neg (by omega), List.getElem?_eq_none (Nat.not_lt.mp loaded)]
    exact Vector.getElem_replicate inside

/-- What is sent of a frame. -/
def MCPFrame.outgoing (frame : MCPFrame) : CanFrame where
  can_id := (mcp2515BufToId frame.id).1
  can_dlc := frame.length
  data := copied frame.payload frame.length.toNat (Vector.replicate CAN_MAX_DLEN 0)

/-- The controller after a frame has been sent. -/
def CAN.sent (can : CAN) : CAN :=
  { can with
    registers := can.registers.set MCP_TXB0CTRL 0 (by decide)
    state := .readRegister }

theorem takes_send_eq {no : Fin 3} {frame : MCPFrame} (state : can.state = sendState no)
    (held : can.txBuf[no] = frame) (fits : frame.length.toNat ≤ CAN_MAX_DLEN) :
    takes can (.byte byte) = some (can.sent, [.sent frame.outgoing] ++ [.replied 0]) := by
  have register : MCP_TXB0CTRL < MCP_RXB1SIDH + 1 := by decide
  have run : (write byte).run can = (sendTxBuf no byte).run can := by
    obtain ⟨buffer, sending, -⟩ := sendState_spec no
    rw [write, bind_run, get_run, Outcome.andThen_ok, ← buffer, ← state]
    rw [← state] at sending
    cases now : can.state with
    | sendTX0 | sendTX1 | sendTX2 => rfl
    | _ =>
        rw [now] at sending
        cases sending
  rw [Fin.getElem_fin] at held
  refine takes_byte (run.trans ?_)
  unfold sendTxBuf
  rw [if_neg (by omega)]
  dsimp only
  rw [bind_run, get_run, Outcome.andThen_ok, bind_run, element_of_lt no.isLt, pure_run,
    Outcome.andThen_ok, held, bind_run, copy_of_le (fits.trans (by decide)) fits, pure_run,
    Outcome.andThen_ok, bind_run, emit_run, Outcome.andThen_ok, bind_run, replace_of_lt register]
  rfl

/-! ## The network -/

/-- The bytes that load a buffer and have it sent. -/
def sendBytes (no : Fin 3) (identifier : Identifier) (data : List Byte) (last : Byte) : List Byte :=
  loadBytes no identifier.buffer (BitVec.ofNat 8 data.length) data ++
    [BitVec.ofNat 8 (MCP_RTS_TX no), last]

/-- The frame with an identifier and data. -/
def frameOf (identifier : Identifier) (data : List Byte) : CanFrame where
  can_id := identifier.value.1
  can_dlc := BitVec.ofNat 8 data.length
  data := frameData data

section Network

variable {no : Fin 3} {data : List Byte}

theorem toNat_length (short : data.length ≤ CAN_MAX_DLEN) :
    (BitVec.ofNat 8 data.length).toNat = data.length := by
  unfold CAN_MAX_DLEN at short
  rw [BitVec.toNat_ofNat]
  omega

theorem outgoing_loaded (frame : MCPFrame) (identifier : Identifier)
    (short : data.length ≤ CAN_MAX_DLEN) :
    (frame.loaded identifier.buffer (BitVec.ofNat 8 data.length) data).outgoing =
      frameOf identifier data := by
  unfold MCPFrame.outgoing MCPFrame.loaded frameOf
  dsimp only
  rw [Identifier.bufToId_buffer.1, toNat_length short, copied_filled _ _ short]

theorem perform_sendBytes (tidy : Tidy can) (ready : Ready can) (identifier : Identifier)
    (nonempty : data ≠ []) (short : data.length ≤ CAN_MAX_DLEN) (last : Byte) :
    ∃ after, perform takes can ((sendBytes no identifier data last).map .byte) =
        some (after, List.replicate (7 + data.length) (.replied 0) ++
          [.sent (frameOf identifier data), .replied 0]) ∧
      Meets takes Heeds can ((sendBytes no identifier data last).map .byte) := by
  have length := toNat_length short
  have fits : (BitVec.ofNat 8 data.length).toNat ≤ CAN_MAX_DLEN := by rwa [length]
  obtain ⟨loaded, heeds⟩ := @perform_loadBytes can no tidy ready identifier.buffer _ data nonempty
    length.symm (fits.trans (by decide))
  let frame := can.txBuf[no].loaded identifier.buffer (BitVec.ofNat 8 data.length) data
  have begun : takes (can.loaded no frame) (.byte (BitVec.ofNat 8 (MCP_RTS_TX no))) =
      some ({ can.loaded no frame with state := sendState no }, [.replied 0]) := by
    rw [takes_init rfl, commanded_rts]
    rfl
  obtain ⟨buffer, sending, idle, asking⟩ := sendState_spec no
  have held : { can.loaded no frame with state := sendState no }.txBuf[no] = frame :=
    Vector.getElem_set_self no.isLt
  have sent := @takes_send_eq { can.loaded no frame with state := sendState no } last no frame rfl
    held fits
  have followed : perform takes (can.loaded no frame)
      [.byte (BitVec.ofNat 8 (MCP_RTS_TX no)), .byte last] = _ :=
    perform_of_step begun (perform_of_step sent rfl)
  rw [sendBytes, List.map_append]
  refine ⟨CAN.sent { can.loaded no frame with state := sendState no },
    (perform_append loaded followed).trans ?_, Meets.append loaded heeds ?_⟩
  · have replies : List.replicate (6 + data.length) (Event.replied 0) ++
        ([.replied 0] ++ [.sent (frameOf identifier data), .replied 0]) =
        List.replicate (7 + data.length) (.replied 0) ++
          [.sent (frameOf identifier data), .replied 0] := by
      rw [show 7 + data.length = 6 + data.length + 1 by omega, List.replicate_succ',
        List.append_assoc]
    rw [outgoing_loaded _ identifier short, ← replies]
    rfl
  · refine (meets_cons begun).mpr ⟨?_, (meets_cons sent).mpr ⟨?_, trivial⟩⟩
    · exact ⟨nofun, nofun⟩
    · refine ⟨asking, fun receiving => ?_⟩
      rw [idle] at receiving
      cases receiving

theorem take_copied (data : List Byte) (short : data.length ≤ CAN_MAX_DLEN) :
    (copied (frameData data) data.length (Vector.replicate CANFD_MAX_DLEN 0)).toList.take
      data.length = data := by
  have whole : CAN_MAX_DLEN ≤ CANFD_MAX_DLEN := by decide
  refine List.ext_getElem ?_ fun index inside inside' => ?_
  · rw [List.length_take, Vector.length_toList, Nat.min_eq_left (short.trans whole)]
  · rw [List.getElem_take, Vector.getElem_toList]
    simp only [copied, frameData, Vector.getElem_mapFinIdx, Vector.getElem_ofFn]
    rw [dif_pos ⟨inside', inside'.trans_le short⟩]
    rw [List.getD_eq_getElem?_getD, List.getElem?_eq_getElem inside']
    rfl

/-- A frame as it is read: the identifier, the length and the data. -/
theorem shown_received (identifier : Identifier) (short : data.length ≤ CAN_MAX_DLEN) :
    (received (frameOf identifier data)).shown =
      (received (frameOf identifier data)).id.toList ++ BitVec.ofNat 8 data.length :: data := by
  have length := toNat_length short
  have payload := take_copied data short
  unfold MCPFrame.shown MCPFrame.raw received frameOf
  dsimp only
  have cut : ∀ front rest : List Byte, front.length = 5 →
      (front ++ rest).take (5 + data.length) = front ++ rest.take data.length := by
    intro front rest five
    rw [← five, List.take_length_add_append]
  rw [length, Vector.toList_append, Vector.toList_append, cut _ _ (by simp), payload,
    List.append_assoc]
  rfl

/-- A standard identifier has eleven bits. -/
theorem idToBuf_low (id : BitVec 64) :
    mcp2515IdToBuf id false = mcp2515IdToBuf ((id.setWidth 11).setWidth 64) false := by
  have high : ((id.setWidth 16 >>> 3).setWidth 8 : Byte) =
      ((((id.setWidth 11).setWidth 64).setWidth 16 : BitVec 16) >>> 3).setWidth 8 := by
    apply BitVec.eq_of_getLsbD_eq
    intro index inside
    interval_cases index <;> simp
  have low : (((id.setWidth 16 : BitVec 16) &&& 0x07) <<< 5).setWidth 8 =
      (((((id.setWidth 11).setWidth 64).setWidth 16 : BitVec 16) &&& 0x07) <<< 5).setWidth 8 := by
    apply BitVec.eq_of_getLsbD_eq
    intro index inside
    interval_cases index <;> simp
  unfold mcp2515IdToBuf
  simp only [Bool.false_eq_true, if_false]
  rw [high, low]

/-- A receive buffer keeps the lower eleven bits of an identifier. -/
theorem bufToId_received (identifier : Identifier) :
    mcp2515BufToId (received (frameOf identifier data)).id =
      ((identifier.value.1.setWidth 11).setWidth 32, false) := by
  have narrow : (identifier.value.1.setWidth 64).setWidth 11 = identifier.value.1.setWidth 11 :=
    BitVec.setWidth_setWidth_of_le _ (by decide)
  unfold received frameOf
  dsimp only
  rw [idToBuf_low, narrow]
  exact bufToId_standard _

end Network

/-- A frame that one controller has been given to send is what the guest of another one reads, once
it has been received: the data and the lower eleven bits of the identifier, which are all of a
standard one. Frames from elsewhere may arrive at both at any time. -/
theorem frame_crosses (sender receiver : CAN) (tidySender : Tidy sender) (readySender : Ready sender)
    (tidyReceiver : Tidy receiver) (readyReceiver : Ready receiver) (no : Fin 3) (slot : Fin 2)
    (free : freeBuffer receiver = some slot.val) (identifier : Identifier) (data : List Byte)
    (nonempty : data ≠ []) (short : data.length ≤ CAN_MAX_DLEN) (last : Byte)
    (sending receiving : List Input)
    (asked : sending.filter Input.isByte = (sendBytes no identifier data last).map .byte)
    (bytes : List Byte) (all : bytes.length = 5 + data.length)
    (fetched : receiving.filter Input.isByte = (fetchBytes slot bytes).map .byte) :
    ∃ (frame : ReceivedFrame) (id : Vector Byte 4) (sender' receiver' : CAN),
      perform takes sender sending = some (sender', List.replicate (7 + data.length) (.replied 0) ++
        [.sent frame.toCanFrame, .replied 0]) ∧
      perform takes receiver (.frame frame :: receiving) =
        some (receiver', (0 :: (id.toList ++ BitVec.ofNat 8 data.length :: data)).map .replied) ∧
      mcp2515BufToId id = ((identifier.value.1.setWidth 11).setWidth 32, false) := by
  have length := toNat_length short
  let frame : ReceivedFrame := ⟨frameOf identifier data, length.le.trans short⟩
  obtain ⟨after, sent, heeds⟩ := @perform_sendBytes sender no data tidySender readySender
    identifier nonempty short last
  rw [← asked] at sent heeds
  obtain ⟨sender', performed, -⟩ := undisturbed.perform (Aside.refl sender) heeds sent
  have stored := takes_frame_of_some free slot.isLt frame
  have tidy := tidy_takes tidyReceiver stored
  have counted : (received frame.toCanFrame).length.toNat = data.length := length
  have inUse : (receiver.status ||| (1 : Byte) <<< slot.val).getLsbD slot = true := by
    rw [BitVec.getLsbD_or, getLsbD_shiftOne _ _ (slot.isLt.trans (by decide)),
      decide_eq_true rfl, Bool.or_true]
  obtain ⟨read, heedsRead⟩ := perform_fetchBytes tidy
    ⟨readyReceiver.waits, readyReceiver.writeSelected, readyReceiver.modReg⟩
    (Vector.getElem?_set_self slot.isLt) inUse (by rw [counted]; exact short.trans (by decide))
    (all.trans (congrArg (5 + ·) counted.symm))
  rw [← fetched] at read heedsRead
  obtain ⟨receiver', read, -⟩ := undisturbed.perform (Aside.refl _) heedsRead read
  refine ⟨frame, (received frame.toCanFrame).id, sender', receiver', performed, ?_,
    bufToId_received identifier⟩
  rw [← shown_received identifier short]
  exact perform_of_step stored read

/-- Two bytes go from one controller to another, and frames arrive at both in the meantime. -/
theorem frame_crosses_session :
    ∃ (frame : ReceivedFrame) (id : Vector Byte 4) (sender' receiver' : CAN),
      perform takes blank
          (bytes [MCP_LOAD_TX1, 0x24, 0x60] ++ .frame strayFrame ::
            bytes [0, 0, 2, 0xAB, 0xCD, MCP_RTS_TX1, 0]) =
        some (sender', List.replicate 9 (.replied 0) ++ [.sent frame.toCanFrame, .replied 0]) ∧
      perform takes blank
          (.frame frame :: (bytes [MCP_READ_RX0, 0, 0] ++ .frame strayFrame ::
            bytes [0, 0, 0, 0, 0])) =
        some (receiver', (0 :: (id.toList ++ 2 :: [0xAB, 0xCD])).map .replied) ∧
      mcp2515BufToId id = (0x123, false) :=
  frame_crosses blank blank powerOn_blank.reset.tidy idle_blank.ready powerOn_blank.reset.tidy
    idle_blank.ready 1 0 rfl (.standard 0x123) [0xAB, 0xCD] (by decide) (by decide) 0 _ _
    rfl (List.replicate 7 0) rfl rfl

end SymexVP.Can
