import SymexVP.SerialLines
import SymexVP.Slip

/-!
# Packets from end to end

A packet of the network device crosses three threads, two queues and an encoding before the guest
has it. The guest is taken to read its bytes as RFC 1055 describes it; then it finds the packets of
the device, and nothing else, at any speed and in any interleaving. The packets of the guest take
the same way back, through the decoder, which leaves alone those that it does not misread.
-/

namespace SymexVP.Slip

open ActionRun SerialLine

/-- `SLIP` on the serial port. A read of the device gives a packet. -/
def port : Subclass (List Byte) where
  Input := Unit
  Output := Decoder
  opened := ()
  created := .initial
  handleInput _ packet := some ((), handleInput packet)
  writeData := writeData

theorem feed_port (packets : List (List Byte)) :
    port.feed () packets = some ((), packets.flatMap handleInput) := by
  induction packets with
  | nil => rfl
  | cons packet rest inductionHypothesis =>
      change (port.feed () rest).bind _ = _
      rw [inductionHypothesis]
      rfl

/-! ## The receiver of the guest -/

/-- A receiver that remembers whether the last byte began an escape sequence. -/
structure Reader where
  packet : List Byte
  escaped : Bool
  packets : List (List Byte)

def Reader.initial : Reader := ⟨[], false, []⟩

/-- A second half that is none is taken for data, and an empty packet is ignored. -/
def Reader.next (reader : Reader) (data : Byte) : Reader :=
  if reader.escaped then
    { reader with packet := reader.packet ++ [(unescaped data).getD data], escaped := false }
  else if data = END then
    if reader.packet = [] then reader else ⟨[], false, reader.packets ++ [reader.packet]⟩
  else if data = ESC then { reader with escaped := true }
  else { reader with packet := reader.packet ++ [data] }

def Reader.read (reader : Reader) (stream : List Byte) : Reader := stream.foldl next reader

theorem Reader.read_append (reader : Reader) (first second : List Byte) :
    reader.read (first ++ second) = (reader.read first).read second := List.foldl_append

/-- A packet that has been read is not taken back. -/
theorem Reader.packets_read (reader : Reader) (stream : List Byte) :
    reader.packets <+: (reader.read stream).packets := by
  induction stream generalizing reader with
  | nil => exact List.prefix_refl _
  | cons data rest inductionHypothesis =>
      refine .trans ?_ (inductionHypothesis (reader.next data))
      unfold Reader.next
      split_ifs
      · exact List.prefix_refl _
      · exact List.prefix_refl _
      · exact List.prefix_append _ _
      · exact List.prefix_refl _
      · exact List.prefix_refl _

theorem Reader.read_escape (packet : List Byte) (packets : List (List Byte)) (byte : Byte) :
    Reader.read ⟨packet, false, packets⟩ (escape byte) = ⟨packet ++ [byte], false, packets⟩ := by
  unfold escape
  split
  · next isEnd =>
      rw [isEnd]
      rfl
  · next other =>
      split
      · next isEsc =>
          rw [isEsc]
          rfl
      · next plain => simp [Reader.read, Reader.next, other, plain]

theorem Reader.read_escapes (packet : List Byte) (packets : List (List Byte)) (data : List Byte) :
    Reader.read ⟨packet, false, packets⟩ (data.flatMap escape) =
      ⟨packet ++ data, false, packets⟩ := by
  induction data generalizing packet with
  | nil => rw [List.append_nil]; rfl
  | cons byte rest inductionHypothesis =>
      rw [List.flatMap_cons, read_append, read_escape, inductionHypothesis, List.append_assoc]
      rfl

theorem Reader.read_handleInput (packets : List (List Byte)) {packet : List Byte}
    (filled : packet ≠ []) :
    Reader.read ⟨[], false, packets⟩ (handleInput packet) = ⟨[], false, packets ++ [packet]⟩ := by
  rw [handleInput, read_append, read_escapes]
  simp [Reader.read, Reader.next, filled]

/-- The receiver finds the packets in what `handle_input` makes of them. -/
theorem Reader.read_packets (earlier : List (List Byte)) {packets : List (List Byte)}
    (filled : ∀ packet ∈ packets, packet ≠ []) :
    Reader.read ⟨[], false, earlier⟩ (packets.flatMap handleInput) =
      ⟨[], false, earlier ++ packets⟩ := by
  induction packets generalizing earlier with
  | nil => rw [List.append_nil]; rfl
  | cons packet rest inductionHypothesis =>
      rw [List.forall_mem_cons] at filled
      rw [List.flatMap_cons, read_append, read_handleInput earlier filled.1,
        inductionHypothesis _ filled.2, List.append_assoc]
      rfl

/-! ## Both ways -/

variable {actions : List (SerialLine.Action (List Byte))} {line : Line port} {log : List (SerialLine.Event (List Byte))}

/-- A packet that has been sent is not taken back. -/
theorem sent_receive (decoder : Decoder) (stream : List Byte) :
    decoder.sent <+: (receive decoder stream).sent := by
  induction stream generalizing decoder with
  | nil => exact List.prefix_refl _
  | cons data rest inductionHypothesis =>
      refine .trans ?_ (inductionHypothesis (writeData decoder data))
      by_cases isEnd : data = END
      · unfold writeData
        rw [if_pos isEnd]
        split
        · exact List.prefix_append _ _
        · exact List.prefix_refl _
      · rw [(sndbuf_writeData decoder isEnd).2]

/-- The packets sent to the device are the first ones of the guest, if the port has accepted
nothing but encoded packets of which none is misread, and all of them once they have been written
and nothing is on its way any more. -/
theorem packets_reach_network
    (ran : perform step (Line.initial port) actions = some (line, log))
    {packets : List (List Byte)} (filled : ∀ packet ∈ packets, packet ≠ [])
    (plain : ∀ packet ∈ packets, ¬Misread packet)
    (encoded : accepted log <+: packets.flatMap handleInput) :
    line.output.sent <+: packets ∧
      (accepted log = packets.flatMap handleInput → line.outgoing = [] →
        line.output.sent = packets) := by
  obtain ⟨written, order, output⟩ := (sound_of_perform ran).leaves
  have decodes : packets.map decoded = packets := by
    conv_rhs => rw [← List.map_id packets]
    exact List.map_congr_left fun packet member =>
      (decoded_eq_self_iff packet).mpr (plain packet member)
  have whole := receive_packets (show Decoder.initial.sndbuf = [] from rfl) filled
  rw [decodes] at whole
  have sent : line.output = receive .initial written := output
  obtain ⟨rest, same⟩ := encoded
  constructor
  · rw [← same, order, List.append_assoc, receive_append, ← sent] at whole
    have grown := sent_receive line.output (line.outgoing ++ rest)
    rwa [whole] at grown
  · intro all none
    rw [← all, order, none, List.append_nil, ← sent] at whole
    exact whole

/-- A packet in each direction, both with a byte that is escaped. -/
def pingPong : List (SerialLine.Action (List Byte)) :=
  [.input [END], .push, .uart .pushRx, .uart (.write 0 [ESC, 0, 0, 0]), .uart .resume,
    .uart .notifyRx, .uart (.read 4 4), .push, .uart .resume, .uart .pushRx, .uart .swaitTxfull,
    .uart .notifyRx, .uart .popTx, .push, .uart (.write 0 [ESC_ESC]), .uart .resume, .uart .notifyTx,
    .uart .pushRx, .uart .writeData, .uart .notifyRx, .uart (.read 4 1), .uart .resume,
    .uart .swaitTxfull, .uart .popTx, .uart (.read 4 1), .uart .resume, .uart .notifyTx,
    .uart .writeData, .uart (.write 0 [END]), .uart .resume, .uart .swaitTxfull, .uart .popTx,
    .uart .notifyTx, .uart .writeData]

theorem perform_pingPong : ∃ line log, perform step (Line.initial port) pingPong = some (line, log) ∧
    entered log = [[END]] ∧ accepted log = [ESC, ESC_ESC, END] ∧ line.incoming = [] ∧
    line.outgoing = [] := by
  have shown : (perform step (Line.initial port) pingPong).map
      (fun (line, log) => (entered log, accepted log, line.incoming, line.outgoing)) =
      some ([[END]], [ESC, ESC_ESC, END], [], []) := by decide +kernel
  obtain ⟨⟨line, log⟩, ran, same⟩ := Option.map_eq_some_iff.mp shown
  simp only [Prod.mk.injEq] at same
  exact ⟨line, log, ran, same⟩

theorem packets_reach_network_pingPong : ∃ line log,
    perform step (Line.initial port) pingPong = some (line, log) ∧ line.output.sent = [[ESC]] := by
  obtain ⟨line, log, ran, -, written, -, left⟩ := perform_pingPong
  have encoded : [[ESC]].flatMap handleInput = [ESC, ESC_ESC, END] := by decide
  have plain : ∀ packet ∈ [[ESC]], ¬Misread packet := by
    rintro packet member ⟨before, byte, after, split, -⟩
    rw [List.mem_singleton.mp member] at split
    have short := congrArg List.length split
    simp only [List.length_append, List.length_cons, List.length_nil] at short
    omega
  have reached := packets_reach_network ran (by simp) plain (by rw [written, encoded])
  exact ⟨line, log, ran, reached.2 (written.trans encoded.symm) left⟩

end SymexVP.Slip
