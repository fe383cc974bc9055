import Mathlib.Tactic

/-!
# Packets over a serial line

`SLIP` frames the packets of a network device for the serial line: the end of a packet
is marked by a byte of its own, and the two bytes with a meaning are escaped where they
are data. `handle_input` encodes a packet; `write_data` decodes the bytes the guest
sends, one at a time.

The decoder keeps no flag for a pending escape. It takes the last byte of its buffer for
one, and a data byte that equals the escape ends up there too. What follows such a byte
is then read as the second half of an escape sequence.
-/

namespace SymexVP.Slip

abbrev Byte := BitVec 8

/-- `SLIP_END`, `SLIP_ESC`, `SLIP_ESC_END` and `SLIP_ESC_ESC`. -/
def END : Byte := 0o300
def ESC : Byte := 0o333
def ESC_END : Byte := 0o334
def ESC_ESC : Byte := 0o335

/-- `SLIP_SNDBUF_STEP`. -/
def sndbufStep : Nat := 1500

/-! ## Encoding -/

/-- The case of `handle_input` for one byte. -/
def escape (byte : Byte) : List Byte :=
  if byte = END then [ESC, ESC_END] else if byte = ESC then [ESC, ESC_ESC] else [byte]

/-- `handle_input`: the bytes it pushes for the packet it has read. -/
def handleInput (packet : List Byte) : List Byte := packet.flatMap escape ++ [END]

/-! ## Decoding -/

/-- The decoder: the first `sndsiz` bytes of `sndbuf`, the bytes allocated for it, and the
packets handed to `send_packet`, oldest first. What is stored lies within what is allocated. -/
structure Decoder where
  sndbuf : List Byte
  capacity : Nat
  sent : List (List Byte)
  fits : sndbuf.length ≤ capacity
  whole : capacity % sndbufStep = 0
  positive : 0 < capacity

/-- The decoder after its constructor. -/
def Decoder.initial : Decoder where
  sndbuf := []
  capacity := sndbufStep
  sent := []
  fits := Nat.zero_le _
  whole := rfl
  positive := by decide

/-- The capacity after `send_packet`: a buffer that has grown is cut back. -/
def cutBack (size capacity : Nat) : Nat := if sndbufStep < size then sndbufStep else capacity

/-- `send_packet`, on a device that takes the whole packet. -/
def sendPacket (decoder : Decoder) : Decoder where
  sndbuf := []
  capacity := cutBack decoder.sndbuf.length decoder.capacity
  sent := decoder.sent ++ [decoder.sndbuf]
  fits := Nat.zero_le _
  whole := by
    unfold cutBack
    split
    · rfl
    · exact decoder.whole
  positive := by
    unfold cutBack
    split
    · decide
    · exact decoder.positive

/-- What an escape sequence stands for, by its second byte. -/
def unescaped (data : Byte) : Option Byte :=
  if data = ESC_END then some END else if data = ESC_ESC then some ESC else none

/-- The last byte of the buffer is replaced. -/
def replaceLast (decoder : Decoder) (byte : Byte) : Decoder :=
  { decoder with
    sndbuf := decoder.sndbuf.dropLast ++ [byte]
    fits := by
      have fits := decoder.fits
      have positive := decoder.positive
      simp only [List.length_append, List.length_dropLast, List.length_singleton]
      omega }

/-- The capacity before a byte is appended: a buffer that is full grows. -/
def grow (size capacity : Nat) : Nat :=
  if size ≠ 0 ∧ size % sndbufStep = 0 then size + sndbufStep else capacity

/-- The end of `write_data`: a byte is appended to the buffer. -/
def append (decoder : Decoder) (data : Byte) : Decoder :=
  { decoder with
    sndbuf := decoder.sndbuf ++ [data]
    capacity := grow decoder.sndbuf.length decoder.capacity
    fits := by
      have fits := decoder.fits
      have whole := decoder.whole
      have positive := decoder.positive
      rw [List.length_append, List.length_singleton, grow]
      split <;> simp only [sndbufStep] at * <;> omega
    whole := by
      have whole := decoder.whole
      unfold grow
      split <;> simp only [sndbufStep] at * <;> omega
    positive := by
      have positive := decoder.positive
      unfold grow
      split <;> simp only [sndbufStep] at * <;> omega }

/-- `write_data`. -/
def writeData (decoder : Decoder) (data : Byte) : Decoder :=
  if data = END then
    if decoder.sndbuf ≠ [] then sendPacket decoder else decoder
  else if decoder.sndbuf.getLast? = some ESC then
    match unescaped data with
    | some byte => replaceLast decoder byte
    | none => append decoder data
  else append decoder data

/-- The bytes of a stream, one by one. -/
def receive (decoder : Decoder) (stream : List Byte) : Decoder := stream.foldl writeData decoder

theorem receive_append (decoder : Decoder) (first second : List Byte) :
    receive decoder (first ++ second) = receive (receive decoder first) second :=
  List.foldl_append

/-! ## What the decoder makes of one packet -/

/-- What a data byte does to the buffer, once its escape sequence is complete. -/
def absorb (buffer : List Byte) (byte : Byte) : List Byte :=
  if buffer.getLast? = some ESC then
    match unescaped byte with
    | some other => buffer.dropLast ++ [other]
    | none => buffer ++ [byte]
  else buffer ++ [byte]

theorem unescaped_END : unescaped END = none := by decide

theorem unescaped_ESC : unescaped ESC = none := by decide

theorem sndbuf_writeData (decoder : Decoder) {data : Byte} (other : data ≠ END) :
    (writeData decoder data).sndbuf = absorb decoder.sndbuf data ∧
      (writeData decoder data).sent = decoder.sent := by
  simp only [writeData, if_neg other, absorb]
  split
  · cases unescaped data <;> exact ⟨rfl, rfl⟩
  · exact ⟨rfl, rfl⟩

/-- The two bytes with a meaning are appended, whatever is in the buffer. -/
theorem absorb_of_unescaped {byte : Byte} (plain : unescaped byte = none) (buffer : List Byte) :
    absorb buffer byte = buffer ++ [byte] := by
  unfold absorb
  rw [plain]
  exact ite_self _

/-- An escape sequence adds the byte it stands for. -/
theorem absorb_escaped (buffer : List Byte) {second byte : Byte}
    (stands : unescaped second = some byte) :
    absorb (absorb buffer ESC) second = buffer ++ [byte] := by
  rw [absorb_of_unescaped unescaped_ESC]
  simp [absorb, stands]

theorem receive_pair (decoder : Decoder) {second byte : Byte}
    (stands : unescaped second = some byte) (other : second ≠ END) :
    (receive decoder [ESC, second]).sndbuf = decoder.sndbuf ++ [byte] ∧
      (receive decoder [ESC, second]).sent = decoder.sent := by
  obtain ⟨buffer, sent⟩ := sndbuf_writeData decoder (show ESC ≠ END by decide)
  obtain ⟨buffer', sent'⟩ := sndbuf_writeData (writeData decoder ESC) other
  refine ⟨?_, sent'.trans sent⟩
  rw [← absorb_escaped decoder.sndbuf stands, ← buffer, ← buffer']
  rfl

/-- An encoded byte does to the buffer what the byte itself would do if it were not special. -/
theorem receive_escape (decoder : Decoder) (byte : Byte) :
    (receive decoder (escape byte)).sndbuf = absorb decoder.sndbuf byte ∧
      (receive decoder (escape byte)).sent = decoder.sent := by
  unfold escape
  split
  · next isEnd =>
      rw [isEnd, absorb_of_unescaped unescaped_END]
      exact receive_pair decoder rfl (by decide)
  · next other =>
      split
      · next isEsc =>
          rw [isEsc, absorb_of_unescaped unescaped_ESC]
          exact receive_pair decoder rfl (by decide)
      · exact sndbuf_writeData decoder other

theorem receive_escapes (decoder : Decoder) (packet : List Byte) :
    (receive decoder (packet.flatMap escape)).sndbuf = packet.foldl absorb decoder.sndbuf ∧
      (receive decoder (packet.flatMap escape)).sent = decoder.sent := by
  induction packet generalizing decoder with
  | nil => exact ⟨rfl, rfl⟩
  | cons byte rest inductionHypothesis =>
      obtain ⟨buffer, sent⟩ := receive_escape decoder byte
      obtain ⟨buffer', sent'⟩ := inductionHypothesis (receive decoder (escape byte))
      rw [List.flatMap_cons, receive_append, List.foldl_cons, ← buffer]
      exact ⟨buffer', sent'.trans sent⟩

/-- What the decoder takes an encoded packet for. -/
def decoded (packet : List Byte) : List Byte := packet.foldl absorb []

theorem absorb_ne_nil (buffer : List Byte) (byte : Byte) : absorb buffer byte ≠ [] := by
  unfold absorb
  split
  · split <;> simp
  · simp

theorem foldl_absorb_ne_nil {buffer : List Byte} (filled : buffer ≠ []) (packet : List Byte) :
    packet.foldl absorb buffer ≠ [] := by
  induction packet generalizing buffer with
  | nil => exact filled
  | cons byte rest inductionHypothesis => exact inductionHypothesis (absorb_ne_nil buffer byte)

theorem decoded_ne_nil {packet : List Byte} (filled : packet ≠ []) : decoded packet ≠ [] := by
  obtain ⟨byte, rest, rfl⟩ := List.exists_cons_of_ne_nil filled
  exact foldl_absorb_ne_nil (absorb_ne_nil [] byte) rest

/-- Between two packets the buffer is empty, and each packet is sent once. -/
theorem receive_handleInput {decoder : Decoder} (empty : decoder.sndbuf = []) {packet : List Byte}
    (filled : packet ≠ []) :
    (receive decoder (handleInput packet)).sndbuf = [] ∧
      (receive decoder (handleInput packet)).sent = decoder.sent ++ [decoded packet] := by
  obtain ⟨buffer, sent⟩ := receive_escapes decoder packet
  rw [empty] at buffer
  have nonempty : (receive decoder (packet.flatMap escape)).sndbuf ≠ [] := by
    rw [buffer]
    exact decoded_ne_nil filled
  have ended : receive decoder (handleInput packet) =
      sendPacket (receive decoder (packet.flatMap escape)) := by
    rw [handleInput, receive_append]
    show writeData _ END = _
    rw [writeData, if_pos rfl, if_pos nonempty]
  rw [ended]
  refine ⟨rfl, ?_⟩
  show _ ++ [_] = _
  rw [sent, buffer]
  rfl

theorem receive_packets {decoder : Decoder} (empty : decoder.sndbuf = [])
    {packets : List (List Byte)} (filled : ∀ packet ∈ packets, packet ≠ []) :
    (receive decoder (packets.flatMap handleInput)).sent =
      decoder.sent ++ packets.map decoded := by
  induction packets generalizing decoder with
  | nil => simp [receive]
  | cons packet rest inductionHypothesis =>
      rw [List.forall_mem_cons] at filled
      obtain ⟨empty', sent⟩ := receive_handleInput empty filled.1
      rw [List.flatMap_cons, receive_append, inductionHypothesis empty' filled.2, sent]
      simp

/-! ## Which packets survive -/

/-- Somewhere in the packet the escape byte is followed by the second half of an escape
sequence. -/
def Misread (packet : List Byte) : Prop :=
  ∃ before byte after, packet = before ++ ESC :: byte :: after ∧ (byte = ESC_END ∨ byte = ESC_ESC)

theorem unescaped_isSome_iff (byte : Byte) :
    (unescaped byte).isSome ↔ byte = ESC_END ∨ byte = ESC_ESC := by
  unfold unescaped
  split
  · simp_all
  · split <;> simp_all

theorem foldl_absorb_of_not_misread (buffer packet : List Byte) (fine : ¬Misread (buffer ++ packet)) :
    packet.foldl absorb buffer = buffer ++ packet := by
  induction packet generalizing buffer with
  | nil => simp
  | cons byte rest inductionHypothesis =>
      have appended : absorb buffer byte = buffer ++ [byte] := by
        unfold absorb
        split
        · next escaping =>
            cases stands : unescaped byte with
            | none => rfl
            | some other =>
                -- the buffer ends in an escape, so the pair is in the packet
                obtain ⟨before, rfl⟩ := List.getLast?_eq_some_iff.mp escaping
                refine absurd ⟨before, byte, rest, by simp, ?_⟩ fine
                rw [← unescaped_isSome_iff, stands]
                rfl
        · rfl
      rw [List.foldl_cons, appended, inductionHypothesis]
      · simp
      · simpa using fine

theorem length_absorb_le (buffer : List Byte) (byte : Byte) :
    (absorb buffer byte).length ≤ buffer.length + 1 := by
  unfold absorb
  split
  · split <;> simp
  · simp

theorem length_foldl_absorb_le (buffer packet : List Byte) :
    (packet.foldl absorb buffer).length ≤ buffer.length + packet.length := by
  induction packet generalizing buffer with
  | nil => simp
  | cons byte rest inductionHypothesis =>
      have shorter := inductionHypothesis (absorb buffer byte)
      have step := length_absorb_le buffer byte
      rw [List.foldl_cons, List.length_cons]
      omega

/-- A misread pair leaves one byte in the buffer. -/
theorem length_decoded_lt_of_misread {packet : List Byte} (misread : Misread packet) :
    (decoded packet).length < packet.length := by
  obtain ⟨before, byte, after, rfl, half⟩ := misread
  obtain ⟨other, stands⟩ := Option.isSome_iff_exists.mp ((unescaped_isSome_iff byte).mpr half)
  have merged : absorb (absorb (decoded before) ESC) byte = decoded before ++ [other] :=
    absorb_escaped _ stands
  have early := length_foldl_absorb_le [] before
  have late := length_foldl_absorb_le (decoded before ++ [other]) after
  simp only [decoded, List.foldl_append, List.foldl_cons, List.length_append, List.length_cons,
    List.length_nil] at merged early late ⊢
  rw [merged]
  omega

theorem decoded_eq_self_iff (packet : List Byte) : decoded packet = packet ↔ ¬Misread packet := by
  constructor
  · intro same misread
    exact absurd (congrArg List.length same) (length_decoded_lt_of_misread misread).ne
  · exact foldl_absorb_of_not_misread [] packet

/-- Decoding inverts encoding exactly if no packet has an escape byte followed by the second
half of an escape sequence. -/
theorem sent_eq_iff_not_misread {decoder : Decoder} (empty : decoder.sndbuf = [])
    {packets : List (List Byte)} (filled : ∀ packet ∈ packets, packet ≠ []) :
    (receive decoder (packets.flatMap handleInput)).sent = decoder.sent ++ packets ↔
      ∀ packet ∈ packets, ¬Misread packet := by
  have same : packets.map decoded = packets ↔ ∀ packet ∈ packets, decoded packet = packet := by
    conv_lhs => rhs; rw [← List.map_id packets]
    exact List.map_inj_left
  rw [receive_packets empty filled, List.append_cancel_left_eq, same]
  exact forall₂_congr fun packet _ => decoded_eq_self_iff packet

/-- A packet with both special bytes next to each other. -/
theorem sent_special_bytes :
    (receive .initial ([[END, ESC, END]].flatMap handleInput)).sent = [[END, ESC, END]] := by
  refine (sent_eq_iff_not_misread (show Decoder.initial.sndbuf = [] from rfl) (by simp)).mpr ?_
  rintro packet listed ⟨before, byte, after, split, half⟩
  rw [List.mem_singleton.mp listed] at split
  rcases before with _ | ⟨_, _ | ⟨_, _ | ⟨_, _⟩⟩⟩ <;> simp at split
  · exact absurd split.1 (by decide)
  · obtain ⟨-, rfl, -⟩ := split
    exact absurd half (by decide)

/-- The two data bytes 0xDB and 0xDC arrive as the single byte 0xC0. -/
theorem sent_escape_pair :
    (receive .initial ([[ESC, ESC_END]].flatMap handleInput)).sent = [[END]] ∧
      (receive .initial ([[ESC, ESC_END]].flatMap handleInput)).sent ≠ [[ESC, ESC_END]] := by
  decide

end SymexVP.Slip
