import Mathlib.Data.Int.Basic
import Mathlib.Tactic
import SymexVP.ParserCombinators

/-!
# Framing of the debugger's remote protocol

The debug server answers with packets written by `gdb_serialize` and reads packets
with the stage-one grammar of `gdb_parse_pkt`. The two sides keep their own tables of
start characters and compute the checksum from the same `calc_csum`, on plain `char`,
whose signedness is the compiler's choice.
-/

namespace SymexVP.Gdb

abbrev Byte := BitVec 8

/-- The byte of an ASCII character. -/
def byte (character : Char) : Byte := BitVec.ofNat 8 character.toNat

/-- A string as C passes it: the bytes in front of the terminator, none of them NUL. -/
structure CString where
  bytes : List Byte
  noTerminator : ∀ byte ∈ bytes, byte ≠ 0
deriving DecidableEq

namespace CString

theorem ext_bytes {left right : CString} (same : left.bytes = right.bytes) : left = right := by
  cases left
  cases right
  simp_all

/-- What C sees of the single character a parser returns. -/
def ofByte (character : Byte) : CString :=
  ⟨[character].filter (· ≠ 0), by simp⟩

def concat (strings : List CString) : CString :=
  ⟨strings.flatMap bytes, by
    intro character member
    obtain ⟨string, -, inside⟩ := List.mem_flatMap.mp member
    exact string.noTerminator character inside⟩

theorem bytes_ofByte {character : Byte} (nonzero : character ≠ 0) :
    (ofByte character).bytes = [character] := by
  have kept : ¬character = 0#8 := nonzero
  simp [ofByte, kept]

/-- Folding the single characters of a string gives the string back. -/
theorem concat_ofByte (string : CString) : concat (string.bytes.map ofByte) = string := by
  apply ext_bytes
  obtain ⟨bytes, noTerminator⟩ := string
  simp only [concat]
  induction bytes with
  | nil => rfl
  | cons character bytes step =>
      have nonzero : character ≠ 0 := noTerminator character List.mem_cons_self
      have others : ∀ other ∈ bytes, other ≠ 0 :=
        fun other member => noTerminator other (List.mem_cons_of_mem _ member)
      rw [List.map_cons, List.flatMap_cons, bytes_ofByte nonzero, step others]
      rfl

end CString

inductive GdbKind
  | notify
  | packet
  | nack
  | ack
deriving DecidableEq

/-- `gdb_packet_t`; `csum` holds the `GDB_CSUM_LEN` characters behind the `#`. -/
structure GdbPacket where
  kind : GdbKind
  data : Option CString
  csum : List Byte
deriving DecidableEq

def gdbCsumLen : Nat := 2

/-- How the debug server dies: a failed `xassert`, the `errx` of a packet that does not
fit its buffer, or a null string handed to `strlen`. -/
inductive Abort
  | assertion
  | insufficientBuffer
  | nullString
deriving DecidableEq

/-- Whether the compiler reads a plain `char` as signed. -/
inductive PlainChar
  | signed
  | unsigned
deriving DecidableEq

/-- `(int)data[i]`. -/
def PlainChar.toInt : PlainChar → Byte → Int
  | .signed, character => character.toInt
  | .unsigned, character => character.toNat

/-- `int` arithmetic at 32 bits. -/
def wrapInt (value : Int) : Int := value.bmod (2 ^ 32)

/-- The loop of `calc_csum`, from the sum so far. -/
def addChars (plain : PlainChar) : List Byte → Int → Int
  | [], csum => csum
  | character :: rest, csum => addChars plain rest (wrapInt (csum + plain.toInt character))

def calcCsum (plain : PlainChar) (data : CString) : Int :=
  (addChars plain data.bytes 0).tmod 256

/-- `printf`'s `%.2x`: the argument as an `unsigned int`, in hexadecimal, with at least
two digits. -/
def printHex (value : Int) : List Byte :=
  ((Nat.toDigits 16 (value % 2 ^ 32).toNat).map byte).leftpad 2 (byte '0')

def kindToChar : GdbKind → Byte
  | .notify => byte '#'
  | .packet => byte '$'
  | .nack => byte '-'
  | .ack => byte '+'

/-- The characters `"%c%s#%.2x"` prints. -/
def printPacket (pktkind : Byte) (data : CString) (csum : Int) : List Byte :=
  pktkind :: data.bytes ++ byte '#' :: printHex csum

def gdbSerialize (plain : PlainChar) (kind : GdbKind) (data : Option CString) :
    Except Abort (List Byte) :=
  if kind = .nack ∨ kind = .ack then
    match data with
    | none => .ok [kindToChar kind]
    | some _ => .error .assertion
  else
    match data with
    | none => .error .nullString
    | some data =>
        -- kind, checksum delimiter and null byte beside the data and the checksum
        let pktlen := data.bytes.length + gdbCsumLen + 3
        let printed := printPacket (kindToChar kind) data (calcCsum plain data)
        if printed.length ≥ pktlen then .error .insufficientBuffer else .ok printed

/-! ## The stage-one grammar -/

def mpcChar (character : Byte) : Parser Byte CString :=
  (Parser.satisfy (· == character)).map CString.ofByte

def mpcAny : Parser Byte CString :=
  (Parser.satisfy fun _ => true).map CString.ofByte

def mpcOneof (characters : List Byte) : Parser Byte CString :=
  (Parser.satisfy (characters.contains ·)).map CString.ofByte

def mpcNoneof (characters : List Byte) : Parser Byte CString :=
  (Parser.satisfy fun character => !characters.contains character).map CString.ofByte

/-- `mpcf_strfold` on two strings. -/
def strfold (left right : CString) : CString := CString.concat [left, right]

/-- `memcpy` of `GDB_CSUM_LEN` characters; what lies behind a terminator is never
compared. -/
def copyCsum (string : List Byte) : List Byte :=
  (string ++ List.replicate gdbCsumLen 0).take gdbCsumLen

def gdbfPacket (start data csum : CString) : Except Abort GdbPacket :=
  if start.bytes.head? = some (byte '%') then
    .ok ⟨.notify, some data, copyCsum (csum.bytes.drop 1)⟩
  else if start.bytes.head? = some (byte '$') then
    .ok ⟨.packet, some data, copyCsum (csum.bytes.drop 1)⟩
  else .error .assertion

def gdbfAcknowledge (string : CString) : Except Abort GdbPacket :=
  if string.bytes.head? = some (byte '+') then
    .ok ⟨.ack, none, List.replicate gdbCsumLen 0⟩
  else if string.bytes.head? = some (byte '-') then
    .ok ⟨.nack, none, List.replicate gdbCsumLen 0⟩
  else .error .assertion

def gdbCsum : Parser Byte CString :=
  Parser.and2 strfold (mpcChar (byte '#')) (Parser.and2 strfold mpcAny mpcAny)

def gdbPacket : Parser Byte (Except Abort GdbPacket) :=
  Parser.and3 gdbfPacket (mpcChar (byte '$'))
    (Parser.many CString.concat (mpcNoneof [byte '#', byte '$'])) gdbCsum

def gdbNotification : Parser Byte (Except Abort GdbPacket) :=
  Parser.and3 gdbfPacket (mpcChar (byte '%'))
    (Parser.many CString.concat (mpcNoneof [byte '#', byte '$', byte '%'])) gdbCsum

def gdbAcknowledge : Parser Byte (Except Abort GdbPacket) :=
  (mpcOneof [byte '+', byte '-']).map gdbfAcknowledge

def gdbParseStage1 : Parser Byte (Except Abort GdbPacket) :=
  gdbAcknowledge.or (gdbPacket.or gdbNotification)

/-- The packet read from a stream, if the grammar accepts, and what is left of the stream. -/
def gdbParsePkt (stream : List Byte) : Option (Except Abort GdbPacket) × List Byte :=
  gdbParseStage1.run stream

/-- `strncmp(left, right, count) == 0`. -/
def strncmpEqual : Nat → List Byte → List Byte → Bool
  | 0, _, _ => true
  | count + 1, left, right =>
      left.headD 0 == right.headD 0 &&
        (left.headD 0 == 0 || strncmpEqual count left.tail right.tail)

def gdbIsValid (plain : PlainChar) (pkt : GdbPacket) : Except Abort Bool :=
  match pkt.data with
  | none => .ok true
  | some data =>
      let strcsum := printHex (calcCsum plain data)
      if strcsum.length = gdbCsumLen then
        .ok (strncmpEqual gdbCsumLen pkt.csum strcsum)
      else .error .assertion

/-! ## The checksum -/

/-- The bytes of a string, summed as unsigned numbers. -/
def byteSum (bytes : List Byte) : Nat := (bytes.map BitVec.toNat).sum

/-- The bytes of a string, summed as the compiler reads a plain `char`. -/
def charSum (plain : PlainChar) (bytes : List Byte) : Int := (bytes.map plain.toInt).sum

theorem addChars_eq (plain : PlainChar) (bytes : List Byte) :
    ∀ csum : Int, addChars plain bytes (wrapInt csum) =
      wrapInt (csum + charSum plain bytes) := by
  induction bytes with
  | nil => intro csum; simp [addChars, charSum]
  | cons character bytes step =>
      intro csum
      have wrapped : wrapInt (wrapInt csum + plain.toInt character) =
          wrapInt (csum + plain.toInt character) := Int.bmod_add_bmod
      rw [addChars, wrapped, step]
      simp [charSum, add_assoc]

theorem calcCsum_eq (plain : PlainChar) (data : CString) :
    calcCsum plain data = (wrapInt (charSum plain data.bytes)).tmod 256 := by
  have summed := addChars_eq plain data.bytes 0
  have zero : wrapInt 0 = 0 := by decide
  rw [zero, zero_add] at summed
  rw [calcCsum, summed]

theorem charSum_modEq (plain : PlainChar) (bytes : List Byte) :
    (256 : Int) ∣ charSum plain bytes - byteSum bytes := by
  induction bytes with
  | nil => simp [charSum, byteSum]
  | cons character bytes step =>
      have one : (256 : Int) ∣ plain.toInt character - character.toNat := by
        cases plain with
        | signed =>
            simp only [PlainChar.toInt, BitVec.toInt_eq_toNat_cond]
            split <;> omega
        | unsigned => simp [PlainChar.toInt]
      simp only [charSum, byteSum, List.map_cons, List.sum_cons] at step ⊢
      push_cast
      push_cast at step
      omega

theorem wrapInt_modEq (value : Int) : (256 : Int) ∣ wrapInt value - value := by
  have whole : (2 ^ 32 : Int) ∣ wrapInt value - value := by
    apply Int.dvd_of_emod_eq_zero
    apply Int.emod_eq_emod_iff_emod_sub_eq_zero.mp
    exact Int.bmod_emod
  exact dvd_trans (by decide) whole

/-- The characters from 0x80 on do not outweigh the others, or the sum vanishes
anyway: what the remainder of a signed sum needs to be that of the unsigned bytes. -/
def ChecksumFits (plain : PlainChar) (data : CString) : Prop :=
  0 ≤ wrapInt (charSum plain data.bytes) ∨ 256 ∣ byteSum data.bytes

instance (plain : PlainChar) (data : CString) : Decidable (ChecksumFits plain data) :=
  inferInstanceAs (Decidable (_ ∨ _))

theorem wrapped_modEq (plain : PlainChar) (data : CString) :
    (256 : Int) ∣ wrapInt (charSum plain data.bytes) - byteSum data.bytes := by
  have wrapped := wrapInt_modEq (charSum plain data.bytes)
  have summed := charSum_modEq plain data.bytes
  omega

/-- The checksum is that of the unsigned bytes exactly where the sum fits. -/
theorem calcCsum_exact_iff (plain : PlainChar) (data : CString) :
    calcCsum plain data = (byteSum data.bytes % 256 : Nat) ↔ ChecksumFits plain data := by
  have same := wrapped_modEq plain data
  rw [calcCsum_eq, ChecksumFits, Int.tmod_eq_emod]
  split <;> omega

theorem calcCsum_negative {plain : PlainChar} {data : CString}
    (unfit : ¬ChecksumFits plain data) :
    -256 < calcCsum plain data ∧ calcCsum plain data < 0 := by
  have same := wrapped_modEq plain data
  rw [ChecksumFits, not_or] at unfit
  rw [calcCsum_eq, Int.tmod_eq_emod]
  split <;> omega

theorem length_printHex (value : Int) :
    (printHex value).length = gdbCsumLen ↔ value % 2 ^ 32 < 256 := by
  have digits := @Nat.length_toDigits_le_iff 16 (value % 2 ^ 32).toNat 2 (by decide) (by decide)
  rw [printHex, List.length_leftpad, List.length_map, gdbCsumLen, max_eq_left_iff, digits]
  omega

theorem gdbCsumLen_le_length_printHex (value : Int) : gdbCsumLen ≤ (printHex value).length := by
  rw [printHex, List.length_leftpad]
  exact le_max_left _ _

/-- The two digits of a checksum are characters of their own. -/
theorem printHex_byte : ∀ value : Fin 256, ∃ high low : Byte,
    printHex (value.val : Int) = [high, low] ∧ high ≠ 0 ∧ low ≠ 0 := by
  intro value
  refine ⟨(printHex value.val).headD 0, (printHex value.val).tail.headD 0, ?_⟩
  revert value
  decide +kernel

/-- A checksum that fits prints as two digits, none of them a terminator. -/
theorem printHex_of_fits {plain : PlainChar} {data : CString}
    (fits : ChecksumFits plain data) :
    ∃ high low : Byte, printHex (calcCsum plain data) = [high, low] ∧ high ≠ 0 ∧ low ≠ 0 := by
  have bound : byteSum data.bytes % 256 < 256 := Nat.mod_lt _ (by decide)
  rw [(calcCsum_exact_iff plain data).mpr fits]
  exact printHex_byte ⟨_, bound⟩

/-- One that does not fit prints as the eight digits of a negative number. -/
theorem printHex_of_unfit {plain : PlainChar} {data : CString}
    (unfit : ¬ChecksumFits plain data) :
    gdbCsumLen < (printHex (calcCsum plain data)).length := by
  have negative := calcCsum_negative unfit
  have wide : ¬(printHex (calcCsum plain data)).length = gdbCsumLen := by
    rw [length_printHex]
    omega
  have atLeast := gdbCsumLen_le_length_printHex (calcCsum plain data)
  omega

/-! ## Both ends of the wire -/

theorem length_printPacket (pktkind : Byte) (data : CString) (csum : Int) :
    (printPacket pktkind data csum).length =
      data.bytes.length + (printHex csum).length + 2 := by
  simp only [printPacket, List.cons_append, List.length_cons, List.length_append]
  omega

theorem gdbSerialize_of_data (plain : PlainChar) (kind : GdbKind) (data : CString)
    (carries : kind ≠ .nack ∧ kind ≠ .ack) :
    gdbSerialize plain kind (some data) =
      if ChecksumFits plain data then
        .ok (printPacket (kindToChar kind) data (calcCsum plain data))
      else .error .insufficientBuffer := by
  have plainKind : ¬(kind = .nack ∨ kind = .ack) := not_or.mpr carries
  simp only [gdbSerialize, if_neg plainKind, length_printPacket]
  by_cases fits : ChecksumFits plain data
  · obtain ⟨high, low, printed, -, -⟩ := printHex_of_fits fits
    rw [if_pos fits, if_neg]
    simp only [printed, List.length_cons, List.length_nil, gdbCsumLen]
    omega
  · have wide := printHex_of_unfit fits
    rw [if_neg fits, if_pos]
    omega

theorem mpcChar_run (character : Byte) (rest : List Byte) :
    (mpcChar character).run (character :: rest) = (some (CString.ofByte character), rest) :=
  Parser.map_of_run (Parser.satisfy_accepted rest (beq_self_eq_true character)) _

theorem mpcChar_refused {character other : Byte} (rest : List Byte)
    (different : other ≠ character) :
    (mpcChar character).run (other :: rest) = (none, other :: rest) := by
  simp [mpcChar, Parser.map, different]

theorem mpcAny_run (character : Byte) (rest : List Byte) :
    mpcAny.run (character :: rest) = (some (CString.ofByte character), rest) :=
  Parser.map_of_run (Parser.satisfy_accepted rest rfl) _

theorem gdbCsum_run (high low : Byte) (rest : List Byte) :
    gdbCsum.run (byte '#' :: high :: low :: rest) =
      (some (strfold (CString.ofByte (byte '#'))
        (strfold (CString.ofByte high) (CString.ofByte low))), rest) :=
  Parser.and2_of_run strfold (mpcChar_run (byte '#') _)
    (Parser.and2_of_run strfold (mpcAny_run high _) (mpcAny_run low _))

theorem copyCsum_strfold {high low : Byte} (highSet : high ≠ 0) (lowSet : low ≠ 0) :
    copyCsum ((strfold (CString.ofByte (byte '#'))
      (strfold (CString.ofByte high) (CString.ofByte low))).bytes.drop 1) = [high, low] := by
  have delimiter : byte '#' ≠ 0 := by decide
  simp [strfold, CString.concat, CString.bytes_ofByte highSet, CString.bytes_ofByte lowSet,
    CString.bytes_ofByte delimiter, copyCsum, gdbCsumLen]

theorem gdbAcknowledge_refused {start : Byte} (rest : List Byte)
    (neither : [byte '+', byte '-'].contains start = false) :
    gdbAcknowledge.run (start :: rest) = (none, start :: rest) :=
  Parser.map_of_run
    (Parser.map_of_run (Parser.satisfy_refused rest neither) CString.ofByte) gdbfAcknowledge

/-- The grammar reads a framed packet to its end. -/
theorem gdbParsePkt_packet {data : CString} {high low : Byte}
    (noDelimiter : byte '#' ∉ data.bytes) (noStart : byte '$' ∉ data.bytes)
    (highSet : high ≠ 0) (lowSet : low ≠ 0) :
    gdbParsePkt (byte '$' :: data.bytes ++ byte '#' :: [high, low]) =
      (some (.ok ⟨.packet, some data, [high, low]⟩), []) := by
  have accepted : ∀ character ∈ data.bytes,
      (!([byte '#', byte '$'] : List Byte).contains character) = true := by
    intro character member
    have notDelimiter : character ≠ byte '#' := fun same => noDelimiter (same ▸ member)
    have notStart : character ≠ byte '$' := fun same => noStart (same ▸ member)
    simp [notDelimiter, notStart]
  have stops : (!([byte '#', byte '$'] : List Byte).contains (byte '#')) = false := by decide
  have read := Parser.many_satisfy CString.concat CString.ofByte [high, low] accepted stops
  have parsed := Parser.and3_of_run gdbfPacket
    (mpcChar_run (byte '$') (data.bytes ++ byte '#' :: [high, low])) read (gdbCsum_run high low [])
  have built : gdbfPacket (CString.ofByte (byte '$'))
      (CString.concat (data.bytes.map CString.ofByte))
      (strfold (CString.ofByte (byte '#'))
        (strfold (CString.ofByte high) (CString.ofByte low))) =
      .ok ⟨.packet, some data, [high, low]⟩ := by
    have start : (CString.ofByte (byte '$')).bytes = [byte '$'] := by decide
    have notNotify : ¬([byte '$'] : List Byte).head? = some (byte '%') := by decide
    rw [gdbfPacket, copyCsum_strfold highSet lowSet, CString.concat_ofByte, start,
      if_neg notNotify]
    rfl
  rw [built] at parsed
  rw [gdbParsePkt, gdbParseStage1, List.cons_append,
    Parser.or_of_refused _ (gdbAcknowledge_refused _ (by decide))]
  exact Parser.or_of_left _ parsed

/-- No alternative of the grammar starts with the character `gdb_serialize` puts in
front of a notification. -/
theorem gdbParsePkt_hash (rest : List Byte) :
    gdbParsePkt (byte '#' :: rest) = (none, byte '#' :: rest) := by
  have notPacket : gdbPacket.run (byte '#' :: rest) = (none, byte '#' :: rest) :=
    Parser.and3_of_refused _ _ _ (mpcChar_refused rest (by decide))
  have notNotification : gdbNotification.run (byte '#' :: rest) = (none, byte '#' :: rest) :=
    Parser.and3_of_refused _ _ _ (mpcChar_refused rest (by decide))
  rw [gdbParsePkt, gdbParseStage1, Parser.or_of_refused _ (gdbAcknowledge_refused _ (by decide)),
    Parser.or_of_refused _ notPacket, notNotification]

theorem strncmpEqual_self (text : List Byte) (count : Nat) :
    strncmpEqual count text text = true := by
  induction count generalizing text with
  | zero => rfl
  | succ count step => simp [strncmpEqual, step]

theorem gdbIsValid_of_fits {plain : PlainChar} {data : CString} (kind : GdbKind)
    (fits : ChecksumFits plain data) :
    gdbIsValid plain ⟨kind, some data, printHex (calcCsum plain data)⟩ = .ok true := by
  obtain ⟨high, low, printed, -, -⟩ := printHex_of_fits fits
  have width : (printHex (calcCsum plain data)).length = gdbCsumLen := by rw [printed]; rfl
  simp only [gdbIsValid, if_pos width, strncmpEqual_self]

/-! ## The round trip -/

/-- What the peer makes of a packet: it reads all of it and gets a valid packet of the
same kind with the same data. -/
def RoundTrips (plain : PlainChar) (kind : GdbKind) (data : Option CString) : Prop :=
  ∃ text packet, gdbSerialize plain kind data = .ok text ∧
    gdbParsePkt text = (some (.ok packet), []) ∧
    packet.kind = kind ∧ packet.data = data ∧ gdbIsValid plain packet = .ok true

/-- The checksum of the protocol: the unsigned bytes modulo 256, as two digits. -/
def ChecksumIsExact (plain : PlainChar) (data : CString) : Prop :=
  calcCsum plain data = (byteSum data.bytes % 256 : Nat) ∧
    (printHex (calcCsum plain data)).length = gdbCsumLen

/-- What a kind of packet carries: acknowledgements nothing, the others a string free
of the characters that delimit it. -/
def Framable : GdbKind → Option CString → Prop
  | .notify, some data =>
      byte '#' ∉ data.bytes ∧ byte '$' ∉ data.bytes ∧ byte '%' ∉ data.bytes
  | .packet, some data => byte '#' ∉ data.bytes ∧ byte '$' ∉ data.bytes
  | .nack, none => True
  | .ack, none => True
  | _, _ => False

instance : ∀ (kind : GdbKind) (data : Option CString), Decidable (Framable kind data)
  | .notify, some _ => inferInstanceAs (Decidable (_ ∧ _ ∧ _))
  | .packet, some _ => inferInstanceAs (Decidable (_ ∧ _))
  | .nack, none => .isTrue trivial
  | .ack, none => .isTrue trivial
  | .notify, none => .isFalse id
  | .packet, none => .isFalse id
  | .nack, some _ => .isFalse id
  | .ack, some _ => .isFalse id

/-- The framing is faithful: packets round trip, and their checksum is the protocol's. -/
def FramesFaithfully (plain : PlainChar) (kind : GdbKind) (data : Option CString) : Prop :=
  RoundTrips plain kind data ∧ ∀ string, data = some string → ChecksumIsExact plain string

theorem checksumIsExact_of_fits {plain : PlainChar} {data : CString}
    (fits : ChecksumFits plain data) : ChecksumIsExact plain data := by
  obtain ⟨high, low, printed, -, -⟩ := printHex_of_fits fits
  exact ⟨(calcCsum_exact_iff plain data).mpr fits, by rw [printed]; rfl⟩

theorem roundTrips_packet {plain : PlainChar} {data : CString}
    (framable : Framable .packet (some data)) (fits : ChecksumFits plain data) :
    RoundTrips plain .packet (some data) := by
  obtain ⟨high, low, printed, highSet, lowSet⟩ := printHex_of_fits fits
  have serialized := gdbSerialize_of_data plain .packet data (by decide)
  rw [if_pos fits] at serialized
  refine ⟨_, ⟨.packet, some data, printHex (calcCsum plain data)⟩, serialized, ?_, rfl, rfl,
    gdbIsValid_of_fits .packet fits⟩
  rw [printPacket, printed]
  exact gdbParsePkt_packet framable.1 framable.2 highSet lowSet

theorem not_roundTrips_notify (plain : PlainChar) (data : Option CString) :
    ¬RoundTrips plain .notify data := by
  rintro ⟨text, packet, serialized, parsed, -⟩
  cases data with
  | none => simp [gdbSerialize] at serialized
  | some data =>
      rw [gdbSerialize_of_data plain .notify data (by decide)] at serialized
      split at serialized
      · cases serialized
        rw [printPacket, List.cons_append] at parsed
        have refused := gdbParsePkt_hash (data.bytes ++ byte '#' :: printHex (calcCsum plain data))
        cases refused.symm.trans parsed
      · cases serialized

theorem roundTrips_acknowledge (plain : PlainChar) {kind : GdbKind}
    (acknowledges : kind = .nack ∨ kind = .ack) : RoundTrips plain kind none := by
  rcases acknowledges with rfl | rfl
  · exact ⟨[byte '-'], ⟨.nack, none, [0, 0]⟩, rfl, by decide, rfl, rfl, rfl⟩
  · exact ⟨[byte '+'], ⟨.ack, none, [0, 0]⟩, rfl, by decide, rfl, rfl, rfl⟩

/-- What is framed is read back exactly where it is no notification and the checksum
of its characters does not come out negative. -/
theorem framesFaithfully_iff (plain : PlainChar) (kind : GdbKind) (data : Option CString)
    (framable : Framable kind data) :
    FramesFaithfully plain kind data ↔
      kind ≠ .notify ∧ ∀ string, data = some string → ChecksumFits plain string := by
  constructor
  · rintro ⟨roundTrips, exact⟩
    refine ⟨?_, ?_⟩
    · rintro rfl
      exact not_roundTrips_notify plain data roundTrips
    · intro string carried
      exact (calcCsum_exact_iff plain string).mp (exact string carried).1
  · rintro ⟨notNotify, fits⟩
    refine ⟨?_, fun string carried => checksumIsExact_of_fits (fits string carried)⟩
    cases kind with
    | notify => exact absurd rfl notNotify
    | packet =>
        cases data with
        | none => exact framable.elim
        | some data => exact roundTrips_packet framable (fits data rfl)
    | nack =>
        cases data with
        | none => exact roundTrips_acknowledge plain (.inl rfl)
        | some data => exact framable.elim
    | ack =>
        cases data with
        | none => exact roundTrips_acknowledge plain (.inr rfl)
        | some data => exact framable.elim

/-- The reply `OK`, which the server sends most. -/
def okReply : CString := ⟨[byte 'O', byte 'K'], by decide⟩

theorem framesFaithfully_ok : FramesFaithfully .signed .packet (some okReply) :=
  (framesFaithfully_iff .signed .packet (some okReply) (by decide)).mpr
    ⟨by decide, by rintro string ⟨rfl⟩; decide⟩

/-- A single byte above the ASCII range. -/
def highByte : CString := ⟨[0x80], by decide⟩

/-- Where `char` is signed, a packet with the byte 0x80 ends the server; a notification
is not read back on any compiler. -/
theorem not_framesFaithfully_high :
    (Framable .packet (some highByte) ∧ ¬FramesFaithfully .signed .packet (some highByte)) ∧
      (Framable .notify (some okReply) ∧ ¬FramesFaithfully .signed .notify (some okReply)) := by
  have negative : ¬calcCsum .signed highByte = (byteSum highByte.bytes % 256 : Nat) := by decide
  refine ⟨⟨by decide, fun faithful => negative (faithful.2 highByte rfl).1⟩, by decide, ?_⟩
  exact fun faithful => not_roundTrips_notify .signed (some okReply) faithful.1

end SymexVP.Gdb
