import SymexVP.GdbCommands

/-!
# Run-length encoding and escapes

The remote protocol lets a debugger shorten a repeated character to the character, a `*`
and a count character, and it escapes the four characters with a meaning of their own.
`gdb_decode_runlen` and `gdb_unescape` undo the two in turn.

The decoder asks of every character whether it is the marker, also where a count is
due. Thirteen repetitions have the marker itself for their count.
-/

namespace SymexVP.Gdb

/-! ## The encodings of the protocol -/

/-- The characters that are sent escaped. -/
def special : List Byte := [byte '#', byte '$', byte '*', byte '\x7d']

def escapeCharacter (character : Byte) : List Byte :=
  if character ∈ special then [byte '\x7d', character ^^^ 0x20] else [character]

def escape (text : List Byte) : List Byte := text.flatMap escapeCharacter

/-- The characters of the protocol. -/
def SevenBit (text : List Byte) : Prop := ∀ character ∈ text, character < 0x80

instance (text : List Byte) : Decidable (SevenBit text) :=
  inferInstanceAs (Decidable (∀ character ∈ text, character < 0x80))

/-- The count character of `n` further repetitions. -/
def countCharacter (n : Nat) : Byte := BitVec.ofNat 8 (n + 29)

/-- The numbers of further repetitions that have a printable count character without a
meaning in the framing. -/
def LegalCount (n : Nat) : Prop :=
  3 ≤ n ∧ n + 29 ≤ 126 ∧
    countCharacter n ∉ [byte '#', byte '$', byte '+', byte '-']

instance (n : Nat) : Decidable (LegalCount n) :=
  inferInstanceAs (Decidable (3 ≤ n ∧ n + 29 ≤ 126 ∧
    countCharacter n ∉ [byte '#', byte '$', byte '+', byte '-']))

/-- A character and the number of its further repetitions, if any are encoded. -/
structure Run where
  character : Byte
  further : Option Nat
  legal : ∀ n ∈ further, LegalCount n

def Run.encoded (run : Run) : List Byte :=
  match run.further with
  | none => [run.character]
  | some n => [run.character, byte '*', countCharacter n]

def Run.expanded (run : Run) : List Byte :=
  List.replicate (run.further.getD 0 + 1) run.character

/-- `runs` spell the run-length encoding `encoded` of `text`. -/
def Encodes (runs : List Run) (encoded text : List Byte) : Prop :=
  runs.flatMap Run.encoded = encoded ∧ runs.flatMap Run.expanded = text

/-- The two steps of `gdb_parse_cmd` from the data of a packet to its text. -/
def decodedText (plain : PlainChar) (data : CString) : Except Abort (Option CString) :=
  match gdbDecodeRunlen plain data with
  | .error abort => .error abort
  | .ok none => .ok none
  | .ok (some decoded) => .ok (some (gdbUnescape decoded))

/-! ## Unescaping -/

theorem unescapeFrom_plain {character : Byte} (esc : Bool) (rest : List Byte)
    (plain : character ≠ byte '\x7d') :
    unescapeFrom esc (character :: rest) =
      (if esc then character ^^^ 0x20 else character) :: unescapeFrom false rest := by
  rw [unescapeFrom, if_neg plain]

/-- Behind a character other than the escape the loop is where it began. -/
theorem unescapeFrom_append {character : Byte} (plain : character ≠ byte '\x7d')
    (esc : Bool) (before after : List Byte) :
    unescapeFrom esc (before ++ character :: after) =
      unescapeFrom esc (before ++ [character]) ++ unescapeFrom false after := by
  induction before generalizing esc with
  | nil =>
      rw [List.nil_append, List.nil_append, unescapeFrom_plain esc after plain,
        unescapeFrom_plain esc [] plain]
      rfl
  | cons first before inductionHypothesis =>
      simp only [List.cons_append, unescapeFrom]
      by_cases marker : first = byte '\x7d'
      · rw [if_pos marker, if_pos marker]
        exact inductionHypothesis true
      · rw [if_neg marker, if_neg marker, inductionHypothesis false, List.cons_append]

/-- An escaped character is not itself an escape. -/
theorem special_xor {character : Byte} (listed : character ∈ special) :
    character ^^^ 0x20 ≠ byte '\x7d' ∧ character ^^^ 0x20 ≠ 0 ∧ character ^^^ 0x20 < 0x80 ∧
      character ^^^ 0x20 ≠ byte '*' := by
  simp only [special, List.mem_cons, List.not_mem_nil, or_false] at listed
  rcases listed with rfl | rfl | rfl | rfl <;> decide

theorem not_special_of_not_mem {character : Byte} (unlisted : character ∉ special) :
    character ≠ byte '\x7d' ∧ character ≠ byte '*' := by
  constructor
  · rintro rfl
    exact unlisted (by decide)
  · rintro rfl
    exact unlisted (by decide)

theorem unescapeFrom_escape (text : List Byte) : unescapeFrom false (escape text) = text := by
  induction text with
  | nil => rfl
  | cons character text inductionHypothesis =>
      rw [escape, List.flatMap_cons, escapeCharacter]
      by_cases listed : character ∈ special
      · have plain := (special_xor listed).1
        rw [if_pos listed, List.cons_append, List.singleton_append, unescapeFrom, if_pos rfl,
          unescapeFrom_plain true _ plain]
        simp only [BitVec.xor_assoc, BitVec.xor_self, BitVec.xor_zero, if_true]
        rw [← escape, inductionHypothesis]
      · rw [if_neg listed, List.singleton_append,
          unescapeFrom_plain false _ (not_special_of_not_mem listed).1, ← escape,
          inductionHypothesis]
        rfl

/-! ## The characters of an escaped text -/

theorem mem_escape {text : List Byte} {character : Byte} (member : character ∈ escape text) :
    (∃ source ∈ special, character = source ^^^ 0x20) ∨ character = byte '\x7d' ∨
      (character ∈ text ∧ character ∉ special) := by
  obtain ⟨source, listed, inside⟩ := List.mem_flatMap.mp member
  unfold escapeCharacter at inside
  split at inside
  · rename_i marked
    simp only [List.mem_cons, List.not_mem_nil, or_false] at inside
    rcases inside with rfl | rfl
    · exact .inr (.inl rfl)
    · exact .inl ⟨source, marked, rfl⟩
  · rename_i unmarked
    obtain rfl := List.mem_singleton.mp inside
    exact .inr (.inr ⟨listed, unmarked⟩)

/-- What the decoder may expect of a character: seven bits, no NUL and no marker. -/
def Sent (character : Byte) : Prop :=
  character < 0x80 ∧ character ≠ 0 ∧ character ≠ byte '*'

theorem sent_of_mem_escape {text : CString} (sevenBit : SevenBit text.bytes) {character : Byte}
    (member : character ∈ escape text.bytes) : Sent character := by
  rcases mem_escape member with ⟨source, marked, rfl⟩ | rfl | ⟨listed, unmarked⟩
  · obtain ⟨-, nonzero, small, other⟩ := special_xor marked
    exact ⟨small, nonzero, other⟩
  · exact ⟨by decide, by decide, by decide⟩
  · exact ⟨sevenBit character listed, text.noTerminator character listed,
      (not_special_of_not_mem unmarked).2⟩

/-- No two escapes stand next to each other. -/
theorem escape_isChain (text : List Byte) :
    (escape text).IsChain fun left right => ¬(left = byte '\x7d' ∧ right = byte '\x7d') := by
  induction text with
  | nil => exact List.isChain_nil
  | cons character text inductionHypothesis =>
      rw [escape, List.flatMap_cons, escapeCharacter, ← escape]
      split
      · rename_i listed
        have plain := (special_xor listed).1
        rw [List.cons_append, List.singleton_append, List.isChain_cons_cons, List.isChain_cons]
        exact ⟨fun both => plain both.2, fun _ _ both => plain both.1, inductionHypothesis⟩
      · rename_i unlisted
        rw [List.singleton_append, List.isChain_cons]
        exact ⟨fun _ _ both => (not_special_of_not_mem unlisted).1 both.1, inductionHypothesis⟩

theorem repeated_ne_escape {text before after : List Byte} {character : Byte}
    (split : escape text = before ++ character :: character :: after) :
    character ≠ byte '\x7d' := by
  rintro rfl
  have chain := escape_isChain text
  rw [split] at chain
  have pair := (List.isChain_append.mp chain).2.1
  exact (List.isChain_cons_cons.mp pair).1 ⟨rfl, rfl⟩

/-! ## Decoding -/

/-- The characters in front of what the rest of the loop emits. -/
def emitted (characters : List Byte) :
    Except Abort (Option (List Byte)) → Except Abort (Option (List Byte))
  | .ok (some decoded) => .ok (some (characters ++ decoded))
  | other => other

theorem emitted_eq_some {characters text : List Byte} {result : Except Abort (Option (List Byte))}
    (decoded : emitted characters result = .ok (some text)) :
    ∃ rest, result = .ok (some rest) ∧ text = characters ++ rest := by
  unfold emitted at decoded
  split at decoded
  · rename_i rest
    cases decoded
    exact ⟨rest, rfl, rfl⟩
  · rename_i other unmet
    exact absurd decoded (unmet text)

theorem emitted_emitted (first second : List Byte) (result : Except Abort (Option (List Byte))) :
    emitted first (emitted second result) = emitted (first ++ second) result := by
  rcases result with abort | _ | decoded
  · rfl
  · rfl
  · simp only [emitted, List.append_assoc]

/-- A seven-bit character is the same number under either signedness, and passes the
assertion. -/
theorem toInt_of_small (plain : PlainChar) {character : Byte} (small : character < 0x80) :
    plain.toInt character = character.toNat ∧ (character.toNat : Int) ≤ plain.max ∧
      BitVec.ofInt 8 (character.toNat : Int) = character := by
  have bound : character.toNat < 128 := small
  refine ⟨?_, ?_, ?_⟩
  · cases plain with
    | signed =>
        show character.toInt = character.toNat
        rw [BitVec.toInt_eq_toNat_cond]
        split <;> omega
    | unsigned => rfl
  · cases plain <;> simp only [PlainChar.max] <;> omega
  · simp

variable {plain : PlainChar} {character : Byte}

/-- A character with no marker in front is emitted once. -/
theorem decodeRunlen_plain (small : character < 0x80) (other : character ≠ byte '*')
    (previous : Option Byte) (rest : List Byte) :
    decodeRunlen plain previous (-1) (character :: rest) =
      emitted [character] (decodeRunlen plain (some character) (-1) rest) := by
  obtain ⟨same, fits, back⟩ := toInt_of_small plain small
  have passes : ¬((character.toNat : Int) < 0 ∨ plain.max < character.toNat) := by omega
  simp only [decodeRunlen, if_neg other, if_true, same, if_neg passes, back]
  rfl

/-- A character behind a marker counts the repetitions of the one in front of it. -/
theorem decodeRunlen_repeats {runlen : Int} (positive : 0 ≤ runlen) (fits : runlen ≤ plain.max)
    (other : character ≠ byte '*') (previous : Option Byte) (rest : List Byte) :
    decodeRunlen plain previous runlen (character :: rest) =
      if plain.toInt character - 29 ≤ 0 then .ok none
      else emitted (List.replicate (plain.toInt character - 29).toNat (BitVec.ofInt 8 runlen))
        (decodeRunlen plain (some character) (-1) rest) := by
  have repeating : runlen ≠ -1 := by omega
  have passes : ¬(runlen < 0 ∨ plain.max < runlen) := by omega
  simp only [decodeRunlen, if_neg other, if_neg repeating, if_neg passes]
  rfl

theorem decodeRunlen_count (sent : Sent character) {n : Nat} (positive : 0 < n)
    (printable : n + 29 ≤ 126) (other : countCharacter n ≠ byte '*')
    (previous : Option Byte) (rest : List Byte) :
    decodeRunlen plain previous character.toNat (countCharacter n :: rest) =
      emitted (List.replicate n character)
        (decodeRunlen plain (some (countCharacter n)) (-1) rest) := by
  obtain ⟨small, -, -⟩ := sent
  obtain ⟨-, fits, back⟩ := toInt_of_small plain small
  have value : (countCharacter n).toNat = n + 29 := by
    rw [countCharacter, BitVec.toNat_ofNat]
    exact Nat.mod_eq_of_lt (by omega)
  have seven : countCharacter n < 0x80 := by
    rw [BitVec.lt_def, value]
    exact Nat.lt_of_le_of_lt printable (by decide)
  have count : plain.toInt (countCharacter n) - 29 = n := by
    rw [(toInt_of_small plain seven).1, value]
    omega
  rw [decodeRunlen_repeats (Int.natCast_nonneg _) fits other, count, back, Int.toNat_natCast,
    if_neg (by omega)]

/-- The marker behind a character. -/
theorem decodeRunlen_marker (small : character < 0x80) (runlen : Int) (rest : List Byte) :
    decodeRunlen plain (some character) runlen (byte '*' :: rest) =
      decodeRunlen plain (some (byte '*')) character.toNat rest := by
  rw [decodeRunlen, if_pos rfl, (toInt_of_small plain small).1]

theorem countCharacter_eq_marker_iff {n : Nat} (legal : LegalCount n) :
    countCharacter n = byte '*' ↔ n = 13 := by
  obtain ⟨-, printable, -⟩ := legal
  constructor
  · intro same
    have value := congrArg BitVec.toNat same
    rw [countCharacter, BitVec.toNat_ofNat, Nat.mod_eq_of_lt (by omega)] at value
    have marker : (byte '*').toNat = 42 := rfl
    omega
  · rintro rfl
    rfl

/-- A run of any other length is expanded. -/
theorem decodeRunlen_run (run : Run) (sent : Sent run.character) (other : run.further ≠ some 13)
    (previous : Option Byte) (rest : List Byte) :
    ∃ last, decodeRunlen plain previous (-1) (run.encoded ++ rest) =
      emitted run.expanded (decodeRunlen plain (some last) (-1) rest) := by
  obtain ⟨character, further, legal⟩ := run
  cases further with
  | none => exact ⟨character, decodeRunlen_plain sent.1 sent.2.2 previous rest⟩
  | some n =>
      have legal : LegalCount n := legal n rfl
      have unmarked : countCharacter n ≠ byte '*' :=
        fun marked => other (congrArg some ((countCharacter_eq_marker_iff legal).mp marked))
      refine ⟨countCharacter n, ?_⟩
      show decodeRunlen plain previous (-1) (character :: byte '*' :: countCharacter n :: rest) =
        emitted (character :: List.replicate n character) _
      rw [decodeRunlen_plain sent.1 sent.2.2, decodeRunlen_marker sent.1,
        decodeRunlen_count sent (Nat.lt_of_lt_of_le (by decide) legal.1) legal.2.1 unmarked,
        emitted_emitted]
      rfl

/-- Runs of other lengths are expanded one by one. -/
theorem decodeRunlen_runs {runs : List Run} (sent : ∀ run ∈ runs, Sent run.character)
    (others : ∀ run ∈ runs, run.further ≠ some 13) (previous : Option Byte) (rest : List Byte) :
    ∃ last, decodeRunlen plain previous (-1) (runs.flatMap Run.encoded ++ rest) =
      emitted (runs.flatMap Run.expanded) (decodeRunlen plain last (-1) rest) := by
  induction runs generalizing previous with
  | nil =>
      refine ⟨previous, ?_⟩
      rw [List.flatMap_nil, List.flatMap_nil, List.nil_append]
      generalize decodeRunlen plain previous (-1) rest = result
      rcases result with abort | _ | decoded <;> rfl
  | cons run runs inductionHypothesis =>
      obtain ⟨last, first⟩ := @decodeRunlen_run plain run (sent run List.mem_cons_self)
        (others run List.mem_cons_self) previous (runs.flatMap Run.encoded ++ rest)
      obtain ⟨last', tail⟩ := inductionHypothesis
        (fun run listed => sent run (List.mem_cons_of_mem _ listed))
        (fun run listed => others run (List.mem_cons_of_mem _ listed)) (some last)
      refine ⟨last', ?_⟩
      rw [List.flatMap_cons, List.append_assoc, first, tail, emitted_emitted, List.flatMap_cons]

/-! ## Text and encoding -/

/-- With the marker to repeat, the next character emitted is the marker. -/
theorem decodeRunlen_repeats_marker {after decoded : List Byte}
    (result : decodeRunlen plain (some (byte '*')) (byte '*').toNat after = .ok (some decoded)) :
    decoded = [] ∨ decoded.head? = some (byte '*') := by
  induction after with
  | nil =>
      cases result
      exact .inl rfl
  | cons first after inductionHypothesis =>
      by_cases marker : first = byte '*'
      · rw [marker, decodeRunlen_marker (by decide)] at result
        exact inductionHypothesis result
      · have repeating : ((byte '*').toNat : Int) ≠ -1 := by decide
        simp only [decodeRunlen, if_neg marker, if_neg repeating] at result
        split at result
        · cases result
        · rename_i positive
          split at result
          · cases result
          · obtain ⟨rest, -, rfl⟩ := emitted_eq_some result
            have more : (plain.toInt first - 29).toNat ≠ 0 := by omega
            rw [List.head?_append, List.head?_replicate, if_neg more]
            exact .inr rfl

/-- Thirteen repetitions put a second marker where the count is due. What is emitted next, if
anything is, is the marker itself. -/
theorem decodeRunlen_thirteen (sent : Sent character) (previous : Option Byte)
    {after decoded : List Byte}
    (result : decodeRunlen plain previous (-1)
      (character :: byte '*' :: byte '*' :: after) = .ok (some decoded)) :
    ∃ rest, decoded = character :: rest ∧ (rest = [] ∨ rest.head? = some (byte '*')) := by
  have small : byte '*' < 0x80 := by decide
  rw [decodeRunlen_plain sent.1 sent.2.2, decodeRunlen_marker sent.1,
    decodeRunlen_marker small] at result
  obtain ⟨rest, remaining, rfl⟩ := emitted_eq_some result
  exact ⟨rest, rfl, decodeRunlen_repeats_marker remaining⟩

theorem decodedText_eq_some {data text : CString}
    (result : decodedText plain data = .ok (some text)) :
    ∃ decoded, gdbDecodeRunlen plain data = .ok (some decoded) ∧ gdbUnescape decoded = text := by
  unfold decodedText at result
  split at result
  · cases result
  · cases result
  · rename_i decoded found
    cases result
    exact ⟨decoded, found, rfl⟩

theorem takeWhile_nonzero {text : List Byte} (nonzero : ∀ character ∈ text, character ≠ 0)
    (rest : List Byte) :
    (text ++ rest).takeWhile (· != 0) = text ++ rest.takeWhile (· != 0) :=
  List.takeWhile_append_of_pos fun character listed => by simpa using nonzero character listed

theorem takeWhile_cons_nonzero (nonzero : character ≠ 0) (rest : List Byte) :
    (character :: rest).takeWhile (· != 0) = character :: rest.takeWhile (· != 0) :=
  @takeWhile_nonzero [character] (by simpa using nonzero) rest

theorem gdbUnescape_escape {text : CString} (sevenBit : SevenBit text.bytes) :
    gdbUnescape (escape text.bytes) = text := by
  apply CString.ext_bytes
  have whole := takeWhile_nonzero
    (fun _ member => (sent_of_mem_escape sevenBit member).2.1) []
  have again := takeWhile_nonzero text.noTerminator []
  simp only [List.append_nil, List.takeWhile_nil] at whole again
  show ((unescapeFrom false ((escape text.bytes).takeWhile (· != 0))).takeWhile (· != 0)) = _
  rw [whole, unescapeFrom_escape, again]

variable {text data : CString} {runs : List Run}

theorem sent_of_encodes (sevenBit : SevenBit text.bytes)
    (encodes : Encodes runs data.bytes (escape text.bytes)) :
    ∀ run ∈ runs, Sent run.character := by
  intro run listed
  have member : run.character ∈ runs.flatMap Run.expanded :=
    List.mem_flatMap.mpr ⟨run, listed, List.mem_replicate.mpr ⟨Nat.succ_ne_zero _, rfl⟩⟩
  rw [encodes.2] at member
  exact sent_of_mem_escape sevenBit member

theorem decodedText_of_no_thirteen (plain : PlainChar) (sevenBit : SevenBit text.bytes)
    (encodes : Encodes runs data.bytes (escape text.bytes))
    (others : ∀ run ∈ runs, run.further ≠ some 13) :
    decodedText plain data = .ok (some text) := by
  obtain ⟨last, decoded⟩ := @decodeRunlen_runs plain runs
    (sent_of_encodes sevenBit encodes) others none []
  rw [List.append_nil, encodes.1, encodes.2] at decoded
  simp only [decodeRunlen, emitted, List.append_nil] at decoded
  simp only [decodedText, gdbDecodeRunlen, decoded, gdbUnescape_escape sevenBit]

/-- The first run of thirteen repetitions. -/
theorem exists_first_thirteen {run : Run} (listed : run ∈ runs)
    (thirteen : run.further = some 13) :
    ∃ before first after, runs = before ++ first :: after ∧ first.further = some 13 ∧
      ∀ earlier ∈ before, earlier.further ≠ some 13 := by
  induction runs with
  | nil => exact absurd listed List.not_mem_nil
  | cons first runs inductionHypothesis =>
      by_cases found : first.further = some 13
      · exact ⟨[], first, runs, rfl, found, fun _ member => absurd member List.not_mem_nil⟩
      · have later : run ∈ runs := by
          rcases List.mem_cons.mp listed with rfl | later
          · exact absurd thirteen found
          · exact later
        obtain ⟨before, other, after, rfl, shown, earlier⟩ := inductionHypothesis later
        refine ⟨first :: before, other, after, rfl, shown, ?_⟩
        intro run member
        rcases List.mem_cons.mp member with rfl | member
        · exact found
        · exact earlier run member

/-- What follows a character other than the escape decides how the unescaped text goes on. -/
theorem unescaped_continues {before rest more : List Byte} (other : character ≠ byte '\x7d')
    (nonzero : ∀ first ∈ before, first ≠ 0) (here : character ≠ 0)
    (whole : unescapeFrom false (before ++ character :: more) = text.bytes)
    (same : gdbUnescape (before ++ character :: rest) = text) :
    (unescapeFrom false (rest.takeWhile (· != 0))).takeWhile (· != 0) =
      unescapeFrom false more := by
  have visible : (before ++ character :: rest).takeWhile (· != 0) =
      before ++ character :: rest.takeWhile (· != 0) := by
    rw [takeWhile_nonzero nonzero, takeWhile_cons_nonzero here]
  rw [unescapeFrom_append other] at whole
  have front : ∀ first ∈ unescapeFrom false (before ++ [character]), first ≠ 0 := by
    intro first member
    apply text.noTerminator
    rw [← whole]
    exact List.mem_append_left _ member
  have read := congrArg CString.bytes same
  simp only [gdbUnescape, CString.ofBuffer] at read
  rw [visible, unescapeFrom_append other, takeWhile_nonzero front, ← whole] at read
  exact List.append_cancel_left read

/-- A text decoded up to a run of thirteen repetitions ends there or goes on with the marker. -/
theorem decodedText_ne_of_thirteen (plain : PlainChar) (sevenBit : SevenBit text.bytes)
    (encodes : Encodes runs data.bytes (escape text.bytes))
    {run : Run} (listed : run ∈ runs) (thirteen : run.further = some 13) :
    decodedText plain data ≠ .ok (some text) := by
  intro result
  obtain ⟨before, ⟨character, further, legal⟩, after, rfl, rfl, others⟩ :=
    exists_first_thirteen listed thirteen
  have sent := sent_of_encodes sevenBit encodes
  have here : Sent character := sent ⟨character, some 13, legal⟩ (by simp)
  obtain ⟨encoded, expanded⟩ := encodes
  rw [List.flatMap_append, List.flatMap_cons] at encoded expanded
  -- The decoder reaches the run with what is in front of it expanded.
  obtain ⟨decoded, found, unescaped⟩ := decodedText_eq_some result
  obtain ⟨last, reached⟩ := @decodeRunlen_runs plain before
    (fun run member => sent run (List.mem_append_left _ member)) others none
    (Run.encoded ⟨character, some 13, legal⟩ ++ after.flatMap Run.encoded)
  rw [encoded] at reached
  rw [gdbDecodeRunlen, reached] at found
  obtain ⟨emission, remaining, rfl⟩ := emitted_eq_some found
  obtain ⟨rest, rfl, ending⟩ := decodeRunlen_thirteen here last remaining
  -- The text goes on with the repeated character.
  have repeated : ∃ more, escape text.bytes =
      before.flatMap Run.expanded ++ character :: character :: more := ⟨_, expanded.symm⟩
  obtain ⟨more, split⟩ := repeated
  have other : character ≠ byte '\x7d' := repeated_ne_escape split
  have nonzero : ∀ first ∈ before.flatMap Run.expanded, first ≠ 0 := by
    intro first member
    refine (sent_of_mem_escape sevenBit ?_).2.1
    rw [split]
    exact List.mem_append_left _ member
  have whole : unescapeFrom false (before.flatMap Run.expanded ++ character :: character :: more) =
      text.bytes := by
    rw [← split, unescapeFrom_escape]
  have continues := unescaped_continues other nonzero here.2.1 whole unescaped
  rw [unescapeFrom_plain false more other] at continues
  rcases ending with rfl | marker
  · exact absurd continues (by simp [unescapeFrom])
  · obtain ⟨tail, rfl⟩ := List.head?_eq_some_iff.mp marker
    have first : byte '*' ≠ 0 := by decide
    have plainMarker : byte '*' ≠ byte '\x7d' := by decide
    rw [takeWhile_cons_nonzero first, unescapeFrom_plain false _ plainMarker, if_neg (by decide),
      takeWhile_cons_nonzero first] at continues
    exact here.2.2 (List.cons.inj continues).1.symm

/-- Decoding and unescaping invert the protocol's encodings, unless a run has thirteen further
repetitions. -/
theorem decodedText_eq_iff (plain : PlainChar) (sevenBit : SevenBit text.bytes)
    (encodes : Encodes runs data.bytes (escape text.bytes)) :
    decodedText plain data = .ok (some text) ↔ ∀ run ∈ runs, run.further ≠ some 13 := by
  constructor
  · intro result run listed thirteen
    exact decodedText_ne_of_thirteen plain sevenBit encodes listed thirteen result
  · exact decodedText_of_no_thirteen plain sevenBit encodes

/-- Six times the letter a and a `#`, with the letters as one run. -/
theorem decodedText_six_and_hash :
    decodedText .signed ⟨str "a*\x22\x7d\x03", by decide⟩ =
      .ok (some ⟨str "aaaaaa#", by decide⟩) := by
  let runs : List Run :=
    [⟨byte 'a', some 5, fun n given => by cases given; decide⟩, ⟨byte '\x7d', none, nofun⟩,
      ⟨3, none, nofun⟩]
  have encodes : Encodes runs (str "a*\x22\x7d\x03") (escape (str "aaaaaa#")) :=
    ⟨rfl, by decide⟩
  exact (decodedText_eq_iff .signed (by decide) encodes).mpr (by decide)

/-- Fourteen times the letter a arrive as one. -/
theorem not_decodedText_fourteen :
    ¬∀ (plain : PlainChar) (text data : CString) (runs : List Run), SevenBit text.bytes →
      Encodes runs data.bytes (escape text.bytes) → decodedText plain data = .ok (some text) := by
  intro claim
  have decoded := claim .signed ⟨List.replicate 14 (byte 'a'), by decide⟩ ⟨str "a**", by decide⟩
    [⟨byte 'a', some 13, fun n given => by cases given; decide⟩] (by decide) ⟨rfl, by decide⟩
  have one : decodedText .signed ⟨str "a**", by decide⟩ = .ok (some ⟨str "a", by decide⟩) := rfl
  rw [one] at decoded
  exact absurd decoded (by simp [str])

end SymexVP.Gdb
