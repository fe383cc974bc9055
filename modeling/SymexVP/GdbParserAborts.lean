import SymexVP.GdbArguments
import SymexVP.GdbDecoderAborts

/-!
# Packets that abort the simulator

Any peer may send the debug server a packet, and what `gdb_parse_cmd` asserts on the way
to a command then holds of any bytes or ends the simulation. Three assertions do not: the
checksum of signed characters may be negative, the decoder may reach a negative
character, and the grammar lets an action of `vCont` have a signal of any number of
digits while the fold knows only two.

The folds of numbers assert what their grammars have established.
-/

namespace SymexVP.Gdb

open Grammar

namespace Stage2

/-! ## The folds of numbers -/

def isHexDigit (character : Byte) : Bool := (hexDigit character).isSome

/-- `sscanf` with a hexadecimal conversion, for a text with nothing in front of its digits. -/
def sscanfHex (text : List Byte) : Option Nat :=
  match text.takeWhile isHexDigit with
  | [] => none
  | digits => some (hexValue digits)

/-- `gdbf_address` and `gdbf_uhex`: one conversion is asserted. -/
def gdbfNumber (x : List Byte) : Mpc Nat :=
  match sscanfHex x with
  | some value => pure value
  | none => Grammar.abort .assertion

def gdbfAddress : List Byte → Mpc Nat := gdbfNumber

def gdbfUhex : List Byte → Mpc Nat := gdbfNumber

/-- `gdbf_negative`. -/
def gdbfNegative (val : List Byte) : Mpc Int :=
  if val = str "-1" then pure (-1) else Grammar.abort .assertion

/-- `mpc_apply`. -/
def mpcApply {α β : Type} (grammar : Mpc α) (fold : α → Mpc β) : Mpc β := grammar >>= fold

theorem accepts_hexdigits_iff {input digits rest : List Byte} :
    Accepts hexdigits input digits rest ↔
      digits = input.takeWhile isHexDigit ∧ rest = input.dropWhile isHexDigit ∧ digits ≠ [] :=
  accepts_many1_takeWhile_iff

theorem survives_hexdigits : Survives hexdigits := (survives_satisfy _).many1

/-- Two folds that agree on what a grammar accepts. -/
theorem mpcApply_congr {α β : Type} {grammar : Mpc α} {fold fold' : α → Mpc β}
    (same : ∀ {input rest value}, Accepts grammar input value rest → fold value = fold' value) :
    mpcApply grammar fold = mpcApply grammar fold' := by
  obtain ⟨run⟩ := grammar
  simp only [mpcApply, bind, Grammar.bind]
  congr 1
  funext input
  cases ran : run input with
  | error abort => rfl
  | ok found =>
      cases found with
      | none => rfl
      | some pair =>
          dsimp only
          rw [@same input pair.2 pair.1 ran]

theorem sscanfHex_of_digits {digits : List Byte} (some_ : digits ≠ [])
    (all : ∀ digit ∈ digits, isHexDigit digit = true) :
    sscanfHex digits = some (hexValue digits) := by
  unfold sscanfHex
  rw [List.takeWhile_eq_self_iff.mpr all]
  cases digits with
  | nil => exact absurd rfl some_
  | cons digit digits => rfl

/-- `gdb_address` and `gdb_uhex` are the grammar without the assertion. -/
theorem mpcApply_gdbfNumber : mpcApply hexdigits gdbfNumber = hex := by
  have same {input rest digits : List Byte} (accepted : Accepts hexdigits input digits rest) :
      gdbfNumber digits = (pure (hexValue digits) : Mpc Nat) := by
    obtain ⟨rfl, -, some_⟩ := accepts_hexdigits_iff.mp accepted
    rw [gdbfNumber, sscanfHex_of_digits some_ fun _ member => List.mem_takeWhile_imp member]
  exact mpcApply_congr same

theorem mpcApply_gdbfNegative :
    mpcApply (string (str "-1")) gdbfNegative =
      (string (str "-1") >>= fun _ => pure (-1) : Mpc Int) := by
  have same {input rest val : List Byte} (accepted : Accepts (string (str "-1")) input val rest) :
      gdbfNegative val = (pure (-1) : Mpc Int) := by
    rw [gdbfNegative, if_pos (accepts_string accepted)]
  exact mpcApply_congr same

theorem string_negative : (string (str "-1") >>= fun _ => pure (-1) : Mpc Int) = (do
    let _ ← char (byte '-')
    let _ ← char (byte '1')
    pure (-1)) := by
  have characters : str "-1" = [byte '-', byte '1'] := rfl
  simp only [characters, string, bind, Grammar.bind, pure, Grammar.pure]
  congr 1
  funext input
  cases (char (byte '-')).run input with
  | error abort => rfl
  | ok found =>
      rcases found with _ | ⟨first, behind⟩
      · rfl
      · dsimp only
        rcases (char (byte '1')).run behind with abort | _ | second <;> rfl

/-- So is `gdb_hexid`. -/
theorem gdbHexid_eq : gdbHexid = (do let value ← hex; pure (value : Int)).or
    (mpcApply (string (str "-1")) gdbfNegative) := by
  rw [mpcApply_gdbfNegative, string_negative]
  rfl

/-! ## An action of vCont -/

/-- An action `C` or `S` with a number of digits other than two for its signal. -/
def BadSignal (input : List Byte) : Prop :=
  ∃ op digits rest, input = byte ';' :: op :: (digits ++ rest) ∧ op ∈ str "CS" ∧ digits ≠ [] ∧
    digits.length ≠ 2 ∧ (∀ digit ∈ digits, isHexDigit digit = true) ∧
    ∀ next ∈ rest.head?, isHexDigit next = false

/-- One round of the list of actions. -/
def vcontRound : Mpc GdbVcont := do
  let _ ← char (byte ';')
  gdbVcontAction

/-- The letter of an action with the digits of its signal. -/
def actionLetters : Mpc (List Byte) :=
  (do let action ← oneof (str "cst"); pure [action]).or do
    let action ← oneof (str "CS")
    let digits ← hexdigits
    pure (action :: digits)

def actionThread : Mpc (Option GdbThread) := Grammar.maybe do
  let _ ← char (byte ':')
  gdbThreadId

theorem gdbVcontAction_eq : gdbVcontAction = (actionLetters >>= fun action =>
    actionThread >>= fun thread => gdbfVcontAction action thread) := rfl

theorem survives_actionLetters : Survives actionLetters :=
  ((survives_satisfy _).bind fun _ => survives_pure _).or <|
    (survives_satisfy _).bind fun _ => survives_hexdigits.bind fun _ => survives_pure _

theorem survives_colonThread : Survives (do
    let _ ← char (byte ':')
    gdbThreadId) := (survives_satisfy _).bind fun _ => survives_gdbThreadId

theorem dies_gdbfVcontAction_iff (action : List Byte) (thread : Option GdbThread)
    (input : List Byte) : Dies (gdbfVcontAction action thread) input ↔
      action.length ≠ 1 ∧ action.length ≠ 3 := by
  unfold gdbfVcontAction
  split
  · exact iff_of_false ((survives_pure _).not_dies _) fun both => both.1 rfl
  · exact iff_of_false ((survives_pure _).not_dies _) fun both => both.2 rfl
  · rename_i one three
    refine iff_of_true (dies_abort _ _) ⟨?_, ?_⟩
    · intro length
      obtain ⟨letter, rfl⟩ := List.length_eq_one_iff.mp length
      exact one letter rfl
    · intro length
      obtain ⟨letter, high, low, rfl⟩ := List.length_eq_three.mp length
      exact three letter high low rfl

/-- What is read in front of a thread is a letter, or a letter with all the digits there are. -/
theorem accepts_actionLetters_iff {input action rest : List Byte} (long : action.length ≠ 1) :
    Accepts actionLetters input action rest ↔
      ∃ op behind, input = op :: behind ∧ op ∈ str "CS" ∧
        action = op :: behind.takeWhile isHexDigit ∧ rest = behind.dropWhile isHexDigit ∧
        behind.takeWhile isHexDigit ≠ [] := by
  constructor
  · intro accepted
    rcases accepts_of_or accepted with accepted | ⟨-, accepted⟩
    · obtain ⟨_, _, -, returned⟩ := accepts_bind_iff.mp accepted
      obtain ⟨rfl, -⟩ := accepts_pure_iff.mp returned
      exact absurd rfl long
    · obtain ⟨op, behind, read, accepted⟩ := accepts_bind_iff.mp accepted
      obtain ⟨digits, left, number, returned⟩ := accepts_bind_iff.mp accepted
      obtain ⟨rfl, rfl⟩ := accepts_pure_iff.mp returned
      obtain ⟨listed, rfl⟩ := accepts_satisfy_iff.mp read
      obtain ⟨rfl, rfl, some_⟩ := accepts_hexdigits_iff.mp number
      exact ⟨op, behind, rfl, by simpa using listed, rfl, rfl, some_⟩
  · rintro ⟨op, behind, rfl, listed, rfl, rfl, some_⟩
    have single : ∀ op ∈ str "CS", (str "cst").contains op = false := by decide
    refine Refuses.accepts_or (Refuses.bind (refuses_satisfy ?_) _) ?_
    · intro token first
      cases first
      exact single op listed
    · have read : Accepts (oneof (str "CS")) (op :: behind) op behind :=
        accepts_satisfy_iff.mpr ⟨by simpa using listed, rfl⟩
      have number := accepts_hexdigits_iff.mpr ⟨rfl, rfl, some_⟩
      exact accepts_bind_iff.mpr ⟨op, behind, read, accepts_bind_iff.mpr
        ⟨_, _, number, accepts_pure_iff.mpr ⟨rfl, rfl⟩⟩⟩

theorem dies_gdbVcontAction_iff {input : List Byte} :
    Dies gdbVcontAction input ↔ ∃ action rest, Accepts actionLetters input action rest ∧
      action.length ≠ 1 ∧ action.length ≠ 3 := by
  rw [gdbVcontAction_eq, survives_actionLetters.dies_bind_iff]
  refine exists_congr fun action => exists_congr fun rest => and_congr_right fun _ => ?_
  have survives : Survives actionThread := survives_colonThread.maybe
  rw [survives.dies_bind_iff]
  simp only [dies_gdbfVcontAction_iff]
  constructor
  · rintro ⟨_, _, -, lengths⟩
    exact lengths
  · intro lengths
    obtain ⟨thread, more, accepted⟩ := survives_colonThread.maybe_accepts rest
    exact ⟨thread, more, accepted, lengths⟩

/-- Digits with something else behind them. -/
theorem takeWhile_digits {digits rest : List Byte}
    (all : ∀ digit ∈ digits, isHexDigit digit = true)
    (ended : ∀ next ∈ rest.head?, isHexDigit next = false) :
    (digits ++ rest).takeWhile isHexDigit = digits ∧
      (digits ++ rest).dropWhile isHexDigit = rest := by
  rw [List.takeWhile_append_of_pos all, List.dropWhile_append_of_pos all]
  cases rest with
  | nil => exact ⟨List.append_nil digits, rfl⟩
  | cons next rest =>
      have other : ¬isHexDigit next = true := by simpa using ended next rfl
      rw [List.takeWhile_cons_of_neg other, List.dropWhile_cons_of_neg other, List.append_nil]
      exact ⟨rfl, rfl⟩

theorem dies_vcontRound_iff {input : List Byte} : Dies vcontRound input ↔ BadSignal input := by
  have separator : Survives (char (byte ';')) := survives_satisfy _
  rw [vcontRound, separator.dies_bind_iff]
  constructor
  · rintro ⟨token, behind, read, died⟩
    obtain ⟨same, rfl⟩ := accepts_satisfy_iff.mp read
    cases of_decide_eq_true same
    obtain ⟨action, rest, accepted, one, three⟩ := dies_gdbVcontAction_iff.mp died
    obtain ⟨op, behind, rfl, listed, rfl, rfl, some_⟩ :=
      (accepts_actionLetters_iff one).mp accepted
    refine ⟨op, behind.takeWhile isHexDigit, behind.dropWhile isHexDigit, ?_, listed, some_, ?_,
      fun _ member => List.mem_takeWhile_imp member, ?_⟩
    · rw [List.takeWhile_append_dropWhile]
    · rw [List.length_cons] at three
      omega
    · intro next first
      have stopped := List.head?_dropWhile_not isHexDigit behind
      rw [Option.mem_def.mp first] at stopped
      simpa using stopped
  · rintro ⟨op, digits, rest, rfl, listed, some_, two, all, ended⟩
    obtain ⟨taken, left⟩ := takeWhile_digits all ended
    have positive := List.length_pos_iff.mpr some_
    have one : (op :: digits).length ≠ 1 := by
      rw [List.length_cons]
      omega
    have three : (op :: digits).length ≠ 3 := by
      rw [List.length_cons]
      omega
    refine ⟨byte ';', op :: (digits ++ rest), accepts_satisfy_iff.mpr ⟨by simp, rfl⟩, ?_⟩
    refine dies_gdbVcontAction_iff.mpr ⟨op :: digits, rest, ?_, one, three⟩
    refine (accepts_actionLetters_iff one).mpr ⟨op, digits ++ rest, rfl, listed, ?_⟩
    rw [taken, left]
    exact ⟨rfl, rfl, some_⟩

/-! ## The grammar -/

/-- A text of `vCont` whose actions are well-formed up to one with a bad signal. -/
def BadVcont (text : List Byte) : Prop :=
  ∃ rest, text = str "vCont" ++ rest ∧ Behind vcontRound BadSignal rest

theorem survives_string (name : List Byte) : Survives (string name) := by
  induction name with
  | nil => exact survives_pure _
  | cons character name inductionHypothesis =>
      exact (survives_satisfy _).bind fun _ => inductionHypothesis.bind fun _ => survives_pure _

theorem accepts_string_iff {name value input rest : List Byte} :
    Accepts (string name) input value rest ↔ value = name ∧ input = name ++ rest := by
  constructor
  · intro accepted
    refine ⟨accepts_string accepted, ?_⟩
    induction name generalizing value input with
    | nil => exact (accepts_pure_iff.mp accepted).2
    | cons character name inductionHypothesis =>
        obtain ⟨first, behind, read, continued⟩ := accepts_bind_iff.mp accepted
        obtain ⟨others, left, follow, returned⟩ := accepts_bind_iff.mp continued
        obtain ⟨rfl, rfl⟩ := accepts_pure_iff.mp returned
        obtain ⟨same, rfl⟩ := accepts_satisfy_iff.mp read
        rw [of_decide_eq_true same, inductionHypothesis follow, List.cons_append]
  · rintro ⟨rfl, rfl⟩
    exact accepts_string_append _ rest

theorem leavesSuffix_hex : LeavesSuffix hex :=
  (leavesSuffix_satisfy _).many1.bind fun _ => leavesSuffix_pure _

theorem leavesSuffix_gdbHexid : LeavesSuffix gdbHexid :=
  (leavesSuffix_hex.bind fun _ => leavesSuffix_pure _).or <|
    (leavesSuffix_satisfy _).bind fun _ => (leavesSuffix_satisfy _).bind fun _ =>
      leavesSuffix_pure _

theorem leavesSuffix_gdbThreadId : LeavesSuffix gdbThreadId :=
  (LeavesSuffix.maybe <| (leavesSuffix_satisfy _).bind fun _ => leavesSuffix_gdbHexid.bind fun _ =>
    (leavesSuffix_satisfy _).bind fun _ => leavesSuffix_pure _).bind fun _ =>
      leavesSuffix_gdbHexid.bind fun _ => leavesSuffix_pure _

theorem leavesSuffix_gdbfVcontAction (action : List Byte) (thread : Option GdbThread) :
    LeavesSuffix (gdbfVcontAction action thread) := by
  unfold gdbfVcontAction
  split
  · exact leavesSuffix_pure _
  · exact leavesSuffix_pure _
  · exact leavesSuffix_abort _

theorem leavesSuffix_gdbVcontAction : LeavesSuffix gdbVcontAction := by
  have letters : LeavesSuffix actionLetters :=
    ((leavesSuffix_satisfy _).bind fun _ => leavesSuffix_pure _).or <|
      (leavesSuffix_satisfy _).bind fun _ => (leavesSuffix_satisfy _).many1.bind fun _ =>
        leavesSuffix_pure _
  have thread : LeavesSuffix actionThread :=
    LeavesSuffix.maybe ((leavesSuffix_satisfy _).bind fun _ => leavesSuffix_gdbThreadId)
  exact letters.bind fun _ => thread.bind fun _ => leavesSuffix_gdbfVcontAction _ _

theorem vcontRound_shortens {input rest : List Byte} {action : GdbVcont}
    (accepted : Accepts vcontRound input action rest) : rest.length < input.length := by
  obtain ⟨token, behind, read, continued⟩ := accepts_bind_iff.mp accepted
  obtain ⟨-, rfl⟩ := accepts_satisfy_iff.mp read
  have shorter := (leavesSuffix_gdbVcontAction _ _ _ continued).length_le
  rw [List.length_cons]
  omega

theorem dies_gdbPacketVcont_iff {text : List Byte} :
    Dies gdbPacketVcont text ↔ BadVcont text := by
  have alive : ¬Dies vcontRound [] := by
    rw [dies_vcontRound_iff]
    rintro ⟨op, digits, rest, impossible, -⟩
    cases impossible
  have bad : Dies vcontRound = BadSignal := funext fun _ => propext dies_vcontRound_iff
  have sequence : gdbPacketVcont = (string (str "vCont") >>= fun name =>
      many1 vcontRound >>= fun actions => pure ⟨name, .vval actions⟩) := rfl
  rw [sequence, (survives_string _).dies_bind_iff]
  constructor
  · rintro ⟨name, rest, read, died⟩
    obtain ⟨rfl, rfl⟩ := accepts_string_iff.mp read
    rw [dies_bind_of_survives fun _ => survives_pure _,
      dies_many1_iff vcontRound_shortens alive, bad] at died
    exact ⟨rest, rfl, died⟩
  · rintro ⟨rest, rfl, behind⟩
    refine ⟨_, rest, accepts_string_iff.mpr ⟨rfl, rfl⟩, ?_⟩
    rw [dies_bind_of_survives fun _ => survives_pure _,
      dies_many1_iff vcontRound_shortens alive, bad]
    exact behind

theorem survives_char (character : Byte) : Survives (char character) := survives_satisfy _

theorem survives_gdbCmd {cmd : Mpc GdbCommand} (survives : Survives cmd) :
    Survives (gdbCmd cmd) :=
  survives.bind fun _ => survives_eoi.bind fun _ => survives_pure _

theorem dies_gdbCmd_iff {cmd : Mpc GdbCommand} {text : List Byte} :
    Dies (gdbCmd cmd) text ↔ Dies cmd text :=
  dies_bind_of_survives fun _ => survives_eoi.bind fun _ => survives_pure _

theorem survives_gdbMemory : Survives gdbMemory :=
  survives_hex.bind fun _ => (survives_char _).bind fun _ => survives_hex.bind fun _ =>
    survives_pure _

theorem survives_gdbPacketH : Survives gdbPacketH :=
  (survives_char _).bind fun _ => (survives_satisfy _).bind fun _ =>
    survives_gdbThreadId.bind fun _ => survives_pure _

theorem survives_gdbPacketP : Survives gdbPacketP :=
  (survives_char _).bind fun _ => survives_hex.bind fun _ => survives_pure _

theorem survives_gdbPacketm : Survives gdbPacketm :=
  (survives_char _).bind fun _ => survives_gdbMemory.bind fun _ => survives_pure _

theorem survives_gdbPacketM : Survives gdbPacketM :=
  (survives_char _).bind fun _ => survives_gdbMemory.bind fun _ => (survives_char _).bind fun _ =>
    survives_hexdigits.bind fun _ => survives_pure _

theorem survives_gdbPacketz : Survives gdbPacketz :=
  ((survives_char _).or (survives_char _)).bind fun _ => (survives_satisfy _).bind fun _ =>
    (survives_char _).bind fun _ => survives_hex.bind fun _ => (survives_char _).bind fun _ =>
      survives_hex.bind fun _ => survives_pure _

theorem survives_gdbPacketT : Survives gdbPacketT :=
  (survives_char _).bind fun _ => survives_gdbThreadId.bind fun _ => survives_pure _

theorem survives_gdbAny : Survives gdbAny :=
  (survives_satisfy _).many1.bind fun _ => survives_pure _

/-- A grammar for another letter refuses a text of `vCont`. -/
theorem refuses_of_badVcont {α : Type} {character : Byte} {next : Byte → Mpc α} {text : List Byte}
    (bad : BadVcont text) (other : byte 'v' ≠ character) :
    Refuses (char character >>= next) text := by
  obtain ⟨rest, rfl, -⟩ := bad
  refine Refuses.bind (refuses_satisfy ?_) _
  intro token first
  cases first
  exact beq_eq_false_iff_ne.mpr other

/-- Parsing dies on the texts of `vCont` with a bad signal. -/
theorem dies_gdbParseStage2_iff {text : List Byte} :
    Dies gdbParseStage2 text ↔ BadVcont text := by
  have others : Survives ((gdbCmd gdbPacketm).or <| (gdbCmd gdbPacketM).or <|
      (gdbCmd gdbPacketz).or (gdbCmd gdbPacketT)) :=
    (survives_gdbCmd survives_gdbPacketm).or <| (survives_gdbCmd survives_gdbPacketM).or <|
      (survives_gdbCmd survives_gdbPacketz).or (survives_gdbCmd survives_gdbPacketT)
  rw [gdbParseStage2, dies_or_of_survives survives_gdbAny, typed,
    (survives_gdbCmd survives_gdbPacketH).dies_or_iff,
    (survives_gdbCmd survives_gdbPacketP).dies_or_iff, dies_or_of_survives others,
    dies_gdbCmd_iff, dies_gdbPacketVcont_iff]
  constructor
  · exact fun died => died.2.2
  · intro bad
    have refusesH : Refuses gdbPacketH text := refuses_of_badVcont bad (by decide)
    have refusesP : Refuses gdbPacketP text := refuses_of_badVcont bad (by decide)
    exact ⟨refusesH.bind _, refusesP.bind _, bad⟩

end Stage2

/-! ## From the packet to the command -/

/-- The assertion on the checksum. -/
theorem gdbIsValid_dies_iff (plain : PlainChar) (kind : GdbKind) (data : CString)
    (csum : List Byte) :
    (∃ abort, gdbIsValid plain ⟨kind, some data, csum⟩ = .error abort) ↔
      ¬ChecksumFits plain data := by
  by_cases fits : ChecksumFits plain data
  · obtain ⟨high, low, printed, -, -⟩ := printHex_of_fits fits
    have width : (printHex (calcCsum plain data)).length = gdbCsumLen := by
      rw [printed]
      rfl
    simp only [gdbIsValid, if_pos width]
    refine iff_of_false ?_ (not_not_intro fits)
    rintro ⟨_, ⟨⟩⟩
  · have wide : (printHex (calcCsum plain data)).length ≠ gdbCsumLen :=
      (printHex_of_unfit fits).ne'
    simp only [gdbIsValid, if_neg wide]
    exact iff_of_true ⟨_, rfl⟩ fits

theorem packetText_of_valid {plain : PlainChar} {data : CString} {csum : List Byte}
    (valid : gdbIsValid plain ⟨.packet, some data, csum⟩ = .ok true) :
    packetText plain ⟨.packet, some data, csum⟩ = decodedText plain data := by
  simp only [packetText, ne_eq, not_true, if_false, valid]
  rfl

theorem decodedText_dies_iff (plain : PlainChar) (data : CString) :
    (∃ abort, decodedText plain data = .error abort) ↔
      plain = .signed ∧ EmitsNegative data.bytes := by
  rw [← gdbDecodeRunlen_dies_iff, decodedText]
  rcases gdbDecodeRunlen plain data with abort | _ | decoded <;> simp

/-- What a packet must not be if parsing it is to end. -/
def Parsable (plain : PlainChar) (kind : GdbKind) (data : CString) (csum : List Byte) : Prop :=
  kind = .packet →
    ChecksumFits plain data ∧
      (gdbIsValid plain ⟨kind, some data, csum⟩ = .ok true →
        ¬(plain = .signed ∧ EmitsNegative data.bytes) ∧
          ∀ text, decodedText plain data = .ok (some text) → ¬Stage2.BadVcont text.bytes)

theorem gdbParseCmd_dies_of_valid {plain : PlainChar} {data : CString} {csum : List Byte}
    (valid : gdbIsValid plain ⟨.packet, some data, csum⟩ = .ok true) :
    (∃ abort, gdbParseCmd plain ⟨.packet, some data, csum⟩ = .error abort) ↔
      (plain = .signed ∧ EmitsNegative data.bytes) ∨
        ∃ text, decodedText plain data = .ok (some text) ∧ Stage2.BadVcont text.bytes := by
  rw [← decodedText_dies_iff, gdbParseCmd, packetText_of_valid valid]
  rcases decodedText plain data with abort | _ | text
  · simp
  · simp
  · simp only [Except.ok.injEq, Option.some.injEq, exists_eq_left', reduceCtorEq]
    rw [← Stage2.dies_gdbParseStage2_iff, Dies]
    rcases Stage2.gdbParseStage2.run text.bytes with abort | _ | pair <;> simp

/-- Parsing a packet ends with a command or without one exactly if its checksum fits and, once that
is right, the decoder meets no negative character and the text has no bad signal. The folds of
numbers never fail. -/
theorem gdbParseCmd_survives_iff (plain : PlainChar) (kind : GdbKind) (data : CString)
    (csum : List Byte) :
    ((∀ abort, gdbParseCmd plain ⟨kind, some data, csum⟩ ≠ .error abort) ↔
      Parsable plain kind data csum) ∧
    Stage2.mpcApply Stage2.hexdigits Stage2.gdbfAddress = Stage2.hex ∧
    Stage2.mpcApply Stage2.hexdigits Stage2.gdbfUhex = Stage2.hex ∧
    (do let value ← Stage2.hex; pure (value : Int) : Stage2.Mpc Int).or
      (Stage2.mpcApply (Stage2.string (str "-1")) Stage2.gdbfNegative) = Stage2.gdbHexid := by
  refine ⟨?_, Stage2.mpcApply_gdbfNumber, Stage2.mpcApply_gdbfNumber,
    Stage2.gdbHexid_eq.symm⟩
  rw [← not_exists_not]
  simp only [ne_eq, not_not]
  by_cases carries : kind = .packet
  · subst carries
    have checksum := gdbIsValid_dies_iff plain .packet data csum
    cases valid : gdbIsValid plain ⟨.packet, some data, csum⟩ with
    | error abort =>
        have unfit : ¬ChecksumFits plain data := checksum.mp ⟨abort, valid⟩
        have died : gdbParseCmd plain ⟨.packet, some data, csum⟩ = .error abort := by
          simp only [gdbParseCmd, packetText, ne_eq, not_true, if_false, valid]
        refine iff_of_false (not_not_intro ⟨abort, died⟩) fun parsable => ?_
        exact unfit (parsable rfl).1
    | ok accepted =>
        have fits : ChecksumFits plain data := by
          by_contra unfit
          obtain ⟨abort, died⟩ := checksum.mpr unfit
          rw [valid] at died
          cases died
        cases accepted with
        | false =>
            have refused : gdbParseCmd plain ⟨.packet, some data, csum⟩ = .ok none := by
              simp only [gdbParseCmd, packetText, ne_eq, not_true, if_false, valid]
            refine iff_of_true ?_ fun _ => ⟨fits, fun same => ?_⟩
            · rintro ⟨abort, died⟩
              rw [refused] at died
              cases died
            · rw [valid] at same
              cases same
        | true =>
            rw [gdbParseCmd_dies_of_valid valid, Parsable]
            simp only [valid, fits, true_and, forall_const, not_or, not_exists, not_and]
  · have refused : gdbParseCmd plain ⟨kind, some data, csum⟩ = .ok none := by
      simp only [gdbParseCmd, packetText, ne_eq, carries, not_false_iff, if_true]
    refine iff_of_true ?_ fun same => absurd same carries
    rintro ⟨abort, died⟩
    rw [refused] at died
    cases died

/-- A signal of three digits, with the right checksum. -/
theorem gdbParseCmd_three_digits (plain : PlainChar) :
    gdbParseCmd plain ⟨.packet, some ⟨str "vCont;C123", by decide⟩, str "1e"⟩ =
      .error .assertion := by
  cases plain <;> rfl

theorem not_gdbParseCmd_survives :
    ¬∀ (plain : PlainChar) (data : CString) (csum : List Byte), byte '#' ∉ data.bytes →
      csum.length = 2 → ∀ abort, gdbParseCmd plain ⟨.packet, some data, csum⟩ ≠ .error abort := by
  intro claim
  exact claim .signed _ (str "1e") (by decide) rfl .assertion (gdbParseCmd_three_digits .signed)

end SymexVP.Gdb
