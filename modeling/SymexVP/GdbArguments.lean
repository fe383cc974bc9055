import SymexVP.GdbCommands

/-!
# Arguments of the debugger's commands

Whether a command's handler reads the argument the parser has set. What a typed grammar
accepts has the right argument. The last alternative sets none, and reaches a handler that
reads one exactly if the text in front of the first colon is such a handler's name and no
typed grammar has accepted the whole text.
-/

namespace SymexVP.Gdb

open Grammar

/-- The names whose handlers read an argument. -/
def typedNames : List (List Byte) :=
  [str "H", str "m", str "M", str "p", str "T", str "vCont", str "z", str "Z"]

/-- The text in front of the first colon names a command with an argument, but none follows it.
Only behind `H` may a colon stand in a well-formed command: it is then the operation. -/
def Bare (text : List Byte) : Prop :=
  Stage2.cut text ∈ typedNames ∧
    ¬∃ id rest, text = str "H:" ++ rest ∧ Grammar.Accepts Stage2.gdbThreadId rest id []

namespace Stage2

/-! ## What the typed grammars set -/

theorem accepts_gdbCmd {cmd : Mpc GdbCommand} {text rest : List Byte} {command : GdbCommand}
    (accepted : Accepts (gdbCmd cmd) text command rest) :
    ∃ behind, Accepts cmd text command behind := by
  obtain ⟨parsed, behind, read, finished⟩ := accepts_bind_iff.mp accepted
  obtain ⟨_, _, _, returned⟩ := accepts_bind_iff.mp finished
  obtain ⟨rfl, -⟩ := accepts_pure_iff.mp returned
  exact ⟨behind, read⟩

theorem accepts_gdbCmd_of_end {cmd : Mpc GdbCommand} {text : List Byte} {command : GdbCommand}
    (accepts : Accepts cmd text command []) : Accepts (gdbCmd cmd) text command [] := by
  refine accepts_bind_iff.mpr ⟨command, [], accepts, ?_⟩
  refine accepts_bind_iff.mpr ⟨(), [], accepts_eoi_iff.mpr ⟨rfl, rfl⟩, ?_⟩
  exact accepts_pure_iff.mpr ⟨rfl, rfl⟩

theorem accepts_char {character token : Byte} {input rest : List Byte}
    (accepted : Accepts (char character) input token rest) : token = character := by
  obtain ⟨same, -⟩ := accepts_satisfy_iff.mp accepted
  exact of_decide_eq_true same

theorem accepts_string {name value : List Byte} {input rest : List Byte}
    (accepted : Accepts (string name) input value rest) : value = name := by
  induction name generalizing input value rest with
  | nil =>
      obtain ⟨rfl, -⟩ := accepts_pure_iff.mp accepted
      rfl
  | cons character name step =>
      obtain ⟨first, behind, read, accepted⟩ := accepts_bind_iff.mp accepted
      obtain ⟨others, _, follow, accepted⟩ := accepts_bind_iff.mp accepted
      obtain ⟨rfl, -⟩ := accepts_pure_iff.mp accepted
      rw [accepts_char read, step follow]

/-- A command whose handler reads the member that was set. -/
theorem agrees_of_reads {cmd : GdbCommand} (handler : Handler)
    (found : handlers.lookup cmd.name = some handler)
    (reads : handler.reads = some cmd.v.type) : Agrees cmd := by
  intro other member found' reads'
  rw [found] at found'
  cases found'
  rw [reads] at reads'
  exact Option.some.inj reads'

theorem agrees_gdbPacketH {text rest : List Byte} {cmd : GdbCommand}
    (accepted : Accepts gdbPacketH text cmd rest) : Agrees cmd := by
  obtain ⟨name, _, read, accepted⟩ := accepts_bind_iff.mp accepted
  obtain ⟨op, _, -, accepted⟩ := accepts_bind_iff.mp accepted
  obtain ⟨id, _, -, accepted⟩ := accepts_bind_iff.mp accepted
  obtain ⟨rfl, -⟩ := accepts_pure_iff.mp accepted
  cases accepts_char read
  exact agrees_of_reads .setThread rfl rfl

theorem agrees_gdbPacketP {text rest : List Byte} {cmd : GdbCommand}
    (accepted : Accepts gdbPacketP text cmd rest) : Agrees cmd := by
  obtain ⟨name, _, read, accepted⟩ := accepts_bind_iff.mp accepted
  obtain ⟨value, _, -, accepted⟩ := accepts_bind_iff.mp accepted
  obtain ⟨rfl, -⟩ := accepts_pure_iff.mp accepted
  cases accepts_char read
  exact agrees_of_reads .readRegister rfl rfl

theorem agrees_gdbPacketVcont {text rest : List Byte} {cmd : GdbCommand}
    (accepted : Accepts gdbPacketVcont text cmd rest) : Agrees cmd := by
  obtain ⟨name, _, read, accepted⟩ := accepts_bind_iff.mp accepted
  obtain ⟨actions, _, -, accepted⟩ := accepts_bind_iff.mp accepted
  obtain ⟨rfl, -⟩ := accepts_pure_iff.mp accepted
  cases accepts_string read
  exact agrees_of_reads .vCont rfl rfl

theorem agrees_gdbPacketm {text rest : List Byte} {cmd : GdbCommand}
    (accepted : Accepts gdbPacketm text cmd rest) : Agrees cmd := by
  obtain ⟨name, _, read, accepted⟩ := accepts_bind_iff.mp accepted
  obtain ⟨location, _, -, accepted⟩ := accepts_bind_iff.mp accepted
  obtain ⟨rfl, -⟩ := accepts_pure_iff.mp accepted
  cases accepts_char read
  exact agrees_of_reads .readMemory rfl rfl

theorem agrees_gdbPacketM {text rest : List Byte} {cmd : GdbCommand}
    (accepted : Accepts gdbPacketM text cmd rest) : Agrees cmd := by
  obtain ⟨name, _, read, accepted⟩ := accepts_bind_iff.mp accepted
  obtain ⟨location, _, -, accepted⟩ := accepts_bind_iff.mp accepted
  obtain ⟨_, _, -, accepted⟩ := accepts_bind_iff.mp accepted
  obtain ⟨data, _, -, accepted⟩ := accepts_bind_iff.mp accepted
  obtain ⟨rfl, -⟩ := accepts_pure_iff.mp accepted
  cases accepts_char read
  exact agrees_of_reads .writeMemory rfl rfl

theorem agrees_gdbPacketz {text rest : List Byte} {cmd : GdbCommand}
    (accepted : Accepts gdbPacketz text cmd rest) : Agrees cmd := by
  obtain ⟨name, _, read, accepted⟩ := accepts_bind_iff.mp accepted
  obtain ⟨type, _, -, accepted⟩ := accepts_bind_iff.mp accepted
  obtain ⟨_, _, -, accepted⟩ := accepts_bind_iff.mp accepted
  obtain ⟨address, _, -, accepted⟩ := accepts_bind_iff.mp accepted
  obtain ⟨_, _, -, accepted⟩ := accepts_bind_iff.mp accepted
  obtain ⟨kind, _, -, accepted⟩ := accepts_bind_iff.mp accepted
  obtain ⟨rfl, -⟩ := accepts_pure_iff.mp accepted
  rcases accepts_of_or read with read | ⟨-, read⟩
  · cases accepts_char read
    exact agrees_of_reads .removeBreakpoint rfl rfl
  · cases accepts_char read
    exact agrees_of_reads .setBreakpoint rfl rfl

theorem agrees_gdbPacketT {text rest : List Byte} {cmd : GdbCommand}
    (accepted : Accepts gdbPacketT text cmd rest) : Agrees cmd := by
  obtain ⟨name, _, read, accepted⟩ := accepts_bind_iff.mp accepted
  obtain ⟨thread, _, -, accepted⟩ := accepts_bind_iff.mp accepted
  obtain ⟨rfl, -⟩ := accepts_pure_iff.mp accepted
  cases accepts_char read
  exact agrees_of_reads .isAlive rfl rfl

/-- A command that one of the typed grammars accepts has the argument its handler reads. -/
theorem agrees_typed {text rest : List Byte} {cmd : GdbCommand}
    (accepted : Accepts typed text cmd rest) : Agrees cmd := by
  rcases accepts_of_or accepted with accepted | ⟨-, accepted⟩
  · exact agrees_gdbPacketH (accepts_gdbCmd accepted).choose_spec
  rcases accepts_of_or accepted with accepted | ⟨-, accepted⟩
  · exact agrees_gdbPacketP (accepts_gdbCmd accepted).choose_spec
  rcases accepts_of_or accepted with accepted | ⟨-, accepted⟩
  · exact agrees_gdbPacketVcont (accepts_gdbCmd accepted).choose_spec
  rcases accepts_of_or accepted with accepted | ⟨-, accepted⟩
  · exact agrees_gdbPacketm (accepts_gdbCmd accepted).choose_spec
  rcases accepts_of_or accepted with accepted | ⟨-, accepted⟩
  · exact agrees_gdbPacketM (accepts_gdbCmd accepted).choose_spec
  rcases accepts_of_or accepted with accepted | ⟨-, accepted⟩
  · exact agrees_gdbPacketz (accepts_gdbCmd accepted).choose_spec
  · exact agrees_gdbPacketT (accepts_gdbCmd accepted).choose_spec

/-! ## Names without an argument -/

/-- The text ends here or a colon follows. -/
def Ended (tail : List Byte) : Prop := ∀ character ∈ tail.head?, character = byte ':'

theorem typedNames_length : ∀ name ∈ typedNames, name.length = 1 ∨ name = str "vCont" := by
  decide

theorem cut_cons {character : Byte} (inner : character ≠ byte ':') (tail : List Byte) :
    cut (character :: tail) = character :: cut tail := by
  simp [cut, inner]

theorem ended_of_cut_eq_nil {tail : List Byte} (empty : cut tail = []) : Ended tail := by
  cases tail with
  | nil => simp [Ended]
  | cons next rest =>
      by_cases colon : next = byte ':'
      · simp [Ended, colon]
      · rw [cut_cons colon] at empty
        cases empty

/-- Nothing stands behind the first character of a typed command's name, but for `vCont`. -/
theorem ended_of_cut {character : Byte} {tail : List Byte}
    (named : cut (character :: tail) ∈ typedNames) (inner : character ≠ byte ':')
    (single : character ≠ byte 'v') : Ended tail := by
  rw [cut_cons inner] at named
  rcases typedNames_length _ named with short | long
  · exact ended_of_cut_eq_nil (List.length_eq_zero_iff.mp (Nat.succ.inj short))
  · exact absurd (List.cons.inj long).1 single

/-- A text whose name is `vCont` has nothing but a colon behind it. -/
theorem split_of_cut {name text : List Byte} (cutAt : cut text = name) :
    ∃ tail, text = name ++ tail ∧ Ended tail := by
  refine ⟨text.dropWhile (· != byte ':'), ?_, ?_⟩
  · rw [← cutAt]
    exact List.takeWhile_append_dropWhile.symm
  · intro character first
    have stopped := List.head?_dropWhile_not (· != byte ':') text
    rw [Option.mem_def.mp first] at stopped
    simpa using stopped

theorem Ended.refuses_satisfy {tail : List Byte} {accepts : Byte → Bool} (ended : Ended tail)
    (colon : accepts (byte ':') = false) : Refuses (satisfy accepts : Mpc Byte) tail := by
  refine Grammar.refuses_satisfy ?_
  intro character first
  rw [ended character first]
  exact colon

theorem Ended.refuses_hex {tail : List Byte} (ended : Ended tail) : Refuses hex tail :=
  ((ended.refuses_satisfy (by decide)).many1).bind _

theorem Ended.refuses_gdbMemory {tail : List Byte} (ended : Ended tail) :
    Refuses gdbMemory tail := ended.refuses_hex.bind _

theorem Ended.refuses_gdbHexid {tail : List Byte} (ended : Ended tail) :
    Refuses gdbHexid tail :=
  (ended.refuses_hex.bind _).or ((ended.refuses_satisfy (by decide)).bind _)

theorem Ended.refuses_gdbThreadId {tail : List Byte} (ended : Ended tail) :
    Refuses gdbThreadId tail := by
  have absent : Refuses (do
      let _ ← char (byte 'p')
      let pid ← gdbHexid
      let _ ← char (byte '.')
      pure pid : Mpc Int) tail := (ended.refuses_satisfy (by decide)).bind _
  exact absent.maybe.refuses_bind (ended.refuses_gdbHexid.bind _)

/-- A grammar that starts with a character refuses a bare name if what follows does. -/
theorem refuses_char_bind {α : Type} {character : Byte} {next : Byte → Mpc α} {text : List Byte}
    (named : cut text ∈ typedNames) (inner : character ≠ byte ':')
    (single : character ≠ byte 'v')
    (refuses : ∀ tail, text = character :: tail → Ended tail → Refuses (next character) tail) :
    Refuses (char character >>= next) text := by
  refine refuses_satisfy_bind ?_
  rintro token rest rfl same
  cases of_decide_eq_true same
  exact refuses rest rfl (ended_of_cut named inner single)

theorem refuses_gdbPacketP {text : List Byte} (named : cut text ∈ typedNames) :
    Refuses gdbPacketP text :=
  refuses_char_bind named (by decide) (by decide) fun _ _ ended => ended.refuses_hex.bind _

theorem refuses_gdbPacketm {text : List Byte} (named : cut text ∈ typedNames) :
    Refuses gdbPacketm text :=
  refuses_char_bind named (by decide) (by decide) fun _ _ ended => ended.refuses_gdbMemory.bind _

theorem refuses_gdbPacketM {text : List Byte} (named : cut text ∈ typedNames) :
    Refuses gdbPacketM text :=
  refuses_char_bind named (by decide) (by decide) fun _ _ ended => ended.refuses_gdbMemory.bind _

theorem refuses_gdbPacketT {text : List Byte} (named : cut text ∈ typedNames) :
    Refuses gdbPacketT text :=
  refuses_char_bind named (by decide) (by decide) fun _ _ ended => ended.refuses_gdbThreadId.bind _

theorem refuses_gdbPacketz {text : List Byte} (named : cut text ∈ typedNames) :
    Refuses gdbPacketz text := by
  refine Refuses.or_bind ?_ ?_
  · exact refuses_char_bind named (by decide) (by decide) fun _ _ ended =>
      (ended.refuses_satisfy (by decide)).bind _
  · exact refuses_char_bind named (by decide) (by decide) fun _ _ ended =>
      (ended.refuses_satisfy (by decide)).bind _

theorem accepts_string_append (name tail : List Byte) :
    Accepts (string name) (name ++ tail) name tail := by
  induction name with
  | nil => exact accepts_pure_iff.mpr ⟨rfl, rfl⟩
  | cons character name step =>
      refine accepts_bind_iff.mpr ⟨character, name ++ tail, ?_, ?_⟩
      · exact accepts_satisfy_iff.mpr ⟨by simp, rfl⟩
      · exact accepts_bind_iff.mpr ⟨name, tail, step, accepts_pure_iff.mpr ⟨rfl, rfl⟩⟩

theorem refuses_gdbPacketVcont {text : List Byte} (named : cut text ∈ typedNames) :
    Refuses gdbPacketVcont text := by
  rcases typedNames_length _ named with short | long
  · -- No name of one character is a `v`.
    have refused : Refuses (string (str "vCont")) text := by
      refine refuses_satisfy_bind ?_
      rintro token rest rfl same
      cases of_decide_eq_true same
      rw [cut_cons (by decide)] at short named
      rw [List.length_eq_zero_iff.mp (Nat.succ.inj short)] at named
      exact absurd named (by decide)
    exact refused.bind _
  · obtain ⟨tail, rfl, ended⟩ := split_of_cut long
    refine (accepts_string_append _ _).refuses_bind ?_
    exact (Refuses.many1 ((ended.refuses_satisfy (by decide)).bind _)).bind _

theorem survives_hex : Survives hex :=
  (survives_satisfy _).many1.bind fun _ => survives_pure _

theorem survives_gdbHexid : Survives gdbHexid := by
  refine Survives.or (survives_hex.bind fun _ => survives_pure _) ?_
  exact (survives_satisfy _).bind fun _ => (survives_satisfy _).bind fun _ => survives_pure _

theorem survives_gdbThreadId : Survives gdbThreadId := by
  refine Survives.bind (Survives.maybe ?_) fun pid => survives_gdbHexid.bind fun _ => survives_pure _
  exact (survives_satisfy _).bind fun _ => survives_gdbHexid.bind fun _ =>
    (survives_satisfy _).bind fun _ => survives_pure _

/-- `gdb_packet_h` reads any character as its operation, and a colon is one. -/
theorem accepts_gdbPacketH {rest behind : List Byte} {id : GdbThread}
    (accepts : Accepts gdbThreadId rest id behind) :
    Accepts gdbPacketH (str "H:" ++ rest) ⟨str "H", .hcmd (byte ':') id⟩ behind := by
  refine accepts_bind_iff.mpr ⟨byte 'H', byte ':' :: rest, accepts_satisfy_iff.mpr ⟨rfl, rfl⟩, ?_⟩
  refine accepts_bind_iff.mpr ⟨byte ':', rest, accepts_satisfy_iff.mpr ⟨rfl, rfl⟩, ?_⟩
  exact accepts_bind_iff.mpr ⟨id, behind, accepts, accepts_pure_iff.mpr ⟨rfl, rfl⟩⟩

theorem refuses_gdbCmd_gdbPacketH {text : List Byte} (bare : Bare text) :
    Refuses (gdbCmd gdbPacketH) text := by
  obtain ⟨named, unread⟩ := bare
  by_cases heads : ∃ rest, text = str "H:" ++ rest
  · obtain ⟨rest, rfl⟩ := heads
    rcases survives_gdbThreadId.refuses_or_accepts rest with refuses | ⟨id, behind, accepts⟩
    · refine Refuses.bind ?_ _
      refine refuses_char_bind named (by decide) (by decide) ?_
      rintro tail tails -
      cases tails
      refine refuses_satisfy_bind ?_
      rintro token others split -
      cases split
      exact refuses.bind _
    · refine (accepts_gdbPacketH accepts).refuses_bind (Refuses.bind ?_ _)
      have more : behind ≠ [] := by
        rintro rfl
        exact unread ⟨id, rest, rfl, accepts⟩
      simp [Refuses, eoi, more]
  · refine Refuses.bind ?_ _
    refine refuses_char_bind named (by decide) (by decide) ?_
    intro tail tails ended
    refine refuses_satisfy_bind ?_
    rintro token others rfl -
    cases ended token rfl
    exact absurd ⟨others, tails⟩ heads

theorem refuses_typed {text : List Byte} (bare : Bare text) : Refuses typed text := by
  have named := bare.1
  refine (refuses_gdbCmd_gdbPacketH bare).or ?_
  refine ((refuses_gdbPacketP named).bind _).or ?_
  refine ((refuses_gdbPacketVcont named).bind _).or ?_
  refine ((refuses_gdbPacketm named).bind _).or ?_
  refine ((refuses_gdbPacketM named).bind _).or ?_
  exact ((refuses_gdbPacketz named).bind _).or ((refuses_gdbPacketT named).bind _)

/-! ## The last alternative -/

theorem accepts_gdbAny {text : List Byte} (nonempty : text ≠ []) :
    Accepts gdbAny text ⟨cut text, .none⟩ [] :=
  accepts_bind_iff.mpr
    ⟨text, [], accepts_many1_satisfy nonempty, accepts_pure_iff.mpr ⟨rfl, rfl⟩⟩

theorem nonempty_of_gdbAny {text rest : List Byte} {cmd : GdbCommand}
    (accepted : Accepts gdbAny text cmd rest) : text ≠ [] := by
  rintro rfl
  cases accepted

/-- The command of a text that no typed grammar accepts. -/
theorem gdbAny_eq {text rest : List Byte} {cmd : GdbCommand}
    (accepted : Accepts gdbAny text cmd rest) : cmd = ⟨cut text, .none⟩ :=
  (accepted.unique (accepts_gdbAny (nonempty_of_gdbAny accepted))).1

theorem reads_of_typedNames : ∀ name ∈ typedNames,
    ((handlers.lookup name).bind Handler.reads).any (· ≠ .none) = true := by decide

theorem typedNames_of_reads : ∀ entry ∈ handlers, entry.2.reads ≠ none → entry.1 ∈ typedNames := by
  decide

/-- Without an argument a command agrees with its handler if the handler reads none. -/
theorem agrees_untyped_iff (name : List Byte) : Agrees ⟨name, .none⟩ ↔ name ∉ typedNames := by
  constructor
  · intro agrees named
    have reads := reads_of_typedNames name named
    simp only [Option.any_eq_true, Option.bind_eq_some_iff] at reads
    obtain ⟨member, ⟨handler, found, reads⟩, typed⟩ := reads
    have untyped : ArgumentType.none = member := agrees handler member found reads
    exact of_decide_eq_true typed untyped.symm
  · intro unnamed handler member found reads
    refine absurd (typedNames_of_reads (name, handler) ?_ ?_) unnamed
    · obtain ⟨before, behind, entries, -⟩ := List.lookup_eq_some_iff.mp found
      rw [entries]
      exact List.mem_append_right before List.mem_cons_self
    · rw [reads]
      exact Option.some_ne_none member

end Stage2

/-- A command agrees with its handler's argument unless the text is a bare typed name. -/
theorem agrees_of_accepts_iff (text : List Byte) :
    (∀ cmd rest, Accepts Stage2.gdbParseStage2 text cmd rest → Agrees cmd) ↔ ¬Bare text := by
  constructor
  · intro agrees bare
    have nonempty : text ≠ [] := by
      rintro rfl
      exact absurd bare.1 (by decide)
    have accepted : Accepts Stage2.gdbParseStage2 text ⟨Stage2.cut text, .none⟩ [] :=
      (Stage2.refuses_typed bare).accepts_or (Stage2.accepts_gdbAny nonempty)
    exact (Stage2.agrees_untyped_iff _).mp (agrees _ _ accepted) bare.1
  · intro dressed cmd rest accepted
    rcases accepts_of_or accepted with accepted | ⟨refused, accepted⟩
    · exact Stage2.agrees_typed accepted
    · rw [Stage2.gdbAny_eq accepted, Stage2.agrees_untyped_iff]
      intro named
      refine dressed ⟨named, ?_⟩
      rintro ⟨id, behind, rfl, thread⟩
      have typed : Accepts Stage2.typed _ _ [] :=
        (Stage2.accepts_gdbCmd_of_end (Stage2.accepts_gdbPacketH thread)).or _
      rw [Accepts, refused] at typed
      cases typed

theorem gdbParseCmd_eq_some_iff {plain : PlainChar} {pkt : GdbPacket} {cmd : GdbCommand} :
    gdbParseCmd plain pkt = .ok (some cmd) ↔ ∃ text rest,
      packetText plain pkt = .ok (some text) ∧ Accepts Stage2.gdbParseStage2 text.bytes cmd rest := by
  simp only [gdbParseCmd, Accepts]
  cases packetText plain pkt with
  | error abort => simp
  | ok found =>
      cases found with
      | none => simp
      | some text =>
          cases ran : Stage2.gdbParseStage2.run text.bytes with
          | error abort => simp [ran]
          | ok accepted =>
              cases accepted with
              | none => simp [ran]
              | some pair =>
                  obtain ⟨parsed, rest⟩ := pair
                  simp [ran]

/-- The handler of a parsed command reads the member of the union the parser has set, unless
the text is the name of a command with an argument and none follows. -/
theorem agrees_iff_not_bare (plain : PlainChar) (pkt : GdbPacket) :
    (∀ cmd, gdbParseCmd plain pkt = .ok (some cmd) → Agrees cmd) ↔
      ∀ text, packetText plain pkt = .ok (some text) → ¬Bare text.bytes := by
  constructor
  · intro agrees text decoded
    refine (agrees_of_accepts_iff text.bytes).mp ?_
    intro cmd rest accepted
    exact agrees cmd (gdbParseCmd_eq_some_iff.mpr ⟨text, rest, decoded, accepted⟩)
  · intro dressed cmd parsed
    obtain ⟨text, rest, decoded, accepted⟩ := gdbParseCmd_eq_some_iff.mp parsed
    exact (agrees_of_accepts_iff text.bytes).mpr (dressed text decoded) cmd rest accepted

/-- The packet `$m#6d`: its checksum is right, and it reads memory at whatever the union holds. -/
theorem disagrees_bare_readMemory :
    gdbParseCmd .signed ⟨.packet, some ⟨str "m", by decide⟩, str "6d"⟩ =
        .ok (some ⟨str "m", .none⟩) ∧
      handlers.lookup (str "m") = some .readMemory ∧ ¬Agrees ⟨str "m", .none⟩ := by
  refine ⟨rfl, rfl, ?_⟩
  intro agrees
  cases agrees .readMemory .memory rfl rfl

end SymexVP.Gdb
