import SymexVP.ServedAccesses
import SymexVP.CompressedExpansion
import SymexVP.AssertionRuns

/-!
# Programs run as the manual says

The manual's machine fetches its own instructions: words and half words of its byte memory.
A program whose instructions and data lie in the memory runs on it from one state to the
next, and nothing of the simulated hart is mentioned in this. From reset on the hart goes
through the same states, instruction by instruction. No interrupt is taken, since the
program does not enable one, and no instruction traps, since the memory serves every
access.
-/

namespace SymexVP

/-! ## The manual's machine -/

namespace Spec

/-- The instruction at the program counter and the number of its bytes. Hints, reserved words and
the instructions of the floating-point extensions are none. -/
def State.instruction (s : State) : Option (Instr × BitVec 32) :=
  if Compressed.op (s.loadHalf s.pc) = 3 then (decode (s.loadWord s.pc)).map fun i => (i, 4)
  else
    match Compressed.meaning (s.loadHalf s.pc) with
    | .instr i => some (i, 2)
    | _ => none

/-- One instruction of the machine, which lies in the memory as what it accesses does. The hart
always fetches a whole word. -/
inductive Next (P : Platform) (port : Port) (s t : State) : Prop
  | intro {i : Instr} {length : BitVec 32} (lies : port.Serves P s.pc 4)
      (fetched : s.instruction = some (i, length)) (served : Served P port s i)
      (executes : execute length s i = some t)

/-- The machine runs from one state to another through the instructions at these addresses. -/
inductive Runs (P : Platform) (port : Port) : State → List (BitVec 32) → State → Prop
  | stop (s : State) : Runs P port s [] s
  | next {s t u : State} {pcs : List (BitVec 32)} (next : Next P port s t)
      (rest : Runs P port t pcs u) : Runs P port s (s.pc :: pcs) u

/-! ## What the decoder makes of an instruction -/

theorem meaning_of_addHint {h : BitVec 16} (hint : Instruction.AddHint h) :
    Compressed.meaning h = .hint := by
  obtain ⟨two, f, bit, destination, source⟩ := hint
  simp +decide [Compressed.meaning, two, Compressed.quadrant2, f, bit, destination]
  exact source

theorem meaning_of_wordOperation {h : BitVec 16} (word : Instruction.WordOperation h) :
    Compressed.meaning h = .reserved := by
  obtain ⟨one, f, high, bit, -⟩ := word
  simp +decide [Compressed.meaning, one, Compressed.quadrant1, f, Compressed.quadrant1Arith, high,
    bit]

theorem setWidth_loadWord (s : State) (address : BitVec 32) :
    (s.loadWord address).setWidth 16 = s.loadHalf address := by
  refine @Clover.eq_of_byteOf_eq 2 _ _ fun index inside => ?_
  rw [byteOf_loadHalf s address inside, ← byteOf_loadWord s address (by omega)]
  ext bit
  simp only [Clover.byteOf, BitVec.getElem_extractLsb', BitVec.getLsbD_setWidth]
  have below : 8 * index + bit < 16 := by omega
  simp [below]

/-- The two instructions do the same, and to the same data. -/
structure Alike (i j : Instr) : Prop where
  execute : ∀ length s, execute length s i = execute length s j
  address : ∀ s, address s i = address s j
  numBytes : i.numBytes = j.numBytes

theorem Alike.refl (i : Instr) : Alike i i := ⟨fun _ _ => rfl, fun _ => rfl, rfl⟩

theorem alike_nop : Alike (.opImm .addi 0 0 0) (.op .add 0 0 0) where
  execute length s :=
    (noEffect_opImm_zero 0 0 .addi length s).trans (noEffect_op_zero 0 0 .add length s).symm
  address _ := rfl
  numBytes := rfl

end Spec

namespace Instruction

/-- The decoder names and packs an instruction of this length. -/
structure Unpacks (word : Instruction) (i : Spec.Instr) (length : BitVec 32) : Prop where
  op : Iss.decodedOpcode word = mnemonic i
  encodes : Spec.Encodes (Iss.decoded word).2 i
  length : (if word.isCompressed then 2 else 4) = length

theorem unpacks_whole {word : Instruction} {i : Spec.Instr} (decodes : Spec.decode word = some i) :
    Unpacks word i 4 := by
  have encodes := Spec.encodes_of_decode decodes
  have whole : ¬word.isCompressed = true := Bool.eq_false_iff.mp (not_isCompressed_of_encodes encodes)
  refine ⟨?_, ?_, if_neg whole⟩
  · rw [Iss.decodedOpcode, Iss.decoded, if_neg whole]
    exact decodeNormal_of_encodes encodes
  · rw [Iss.decoded, if_neg whole]
    exact encodes

theorem unpacks_compressed {word : Instruction} {i : Spec.Instr} {op : Opcode.Mapping}
    {expanded : Instruction} (compressed : word.isCompressed = true)
    (expands : decodeAndExpandCompressed .rv32 word = .ok (op, expanded)) (named : op = mnemonic i)
    (packed : Spec.decode expanded = some i) : Unpacks word i 2 := by
  have result : Iss.decoded word = (op, expanded) := by
    rw [Iss.decoded, if_pos compressed, expands]
  refine ⟨?_, ?_, if_pos compressed⟩
  · rw [Iss.decodedOpcode, result]
    exact named
  · rw [result]
    exact Spec.encodes_of_decode packed

theorem unpacks_nop {word : Instruction} (nop : word.low = 1) :
    Unpacks word (.op .add 0 0 0) 2 := by
  have classified : decodeCompressed .rv32 word = .ok .cNop := by
    rw [@decodeCompressed_congr .rv32 word 1 nop]
    decide
  have compressed : word.isCompressed = true := by
    rw [isCompressed, quadrant_eq, nop]
    decide
  exact unpacks_compressed compressed (decodeAndExpandCompressed_eq_ok_iff.mpr ⟨_, classified, rfl⟩)
    rfl (by decide)

/-- A word is decoded to the instruction the manual finds in it. `C.NOP` becomes another
instruction that does as little. -/
theorem unpacks_of_instruction {s : Spec.State} {i : Spec.Instr} {length : BitVec 32}
    (fetched : s.instruction = some (i, length)) :
    ∃ j, Spec.Alike i j ∧ Unpacks (s.loadWord s.pc) j length := by
  have low : Instruction.low (s.loadWord s.pc) = s.loadHalf s.pc := Spec.setWidth_loadWord s s.pc
  unfold Spec.State.instruction at fetched
  rw [← low] at fetched
  generalize s.loadWord s.pc = word at fetched ⊢
  split at fetched
  · obtain ⟨_, decodes, ⟨⟩⟩ := Option.map_eq_some_iff.mp fetched
    exact ⟨i, .refl i, unpacks_whole decodes⟩
  · next short =>
      have compressed : Instruction.isCompressed word = true := by
        rw [Instruction.isCompressed, quadrant_eq, decide_eq_true_iff]
        revert short
        generalize Spec.Compressed.op (Instruction.low word) = quadrant
        revert quadrant
        decide
      split at fetched
      · next meaning =>
          cases fetched
          by_cases nop : Instruction.low word = 1
          · rw [nop] at meaning
            cases meaning
            exact ⟨_, Spec.alike_nop, unpacks_nop nop⟩
          · have regular : ¬Deviates (Instruction.low word) := by
              rintro (is | hint | other)
              · exact nop is
              · rw [Spec.meaning_of_addHint hint] at meaning
                cases meaning
              · rw [Spec.meaning_of_wordOperation other] at meaning
                cases meaning
            obtain ⟨op, expanded, expands, -, conforms⟩ :=
              followsManual_of_not_deviates word compressed regular
            rw [meaning] at conforms
            exact ⟨i, .refl i, unpacks_compressed compressed expands conforms.1 conforms.2⟩
      · cases fetched

end Instruction

namespace Iss

open Exec Opcode Board MemoryInterface

variable {P : Platform} {port : Port} (input : P.clover.terms.Assignment)

/-! ## The fetch -/

section Fetch

variable (lawful : P.clover.Lawful)

include lawful

/-- The word at an address of the memory is what the manual loads from there. -/
theorem load_eq_loadWord {s : Spec.State} {memory : P.clover.Memory} {address : BitVec 32}
    (serves : port.Serves P address 4) (shows : port.bytes memory = s.mem) :
    (P.clover.load memory (port.offset address) 4).concrete = s.loadWord address := by
  refine @Clover.eq_of_byteOf_eq 4 _ _ fun index inside => ?_
  rw [byteOf_load lawful memory serves.holds serves.whole inside, shows]
  exact (Spec.byteOf_loadWord s address inside).symm

theorem loadInstr_serves {core : Core} {board : Board P} {s : Spec.State} {pc : BitVec 32}
    (serves : port.Serves P pc 4) (bare : Untranslating P core .fetch)
    (available : board.Available core.hartId) (shows : port.bytes board.memory = s.mem) :
    Settles (fun _ => False)
      (fun word after => word = s.loadWord pc ∧
        after = { board with localTime := board.localTime + 10 })
      (loadInstr (bus core input) core pc) board := by
  rw [loadInstr, v2p_bare bare]
  refine Settles.bind (Settles.pure (Settles.bind (Settles.bind ?_)))
  refine Settles.of_run (waitForAccessRights_run available) (Settles.bind ?_)
  let request : Payload P.clover.terms :=
    ⟨.read, pc.setWidth 64, List.replicate 4 0, .ok, none⟩
  have fresh : request.response = .ok := rfl
  have served : port.Serves P (.BVC pc : ConcolicValue P.clover.terms 32).concrete 4 := serves
  have answered : Settles (fun fault => fault.IsTrap ∧ False) _
      (doTransaction (bus core input) request) board :=
    (transaction_settles input served.deep served.holds fresh rfl).and
      (transaction_serves input served fresh rfl List.length_replicate)
  refine answered.mono ?_ fun _ thrown => thrown.2
  rintro answer _ ⟨⟨rfl, rfl⟩, -⟩
  refine Settles.bind (Settles.emit (Settles.pure (Settles.pure ⟨?_, rfl⟩)))
  refine (littleEndian_toBytes (P.clover.load board.memory (port.offset pc) 4)).trans ?_
  exact load_eq_loadWord lawful serves shows

end Fetch

/-! ## The end of a step -/

theorem session_getHart : Steps (Unchanged session) (getHart : IssM P (Hart P.clover.terms)) :=
  Steps.bind Steps.get fun _ => Steps.pure _

theorem session_memory {α : Type} {body : Core → MemM P α}
    (kept : ∀ core, Steps (Unchanged Board.shallExit) (body core)) :
    Steps (Unchanged session) (memory body) := by
  refine Steps.bind session_getHart fun hart state => ?_
  exact congrArg (Session.mk _ _ _) (kept hart.core state.board)

theorem session_performanceAndSyncUpdate (executedOp : Mapping) :
    Steps (Unchanged session) (performanceAndSyncUpdate executedOp : IssM P Unit) := by
  refine Steps.bind (Steps.modify fun _ => rfl) fun _ => Steps.bind session_getHart fun hart => ?_
  refine Steps.bind (Steps.when fun _ => ?_) fun _ => ?_
  · refine Steps.bind (Steps.modify fun _ => rfl) fun _ => Steps.bind session_getHart fun _ => ?_
    refine Steps.bind (Steps.require _ _) fun _ => Steps.when fun _ => ?_
    refine Steps.bind (Steps.modify fun _ => rfl) fun _ => session_memory fun _ => ?_
    refine Steps.modify fun board => ?_
    show (ite _ _ _ : Board P).shallExit = _
    split <;> rfl
  · refine Steps.bind (Steps.modify fun state => ?_) fun _ => ?_
    · show session { state with hart := ite _ _ _ } = session state
      split <;> rfl
    refine Steps.bind session_getHart fun _ => session_memory fun _ => ?_
    refine Steps.bind (Steps.modify fun _ => rfl) fun _ => Steps.bind Steps.get fun _ => ?_
    exact Steps.when fun _ => Steps.modify fun _ => rfl

/-- Without an exit request a step ends as it went on. -/
theorem session_finishStep {state : State P} (stays : state.board.shallExit = false) :
    session ((finishStep).run state).state = session state := by
  have kept : Meets (fun after : State P => session after = session state) (fun _ => True)
      (fun _ => True) finishStep := by
    have written : Steps (Unchanged session)
        (modifyHart fun hart => hart.write 0 ⟨32, .BVC 0⟩ : IssM P Unit) :=
      Steps.modify fun before => session_write before _ _
    refine Meets.bind (written.meets _) fun _ _ => Meets.bind Meets.get fun reached same => ?_
    have remains : ¬reached.board.shallExit = true := by
      rw [show reached.board.shallExit = state.board.shallExit from congrArg Session.shallExit same,
        stays]
      exact Bool.false_ne_true
    refine Meets.bind (Meets.when fun asked => absurd asked remains) fun _ _ => ?_
    refine Meets.bind (session_getHart.meets _) fun hart _ => ?_
    exact (session_performanceAndSyncUpdate hart.op).meets _
  exact (kept state rfl).1

/-! ## Steps -/

/-- The program alone decides what the hart does: no interrupt is enabled, no address is
translated, no debugger waits for it and nobody has asked it to stop. -/
structure Undisturbed (state : State P) : Prop where
  sound : SoundState state
  zero : ZeroIsZero state
  owned : Owned state
  runnable : state.hart.status = .runnable
  undebugged : state.hart.debugMode = false
  stays : state.board.shallExit = false
  calm : state.hart.csrs.mie = 0
  bare : ∀ type, Untranslating P state.hart.core type

theorem undisturbed_of_reset {start : State P} (reset : Reset start)
    (even : start.hart.pc &&& 1 = 0) : Undisturbed start := by
  obtain ⟨sound, zero⟩ := sound_reset reset even
  cases reset
  have untranslated : Satp.mode.get (0 : BitVec 32) = 0 := by decide
  exact ⟨sound, zero, .inl rfl, rfl, rfl, rfl, rfl, fun _ _ => .inl untranslated⟩

/-- No instruction of the manual writes a control and status register. -/
theorem quiet_mnemonic (i : Spec.Instr) :
    Quiet (execute input (Instruction.mnemonic i)) := by
  refine quiet_execute input ?_ ?_
  · cases i with
    | branch kind | load kind | store kind | opImm kind | shift kind | op kind | amo kind =>
        cases kind <;> rfl
    | _ => rfl
  · cases i with
    | branch kind | load kind | store kind | opImm kind | shift kind | op kind | amo kind =>
        cases kind <;> rintro ⟨⟩
    | _ => rintro ⟨⟩

section Step

variable {state : State P} (undisturbed : Undisturbed state)

include undisturbed

theorem fetch_serves (lawful : P.clover.Lawful) (lies : port.Serves P state.hart.pc 4) :
    FetchReturns input (begun state) ((architectural port state).loadWord state.hart.pc) ∧
      ((fetch input).run (begun state)).state.board =
        { state.board with localTime := state.board.localTime + 10 } := by
  obtain ⟨result, board⟩ := fetch_run input (isEven_iff_and.mp undisturbed.sound.2.pc)
  have loaded := loadInstr_serves input lawful (s := architectural port state) lies
    (undisturbed.bare .fetch) undisturbed.owned rfl
  rw [board]
  unfold Settles at loaded
  generalize (loadInstr (bus state.hart.core input) state.hart.core state.hart.pc).run state.board =
    outcome at loaded result ⊢
  obtain ⟨ended, after, log⟩ := outcome
  cases ended with
  | error fault => exact loaded.elim
  | ok word =>
      obtain ⟨rfl, rfl⟩ := loaded
      refine ⟨?_, rfl⟩
      rw [fetched] at result
      rw [FetchReturns]
      generalize (fetch input).run (begun state) = fetching at result ⊢
      obtain ⟨ended, reached, log⟩ := fetching
      cases ended with
      | error fault => cases result
      | ok _ => exact ⟨rfl, Except.ok.inj result⟩

variable (lawful : P.clover.Lawful)

include lawful

/-- The instruction is executed, and leaves the hart undisturbed. -/
theorem executed_next {t : Spec.State} (next : Spec.Next P port (architectural port state) t) :
    (executed input state).result = .ok () ∧
      Attains port state t (executed input state).state ∧
      session (executed input state).state = session (begun state) ∧
      control (executed input state).state = control state := by
  obtain @⟨i, length, lies, instruction, served, executes⟩ := next
  obtain ⟨fetched, board⟩ := fetch_serves input undisturbed lawful lies
  obtain ⟨j, alike, unpacks⟩ : ∃ j, Spec.Alike i j ∧
      Instruction.Unpacks ((architectural port state).loadWord state.hart.pc) j length :=
    Instruction.unpacks_of_instruction instruction
  generalize (architectural port state).loadWord state.hart.pc = word at fetched unpacks
  have entered : Entered port length (architectural port state) (decoded word).2
      (decodedState input (begun state) word) := by
    refine ⟨rfl, fun _ => rfl, undisturbed.zero, rfl, ?_, undisturbed.sound.2.pc, ?_, lies.deep,
      undisturbed.bare .store, available_decodedState input undisturbed.owned word⟩
    · rw [← unpacks.length]
      rfl
    · show port.bytes ((fetch input).run (begun state)).state.board.memory = _
      rw [board]
      rfl
  have returns : j ≠ .ebreak := by
    rintro rfl
    rw [alike.execute] at executes
    cases executes
  have serves : Spec.Served P port (architectural port state) j := by
    intro address accessed
    rw [← alike.numBytes]
    rw [← alike.address] at accessed
    exact served address accessed
  obtain ⟨u, manual, refines⟩ := execute_refines input entered lawful unpacks.encodes returns
    fun address accessed => (serves address accessed).2.holds
  obtain rfl : u = t := by
    rw [alike.execute, manual] at executes
    exact Option.some.inj executes
  have proceeds := execute_proceeds input entered lawful unpacks.encodes returns serves
  have quiet : control ((execute input (Instruction.mnemonic j)).run
      (decodedState input (begun state) word)).state = control state :=
    quiet_mnemonic input j _
  rw [executed, execStep_run input fetched, unpacks.op]
  have both := refines.and proceeds
  unfold Settles at both
  dsimp only
  generalize (execute input (Instruction.mnemonic j)).run (decodedState input (begun state) word) =
    outcome at both quiet ⊢
  obtain ⟨ended, after, log⟩ := outcome
  cases ended with
  | error fault => exact both.2.elim
  | ok _ =>
      obtain ⟨⟨regs, pc, mem, counter⟩, same⟩ := both
      refine ⟨rfl, ⟨regs, pc, mem, counter⟩, same.trans ?_, quiet⟩
      have exit := congrArg Board.shallExit board
      exact congrArg (Session.mk _ _ _) exit

/-- A step of the hart is one of the manual's machine. -/
theorem runStep_next {t : Spec.State} (next : Spec.Next P port (architectural port state) t) :
    ((runStep input).run state).result = .ok .nothing ∧
      architectural port ((runStep input).run state).state = t ∧
      ((runStep input).run state).state.hart.lastPc = state.hart.pc ∧
      Undisturbed ((runStep input).run state).state := by
  obtain ⟨returned, attains, same, quiet⟩ := executed_next input undisturbed lawful next
  have runs : Runs state := by
    refine ⟨undisturbed.zero, ?_⟩
    rintro ⟨debugged, -⟩
    rw [undisturbed.undebugged] at debugged
    cases debugged
  have calm : (executed input state).state.hart.csrs.mie = 0 :=
    (congrArg (fun control => control.csrs.mie) quiet).trans undisturbed.calm
  have silent : (computePendingInterrupts (executed input state).state).targetMode = noneMode := by
    simp [computePendingInterrupts, calm]
  have finished : ((finishStep).run (executed input state).state).result = .ok () := by
    have counting : 0 ≤ state.hart.lrScCounter := undisturbed.sound.2.counting.1
    have settled := finishStep_settles (attains.counter.symm ▸ counting)
    cases result : ((finishStep).run (executed input state).state).result with
    | ok _ => rfl
    | error fault => exact (settled.of_error result).elim
  have stays : (executed input state).state.board.shallExit = false :=
    (congrArg Session.shallExit same).trans undisturbed.stays
  obtain ⟨result, reached⟩ := runStep_of_calm input runs returned silent finished
  have ended : session ((runStep input).run state).state = session (begun state) := by
    rw [reached, session_finishStep stays, same]
  have settled : control ((runStep input).run state).state = control state := by
    rw [reached, ← quiet]
    exact quiet_finishStep _
  refine ⟨result, ?_, congrArg Session.lastPc ended, ?_⟩
  · obtain ⟨-, -, -, executes⟩ := next
    have zero : t.regs 0 = 0 := (Spec.execute_regs_zero executes).trans undisturbed.zero
    rw [reached, architectural_finishStep]
    refine Spec.State.mk.injEq .. |>.mpr ⟨funext fun register => ?_, attains.pc, attains.mem⟩
    by_cases cleared : register = 0
    · rw [cleared, Function.update_self, zero]
    · rw [Function.update_of_ne cleared]
      exact attains.regs register cleared
  · exact {
      sound := (sound_runStep input undisturbed.sound undisturbed.zero).1
      zero := zero_runStep input undisturbed.zero result
      owned := (takes_runStep input).owned undisturbed.owned
      runnable := (congrArg Session.status ended).trans undisturbed.runnable
      undebugged := (congrArg Session.debugMode ended).trans undisturbed.undebugged
      stays := (congrArg Session.shallExit ended).trans undisturbed.stays
      calm := (congrArg (fun control => control.csrs.mie) settled).trans undisturbed.calm
      bare := fun type => by
        have core : ((runStep input).run state).state.hart.core = state.hart.core :=
          congrArg (fun control => Core.mk control.csrs.satp control.csrs.mstatus control.prv
            control.csrs.mhartid) settled
        rw [core]
        exact undisturbed.bare type }

end Step

/-! ## Runs -/

/-- The next step of a run that goes on. -/
theorem run_of_runnable {state : State P} {taken : Taken} (fuel : Nat)
    (returned : ((runStep input).run state).result = .ok taken)
    (runnable : ((runStep input).run state).state.hart.status = .runnable) :
    ((run input (fuel + 1)).run state).result =
        ((run input fuel).run ((runStep input).run state).state).result.map
          (((runStep input).run state).state.hart.lastPc :: ·) ∧
      ((run input (fuel + 1)).run state).state =
        ((run input fuel).run ((runStep input).run state).state).state := by
  rw [run, bind_run]
  generalize (runStep input).run state = outcome at returned runnable ⊢
  obtain ⟨result, after, log⟩ := outcome
  cases returned
  rw [Outcome.andThen_ok, getHart, bind_run, bind_run, get_run, Outcome.andThen_ok, pure_run,
    Outcome.andThen_ok]
  dsimp only at runnable ⊢
  rw [if_pos runnable, bind_run]
  generalize (run input fuel).run after = rest
  obtain ⟨result, last, log⟩ := rest
  cases result <;> exact ⟨rfl, rfl⟩

/-- An undisturbed hart runs as the manual's machine does. -/
theorem run_follows (lawful : P.clover.Lawful) {state : State P} (undisturbed : Undisturbed state)
    {pcs : List (BitVec 32)} {t : Spec.State}
    (runs : Spec.Runs P port (architectural port state) pcs t) :
    ((run input pcs.length).run state).result = .ok pcs ∧
      architectural port ((run input pcs.length).run state).state = t := by
  generalize shown : architectural port state = s at runs
  induction runs generalizing state with
  | stop => exact ⟨rfl, shown⟩
  | next next rest inductionHypothesis =>
      subst shown
      obtain ⟨returned, reached, last, undisturbed'⟩ := runStep_next input undisturbed lawful next
      obtain ⟨result, final⟩ := run_of_runnable input _ returned undisturbed'.runnable
      obtain ⟨follows, ended⟩ := inductionHypothesis undisturbed' reached
      refine ⟨?_, ?_⟩
      · rw [List.length_cons, result, follows, last]
        rfl
      · rw [List.length_cons, final]
        exact ended

/-- From reset with an even entry point, a program whose instructions and data lie in the memory
runs as the manual says: whatever it is and however long it runs, the hart executes the
instructions at the same addresses in the same order, and ends with the same registers, program
counter and bytes in the memory. -/
theorem programs_run (lawful : P.clover.Lawful) {start : State P} (reset : Reset start)
    (even : start.hart.pc &&& 1 = 0) {pcs : List (BitVec 32)} {t : Spec.State}
    (runs : Spec.Runs P port (architectural port start) pcs t) :
    ((run input pcs.length).run start).result = .ok pcs ∧
      architectural port ((run input pcs.length).run start).state = t :=
  run_follows input lawful (undisturbed_of_reset reset even) runs

/-- A program that counts down from five, with `C.NOP` in front of the compressed `C.ADDI`, and
takes the result through the memory. -/
theorem programs_run_throughMemory :
    let start := programStart [0x00500093, 0x10fd0001, 0x10102023, 0x10002103]
    let port : Port := ⟨0x00000000, 0x01ffffff, .memory⟩
    ∃ t : Spec.State, t.regs 2 = 4 ∧
      ((run zeroInput 5).run start).result = .ok [0, 4, 6, 8, 12] ∧
      architectural port ((run zeroInput 5).run start).state = t := by
  intro start port
  have serves : ∀ address ∈ [(0 : BitVec 32), 4, 6, 8, 12, 0x100],
      port.Serves tryoutPlatform address 4 := by
    simp only [List.forall_mem_cons, List.not_mem_nil, false_imp_iff, implies_true, and_true]
    refine ⟨?_, ?_, ?_, ?_, ?_, ?_⟩ <;> exact ⟨⟨rfl, rfl⟩, by decide, by decide, by decide⟩
  have idle : ∀ s kind rd rs1 imm,
      Spec.Served tryoutPlatform port s (.opImm kind rd rs1 imm) := by
    rintro s kind rd rs1 imm address ⟨⟩
  have accessed : ∀ address ∈ (some 0x100 : Option (BitVec 32)),
      address.toNat % 4 = 0 ∧ port.Serves tryoutPlatform address 4 := by
    rintro _ ⟨⟩
    exact ⟨rfl, serves _ (by decide)⟩
  have runs : Spec.Runs tryoutPlatform port (architectural port start) [0, 4, 6, 8, 12] _ :=
    .next (@Spec.Next.intro _ _ _ _ (.opImm .addi 1 0 5) 4 (serves 0 (by decide))
      (by decide +kernel) (idle _ _ _ _ _) rfl) <|
    .next (@Spec.Next.intro _ _ _ _ (.opImm .addi 0 0 0) 2 (serves 4 (by decide))
      (by decide +kernel) (idle _ _ _ _ _) rfl) <|
    .next (@Spec.Next.intro _ _ _ _ (.opImm .addi 1 1 (-1)) 2 (serves 6 (by decide))
      (by decide +kernel) (idle _ _ _ _ _) rfl) <|
    .next (@Spec.Next.intro _ _ _ _ (.store .sw 0 1 0x100) 4 (serves 8 (by decide))
      (by decide +kernel) accessed rfl) <|
    .next (@Spec.Next.intro _ _ _ _ (.load .lw 2 0 0x100) 4 (serves 12 (by decide))
      (by decide +kernel) accessed rfl) <|
    .stop _
  obtain ⟨result, reached⟩ :=
    programs_run zeroInput Clover.reference_lawful (reset_programStart _) rfl runs
  exact ⟨_, by decide +kernel, result, reached⟩

end Iss

end SymexVP
