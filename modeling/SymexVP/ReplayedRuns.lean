import SymexVP.ReplayedInstructions
import SymexVP.AssertionRuns

/-!
# Whole runs under another assignment

A run from reset and a second run from the same start, under another assignment of the
symbolic variables. As long as the first run drops no symbolic part and the second assignment
decides every recorded branch as it was taken, both runs execute the same instructions and
record the same, and the second one holds in every register and every byte of its memory what
the first one holds there evaluated under the second assignment.
-/

namespace SymexVP.Iss

open Exec Opcode MemoryInterface

variable {P : Platform} {other : P.clover.terms.Assignment} {kept : BitVec 32 → Prop}

/-! ## Outcomes -/

/-- An outcome of the first run, and the outcome of the second run that follows it. -/
structure OutcomeReplays (other : P.clover.terms.Assignment) {α : Type}
    (first second : Outcome Fault (State P) (Event P.clover.terms) α) : Prop where
  log : second.log = first.log
  state : State.Replays other (fun _ => True) first.state second.state
  result : second.result = first.result

theorem OutcomeReplays.of_follows {α : Type}
    {first second : Outcome Fault (State P) (Event P.clover.terms) α}
    (follows : second.log = first.log ∧ State.Replays other kept first.state second.state ∧
      ResultRel Eq first.result second.result) : OutcomeReplays other first second := by
  obtain ⟨log, states, results⟩ := follows
  refine ⟨log, ?_, ?_⟩
  · generalize first.state = state at states ⊢
    generalize second.state = state' at states ⊢
    obtain ⟨harts, boards, -⟩ := states
    exact ⟨harts, boards, trivial⟩
  · generalize first.result = result at results ⊢
    generalize second.result = result' at results ⊢
    cases results with
    | ok same => rw [same]
    | error fault => rfl

/-- What follows a returned value follows it in both runs. -/
theorem OutcomeReplays.andThen {α β : Type}
    {first second : Outcome Fault (State P) (Event P.clover.terms) α}
    {next next' : α → State P → Outcome Fault (State P) (Event P.clover.terms) β}
    (accepted : ∀ event ∈ (first.andThen next).log, Event.Replayable other event)
    (head : (∀ event ∈ first.log, Event.Replayable other event) →
      OutcomeReplays other first second)
    (rest : ∀ value, first.result = .ok value → second.result = .ok value →
      State.Replays other (fun _ => True) first.state second.state →
      (∀ event ∈ (next value first.state).log, Event.Replayable other event) →
      OutcomeReplays other (next value first.state) (next' value second.state)) :
    OutcomeReplays other (first.andThen next) (second.andThen next') := by
  obtain ⟨result, after, log⟩ := first
  obtain ⟨result', after', log'⟩ := second
  cases result with
  | error fault =>
      obtain ⟨logs, states, results⟩ := head accepted
      cases logs
      cases results
      exact ⟨rfl, states, rfl⟩
  | ok value =>
      simp only [Outcome.andThen_ok, List.mem_append] at accepted
      obtain ⟨logs, states, results⟩ := head fun event seen => accepted event (.inl seen)
      cases logs
      cases results
      obtain ⟨logs, ends, endings⟩ :=
        rest value rfl rfl states fun event seen => accepted event (.inr seen)
      exact ⟨congrArg (log ++ ·) logs, ends, endings⟩

/-! ## Steps -/

/-- What `run` does after a step. -/
def resume (rest : IssM P (List (BitVec 32))) : IssM P (List (BitVec 32)) := do
  let hart ← getHart
  if hart.status = .runnable then do
    let rest ← rest
    pure (hart.lastPc :: rest)
  else do
    memory fun _ => Board.synchronise
    pure [hart.lastPc]

/-- A step at an odd address fails its first assertion. -/
theorem stepAndInterrupt_of_odd {state : State P} (odd : ¬IsEven state.hart.pc)
    (input : P.clover.terms.Assignment) : (stepAndInterrupt input).run state =
      ⟨.error (.assertion "misaligned instruction"), state, []⟩ := by
  have misaligned : ¬state.hart.pc &&& ~~~state.hart.pcAlignmentMask = 0 := by
    rw [Hart.pcAlignmentMask, Misa.has_C, if_pos rfl, BitVec.not_not]
    exact fun even => odd (isEven_iff_and.mpr even)
  simp only [stepAndInterrupt, execStep, fetch, getHart, bind_run, get_run, pure_run,
    Outcome.andThen_ok, require_of_not misaligned, throw_run, Outcome.andThen_error]
  rfl

section Steps

variable (lawful : P.clover.Lawful) (walkless : P.mmuMem = false)
  {input : P.clover.terms.Assignment}
  (answers : ∀ core, Socket.Follows other (bus core input : Socket P) (bus core other))

theorem follows_decode : Follows other kept Board.Done decode decode := by
  refine follows_getHart fun hart _ ⟨_⟩ => Sim.ite Iff.rfl (fun _ => ?_) fun _ => ?_
  · dsimp only
    split
    · exact Sim.throw _
    refine Sim.bind (follows_modifyHart (fun _ _ ⟨registers⟩ => .intro registers) fun _ => rfl)
      fun _ _ _ => ?_
    exact Sim.when Iff.rfl fun _ => follows_requireIsa _
  · exact follows_modifyHart (fun _ _ ⟨registers⟩ => .intro registers) fun _ => rfl

include walkless answers

theorem follows_loadWord : Follows other kept Board.Done (loadWord input) (loadWord other) := by
  refine Sim.tryCatch (follows_getHart fun _ _ ⟨_⟩ => ?_) fun fault => ?_
  · refine Sim.bind (follows_memory fun core =>
      follows_loadInstr (answers core) walkless core _) ?_
    rintro word _ rfl
    exact follows_modifyHart (fun _ _ ⟨registers⟩ => .intro registers) fun _ => rfl
  · split
    · exact Sim.bind (follows_modifyHart (fun _ _ ⟨registers⟩ => .intro registers) fun _ => rfl)
        fun _ _ _ => Sim.throw _
    · exact Sim.throw _

theorem follows_fetch : Follows other kept Board.Done (fetch input) (fetch other) :=
  follows_getHart fun _ _ ⟨_⟩ => Sim.bind (Sim.require Iff.rfl _) fun _ _ _ =>
    follows_loadWord walkless answers

include lawful

theorem follows_execStep : Follows other IsEven Board.Done (execStep input) (execStep other) := by
  refine Sim.bind (follows_fetch walkless answers) fun _ _ _ => ?_
  refine Sim.bind follows_decode fun _ _ _ => ?_
  exact follows_getHart fun decoded _ ⟨_⟩ => follows_execute lawful walkless answers decoded.op

theorem follows_stepAndInterrupt :
    Follows other IsEven Eq (stepAndInterrupt input) (stepAndInterrupt other) := by
  refine Sim.bind (follows_execStep lawful walkless answers) fun _ _ _ => ?_
  refine follows_getState fun _ _ _ _ ⟨_⟩ ⟨_⟩ => ?_
  refine Sim.ite Iff.rfl (fun _ => ?_) fun _ => Sim.pure rfl
  refine Sim.bind (follows_prepareInterrupt _) fun _ _ _ => ?_
  refine Sim.bind (Sim.emit _) fun _ _ _ => ?_
  exact Sim.bind (follows_switchToTrapHandler _) fun _ _ _ => Sim.pure rfl

/-- The part of a step behind its checks. -/
theorem follows_taken : Follows other IsEven Eq
    (do
      let taken ← Exec.tryCatch (stepAndInterrupt input) handleFault
      finishStep
      pure taken : IssM P Taken)
    (do
      let taken ← Exec.tryCatch (stepAndInterrupt other) handleFault
      finishStep
      pure taken) := by
  refine Sim.bind (Sim.tryCatch (follows_stepAndInterrupt lawful walkless answers)
    follows_handleFault) ?_
  rintro taken _ rfl
  exact Sim.bind (follows_finishStep lawful) fun _ _ _ => Sim.pure rfl

/-- Whether the next instruction is executed at an even or at an odd address, the step of the
second run follows that of the first one. -/
theorem runStep_replays {first second : State P}
    (states : State.Replays other (fun _ => True) first second)
    (zero : ZeroIsZero first) (zero' : ZeroIsZero second)
    (accepted : ∀ event ∈ ((runStep input).run first).log, Event.Replayable other event) :
    OutcomeReplays other ((runStep input).run first) ((runStep other).run second) := by
  obtain ⟨⟨registers⟩, boards, -⟩ := states
  rename_i hart board board' regs
  by_cases stopped : AtBreakpoint (⟨hart, board⟩ : State P)
  · rw [runStep_of_breakpoint input zero stopped,
      runStep_of_breakpoint other zero' (by exact stopped)]
    exact ⟨rfl, ⟨.intro registers, boards, trivial⟩, rfl⟩
  rw [runStep_of_runs input ⟨zero, stopped⟩] at accepted ⊢
  rw [runStep_of_runs other ⟨zero', by exact stopped⟩]
  have begins : ∀ {kept : BitVec 32 → Prop}, kept hart.pc → State.Replays other kept
      (begun ⟨hart, board⟩) (begun ⟨{ hart with regs := regs }, board'⟩) :=
    fun holds => ⟨.intro registers, boards, holds⟩
  by_cases even : IsEven hart.pc
  · exact .of_follows (follows_taken lawful walkless answers _ _ (begins even) accepted)
  · have odd : ¬IsEven (begun (⟨hart, board⟩ : State P)).hart.pc := even
    have odd' : ¬IsEven (begun (⟨{ hart with regs := regs }, board'⟩ : State P)).hart.pc := even
    simp only [bind_run, tryCatch_run, stepAndInterrupt_of_odd odd, stepAndInterrupt_of_odd odd']
    exact ⟨rfl, begins trivial, rfl⟩

omit lawful walkless answers in
/-- After a step a run goes on, or it synchronises and ends. -/
theorem resume_replays {rest rest' : IssM P (List (BitVec 32))} {after after' : State P}
    (states : State.Replays other (fun _ => True) after after')
    (follows : (∀ event ∈ (rest.run after).log, Event.Replayable other event) →
      OutcomeReplays other (rest.run after) (rest'.run after'))
    (accepted : ∀ event ∈ ((resume rest).run after).log, Event.Replayable other event) :
    OutcomeReplays other ((resume rest).run after) ((resume rest').run after') := by
  obtain ⟨⟨registers⟩, boards, -⟩ := states
  rename_i hart board board' regs
  have resumed : ∀ (rest : IssM P (List (BitVec 32))) (state : State P), (resume rest).run state =
      if state.hart.status = .runnable then
        (rest.run state).andThen fun pcs => (pure (state.hart.lastPc :: pcs) : IssM P _).run
      else ((memory fun _ => Board.synchronise) >>= fun _ =>
        (pure [state.hart.lastPc] : IssM P _)).run state := by
    intro rest state
    simp only [resume, getHart, bind_run, get_run, pure_run, Outcome.andThen_ok, ite_run]
    split <;> rfl
  rw [resumed] at accepted ⊢
  rw [resumed]
  by_cases runnable : hart.status = .runnable
  · rw [if_pos (by exact runnable)] at accepted ⊢
    rw [if_pos (by exact runnable)]
    exact OutcomeReplays.andThen accepted follows fun pcs _ _ states _ => ⟨rfl, states, rfl⟩
  · rw [if_neg (by exact runnable), if_neg (by exact runnable)]
    have synced : Follows other (fun _ => True) Eq
        ((memory fun _ => Board.synchronise) >>= fun _ => (pure [hart.lastPc] : IssM P _))
        ((memory fun _ => Board.synchronise) >>= fun _ => pure [hart.lastPc]) :=
      Sim.bind (follows_memory fun _ => Board.follows_synchronise) fun _ _ _ => Sim.pure rfl
    refine .of_follows (synced _ _ ⟨.intro registers, boards, trivial⟩ ?_)
    rintro _ ⟨⟩

/-- By induction on the number of steps. -/
theorem run_replays_of_related (fuel : Nat) {first second : State P}
    (states : State.Replays other (fun _ => True) first second)
    (zero : ZeroIsZero first) (zero' : ZeroIsZero second)
    (accepted : ∀ event ∈ ((run input fuel).run first).log, Event.Replayable other event) :
    OutcomeReplays other ((run input fuel).run first) ((run other fuel).run second) := by
  induction fuel generalizing first second with
  | zero => exact ⟨rfl, states, rfl⟩
  | succ fuel inductionHypothesis =>
      have step := runStep_replays lawful walkless answers states zero zero'
      refine OutcomeReplays.andThen accepted step fun taken returned returned' states later => ?_
      have rest := inductionHypothesis states (zero_runStep input zero returned)
        (zero_runStep other zero' returned')
      exact resume_replays states rest later

end Steps

/-! ## Runs of the simulator -/

/-- What has no symbolic part is the same under every assignment. -/
theorem replays_of_plain {width : Nat} {value : ConcolicValue P.clover.terms width}
    (plain : value.symbolic = none) : ConcolicValue.Replays other value value := by
  obtain ⟨concrete, symbolic⟩ := value
  cases plain
  exact .BVC concrete

theorem replays_reset {start : State P} (reset : Reset start)
    (loaded : ∀ address, (P.clover.byte start.board.memory address).symbolic = none) :
    State.Replays other (fun _ => True) start start := by
  obtain ⟨misa, hartId, entrypoint, sp, memory, rxFifo, world⟩ := reset
  have bytes : P.clover.MemoryReplays other memory memory := fun address =>
    replays_of_plain (loaded address)
  refine ⟨.intro fun index => ⟨rfl, replays_of_plain ?_⟩, .intro bytes, trivial⟩
  show (ite _ _ _ : RegValue _).value.symbolic = none
  split <;> rfl

/-- Replay is sound. Run a program whose memory is loaded without symbolic parts, and let the
run drop no symbolic part: none of an address, of the base of an indirect jump, of the source
of a control and status register, of a fetched word or of data written to a device. Under
every assignment that decides each recorded branch as it was taken, the run executes at the
same program counters for the same number of steps, records the same, and has in every register
and in every byte of the memory what the first run's value evaluates to. Interrupts need not
be excluded. -/
theorem run_replays {clover : Clover} (lawful : clover.Lawful) {world : World} {depth : Nat}
    {start : State (symexPlatform clover world depth)} (reset : Reset start)
    (loaded : ∀ address, (clover.byte start.board.memory address).symbolic = none)
    (input other : clover.terms.Assignment) (fuel : Nat)
    (plain : ∀ event ∈ ((run input fuel).run start).log, event.IsPlain)
    (decided : ∀ event ∈ ((run input fuel).run start).log, event.GoesSameWay other) :
    let first := (run input fuel).run start
    let second := (run other fuel).run start
    second.result = first.result ∧ second.log = first.log ∧
      second.state.hart.lastPc = first.state.hart.lastPc ∧
      second.state.hart.pc = first.state.hart.pc ∧
      (∀ register, (second.state.hart.regs register).value.concrete =
        (first.state.hart.regs register).value.under other) ∧
      ∀ address, (clover.byte second.state.board.memory address).concrete =
        (clover.byte first.state.board.memory address).under other := by
  intro first second
  have mute : ∀ port ∈ (symexPlatform clover world depth).ports, port.target ≠ .uart := by
    intro port member
    simp only [symexPlatform, List.mem_cons, List.not_mem_nil, or_false] at member
    obtain rfl | rfl | rfl | rfl := member <;> exact nofun
  have answers : ∀ core, Socket.Follows other
      (bus core input : Socket (symexPlatform clover world depth)) (bus core other) :=
    fun core => follows_bus lawful rfl mute core input
  have zero : ZeroIsZero start := by
    cases reset
    rfl
  obtain ⟨log, states, result⟩ := run_replays_of_related lawful rfl answers fuel
    (replays_reset reset loaded) zero zero fun event seen => ⟨plain event seen, decided event seen⟩
  refine ⟨result, log, ?_⟩
  change State.Replays other _ first.state second.state at states
  generalize first.state = state at states ⊢
  generalize second.state = state' at states ⊢
  obtain ⟨⟨registers⟩, ⟨bytes⟩, -⟩ := states
  exact ⟨rfl, rfl, fun register => (registers register).value.concrete,
    fun address => (bytes address).concrete⟩

/-- Every symbolic variable is five. -/
def fiveInput : tryoutPlatform.clover.terms.Assignment := fun _ => 5

/-- A program is loaded without symbolic parts. -/
theorem loaded_programStart (words : List (BitVec 32)) (address : Nat) :
    (tryoutPlatform.clover.byte (programStart words).board.memory address).symbolic = none := by
  have plain : Clover.Reference.plain (Clover.Reference.load (programMemory words) address 1) =
      true := Clover.Reference.plain_byte _ _
  exact Option.isNone_iff_eq_none.mp plain

/-- A program that marks a word symbolic, loads it and branches on its sign. -/
def branchOnSign : List (BitVec 32) :=
  [0x020200b7, 0x10000113, 0x0020a023, 0x00400113, 0x0020a223, 0x10002183, 0x0001d463]

/-- The second assignment gives the word another value of the same sign. -/
theorem run_replays_branch :
    let board := symexPlatform Clover.reference idleWorld 2
    let first := (run (P := board) zeroInput 7).run (programStart branchOnSign)
    let second := (run (P := board) fiveInput 7).run (programStart branchOnSign)
    second.result = first.result ∧ second.log = first.log ∧
      second.state.hart.lastPc = first.state.hart.lastPc ∧
      second.state.hart.pc = first.state.hart.pc ∧
      (∀ register, (second.state.hart.regs register).value.concrete =
        (first.state.hart.regs register).value.under fiveInput) ∧
      ∀ address, (Clover.reference.byte second.state.board.memory address).concrete =
        (Clover.reference.byte first.state.board.memory address).under fiveInput := by
  have plain : ∀ event ∈ ((run zeroInput 7).run (programStart branchOnSign)).log,
      event.IsPlain := by decide +kernel
  have decided : ∀ event ∈ ((run zeroInput 7).run (programStart branchOnSign)).log,
      event.GoesSameWay fiveInput := by decide +kernel
  exact run_replays Clover.reference_lawful (reset_programStart _) (loaded_programStart _)
    zeroInput fiveInput 7 plain decided
end SymexVP.Iss
