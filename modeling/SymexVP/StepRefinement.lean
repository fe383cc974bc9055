import SymexVP.AccessRefinement
import SymexVP.ReservationWindow

/-!
# A step refines the manual

A step fetches a word, executes the instruction in it and finishes with bookkeeping that
clears `x0` and touches neither another register nor the memory. Between a state with
`x0` cleared and the state reached, the registers, the program counter and the bytes of
the memory therefore change exactly as the manual says, unless the instruction traps or
an interrupt is taken.
-/

namespace SymexVP

/-- No instruction writes `x0`. -/
theorem Spec.write_regs_zero (s : State) (register : Register) (value : BitVec 32) :
    (s.write register value).regs 0 = s.regs 0 := by
  unfold State.write
  split
  · rfl
  · next named => exact Function.update_of_ne (Ne.symm named) _ _

theorem Spec.execute_regs_zero {length : BitVec 32} {s t : State} {i : Instr}
    (ran : execute length s i = some t) : t.regs 0 = s.regs 0 := by
  cases i with
  | branch | ebreak => cases ran <;> rfl
  | store kind => cases ran; cases kind <;> rfl
  | _ =>
      cases ran
      exact Spec.write_regs_zero _ _ _

namespace Iss

open Exec Opcode MemoryInterface

variable {P : Platform} {port : Port} (input : P.clover.terms.Assignment) {state : State P}

/-! ## The end of a step -/

/-- What the manual sees stays as it is. -/
abbrev Unseen (port : Port) {α : Type} (body : IssM P α) : Prop :=
  Steps (Unchanged (architectural port)) body

theorem unseen_getHart : Unseen port (getHart : IssM P (Hart P.clover.terms)) :=
  Steps.bind Steps.get fun _ => Steps.pure _

theorem unseen_modifyHart {change : Hart P.clover.terms → Hart P.clover.terms}
    (regs : ∀ hart, (change hart).regs = hart.regs) (pc : ∀ hart, (change hart).pc = hart.pc) :
    Unseen port (modifyHart change : IssM P Unit) := by
  refine Steps.modify fun state => ?_
  show Spec.State.mk _ _ _ = Spec.State.mk _ _ _
  rw [regs, pc]

theorem unseen_memory {α : Type} {body : Core → MemM P α}
    (kept : ∀ core, Steps (Unchanged Board.memory) (body core)) : Unseen port (memory body) := by
  refine Steps.bind unseen_getHart fun hart state => ?_
  have same := kept hart.core state.board
  show Spec.State.mk _ _ _ = Spec.State.mk _ _ _
  exact congrArg (fun memory => Spec.State.mk _ _ (port.bytes memory)) same

theorem unseen_releaseLrScReservation : Unseen port (releaseLrScReservation : IssM P Unit) := by
  refine Steps.bind (unseen_modifyHart (fun _ => rfl) fun _ => rfl) fun _ => ?_
  refine unseen_memory fun core => Steps.modify fun board => ?_
  show (ite _ _ _ : Board P).memory = _
  split <;> rfl

theorem unseen_performanceAndSyncUpdate (executedOp : Mapping) :
    Unseen port (performanceAndSyncUpdate executedOp : IssM P Unit) := by
  refine Steps.bind (unseen_modifyHart (fun _ => rfl) fun _ => rfl) fun _ => ?_
  refine Steps.bind unseen_getHart fun hart => Steps.bind (Steps.when fun _ => ?_) fun _ => ?_
  · refine Steps.bind (unseen_modifyHart (fun _ => rfl) fun _ => rfl) fun _ => ?_
    refine Steps.bind unseen_getHart fun counted => Steps.bind (Steps.require _ _) fun _ => ?_
    exact Steps.when fun _ => unseen_releaseLrScReservation
  · refine Steps.bind (unseen_modifyHart (fun hart => ?_) fun hart => ?_) fun _ => ?_
    · split <;> rfl
    · split <;> rfl
    refine Steps.bind unseen_getHart fun synced => unseen_memory fun _ => ?_
    refine Steps.bind (Steps.modify fun _ => rfl) fun _ => Steps.bind Steps.get fun board => ?_
    exact Steps.when fun _ => Steps.modify fun _ => rfl

/-- The end of a step clears `x0`, whatever the instruction has left in it. -/
theorem architectural_finishStep :
    architectural port ((finishStep).run state).state =
      { architectural port state with
        regs := Function.update (architectural port state).regs 0 0 } := by
  let cleared : State P := { state with hart := state.hart.write 0 ⟨32, .BVC 0⟩ }
  have rest : Unseen port (do
      let state ← Exec.get
      Exec.when state.board.shallExit (modifyHart fun hart => { hart with status := .terminated })
      let hart ← getHart
      performanceAndSyncUpdate hart.op : IssM P Unit) := by
    refine Steps.bind Steps.get fun state => Steps.bind (Steps.when fun _ => ?_) fun _ => ?_
    · exact unseen_modifyHart (fun _ => rfl) fun _ => rfl
    · exact Steps.bind unseen_getHart fun hart => unseen_performanceAndSyncUpdate hart.op
  have regs : (architectural port cleared).regs =
      Function.update (architectural port state).regs 0 0 := by
    funext register
    by_cases same : register = 0
    · subst same
      rfl
    · rw [Function.update_of_ne same]
      exact congrArg (fun value : RegValue P.clover.terms => value.value.concrete)
        (Function.update_of_ne same _ _)
  refine (rest cleared).trans ?_
  rw [← regs]
  rfl

/-- Nothing at the end of a step fails as long as a reservation has instructions to go. -/
theorem finishStep_settles (counting : 0 ≤ state.hart.lrScCounter) :
    Settles (fun _ => False) (fun _ _ => True) finishStep state := by
  have synced : ∀ (newCycles : Nat) (state : State P),
      Settles (fun _ => False) (fun _ _ => True) (do
      modifyHart fun hart =>
        if CounterBits.CY.get hart.csrs.mcountinhibit = 0 then
          { hart with cycleCounter := hart.cycleCounter + newCycles }
        else hart
      let hart ← getHart
      memory fun _ => do
        Board.inc newCycles
        let board ← Exec.get
        Exec.when (P.world.needSync board.world board.localTime ∧ hart.lrScCounter = 0)
          Board.synchronise : IssM P Unit) state := by
    intro newCycles state
    refine Settles.bind (Settles.modify (Settles.bind ?_))
    refine Settles.bind (Settles.get (Settles.pure ?_))
    refine memory_settles (Settles.bind (Settles.modify (Settles.bind (Settles.get ?_))))
    exact Settles.when (fun _ => Settles.modify trivial) fun _ => trivial
  have counted : ∀ (executedOp : Mapping) (state : State P), 0 ≤ state.hart.lrScCounter →
      Settles (fun _ => False) (fun _ _ => True) (performanceAndSyncUpdate executedOp) state := by
    intro executedOp state counting
    refine Settles.bind (Settles.modify (Settles.bind ?_))
    refine Settles.bind (Settles.get (Settles.pure ?_))
    refine Settles.bind (Settles.when (fun reserved => ?_) fun _ => synced _ _)
    refine Settles.bind (Settles.modify (Settles.bind ?_))
    refine Settles.bind (Settles.get (Settles.pure ?_))
    refine Settles.bind (Settles.require (fun _ => ?_) fun negative => ?_)
    · refine Settles.when (fun _ => ?_) fun _ => synced _ _
      exact Settles.bind (Settles.modify (memory_settles (Settles.modify (synced _ _))))
    · have one : (1 : Int) ≤ state.hart.lrScCounter := lt_of_le_of_ne counting (Ne.symm reserved)
      exact negative (Int.sub_nonneg_of_le one)
  refine Settles.bind (Settles.modify (Settles.bind (Settles.get (Settles.bind ?_))))
  refine Settles.when (fun _ => Settles.modify ?_) fun _ => ?_
  · exact Settles.bind (Settles.bind (Settles.get (Settles.pure (counted _ _ counting))))
  · exact Settles.bind (Settles.bind (Settles.get (Settles.pure (counted _ _ counting))))

/-! ## The fetch -/

section Fetched

variable {word : Instruction} (fetched : FetchReturns input (begun state) word)

include fetched

/-- A fetch that returns has loaded the word through the memory interface. -/
theorem loadInstr_of_fetchReturns :
    ((loadInstr (bus state.hart.core input) state.hart.core state.hart.pc).run state.board).result =
        .ok word ∧
      (decodedState input (begun state) word).board =
        ((loadInstr (bus state.hart.core input) state.hart.core state.hart.pc).run
          state.board).state := by
  obtain ⟨result, board⟩ := fetch_run input (even_of_fetchReturns input fetched)
  refine ⟨?_, board⟩
  rw [← result, Iss.fetched, fetched.1, ← fetched.2]
  rfl

/-- A bus that answers has devices behind it. -/
theorem deep_of_fetchReturns : 0 < P.depth := by
  obtain ⟨loaded, -⟩ := loadInstr_of_fetchReturns input fetched
  by_contra shallow
  have silent : (bus state.hart.core input : Socket P) = fun _ _ => Exec.throw .stackOverflow := by
    rw [bus, Nat.eq_zero_of_not_pos shallow]
    rfl
  obtain ⟨paddr, -, read, -⟩ := bind_eq_ok loaded
  obtain ⟨bytes, served, -⟩ := bind_eq_ok read
  obtain ⟨_, -, asked, -⟩ := bind_eq_ok served
  obtain ⟨trans, transferred, -⟩ := bind_eq_ok asked
  obtain ⟨before, -, sent, -⟩ := bind_eq_ok transferred
  obtain ⟨answer, answered, -⟩ := bind_eq_ok sent
  rw [silent] at answered
  cases answered

/-- Without translation a fetch leaves the memory alone, wherever it leads. -/
theorem memory_fetch (owned : Owned state) (bare : Untranslating P state.hart.core .fetch) :
    (decodedState input (begun state) word).board.memory = state.board.memory := by
  obtain ⟨loaded, board⟩ := loadInstr_of_fetchReturns input fetched
  have available : state.board.Available state.hart.core.hartId := owned
  rw [board]
  rw [loadInstr, v2p_bare bare] at loaded ⊢
  obtain ⟨paddr, ⟨⟩, read, reached⟩ := bind_eq_ok loaded
  rw [reached]
  obtain ⟨bytes, -, -, reached⟩ := bind_eq_ok read
  rw [reached]
  exact congrArg Prod.fst (concreteLoadData_settled input available .fetch _ 4)

/-- The switch over opcodes is entered with what the manual's step starts from. -/
theorem entered_decodedState (zero : (state.hart.regs 0).value.concrete = 0) (owned : Owned state)
    (bare : ∀ type, Untranslating P state.hart.core type) (whole : word.isCompressed = false) :
    Entered port 4 (architectural port state) word (decodedState input (begun state) word) where
  instr := by
    show (decoded word).2 = word
    rw [decoded, if_neg (Bool.eq_false_iff.mp whole)]
  regs _ := rfl
  zero := zero
  lastPc := rfl
  pc := by
    show state.hart.pc + (if word.isCompressed then 2 else 4) = state.hart.pc + 4
    rw [if_neg (Bool.eq_false_iff.mp whole)]
  even := isEven_iff_and.mpr (even_of_fetchReturns input fetched)
  mem := congrArg port.bytes (memory_fetch input fetched owned (bare .fetch))
  deep := deep_of_fetchReturns input fetched
  bare := bare .store
  available := available_decodedState input owned word

end Fetched

/-! ## The step -/

/-- A step that executes an instruction without a trap and finds no interrupt pending is the
instruction and the end of the step. -/
theorem runStep_of_calm (runs : Runs state) (returned : (executed input state).result = .ok ())
    (calm : (computePendingInterrupts (executed input state).state).targetMode = noneMode)
    (finished : ((finishStep).run (executed input state).state).result = .ok ()) :
    ((runStep input).run state).result = .ok .nothing ∧
      ((runStep input).run state).state =
        ((finishStep).run (executed input state).state).state := by
  have plain : ((stepAndInterrupt input).run (begun state)).result = .ok .nothing ∧
      ((stepAndInterrupt input).run (begun state)).state = (executed input state).state := by
    rw [executed] at returned calm ⊢
    rw [stepAndInterrupt, bind_run]
    generalize (execStep input).run (begun state) = outcome at returned calm ⊢
    obtain ⟨_, after, log⟩ := outcome
    cases returned
    simp only [Outcome.andThen_ok, bind_run, get_run, ne_eq, calm, not_true_eq_false, if_false,
      pure_run, and_self]
  have caught : (Exec.tryCatch (stepAndInterrupt input) handleFault).run (begun state) =
      (stepAndInterrupt input).run (begun state) := by
    obtain ⟨result, -⟩ := plain
    rw [tryCatch_run]
    generalize (stepAndInterrupt input).run (begun state) = outcome at result ⊢
    obtain ⟨_, after, log⟩ := outcome
    cases result
    rfl
  rw [← caught] at plain
  rw [← plain.2] at finished ⊢
  rw [runStep_of_runs input runs]
  have guarded := bind_of_ok plain.1 fun taken => finishStep >>= fun _ => pure taken
  have ended := bind_of_ok finished fun _ => pure Taken.nothing
  exact ⟨guarded.1.trans ended.1, guarded.2.trans ended.2⟩

variable {word : Instruction} {i : Spec.Instr}

/-- The instruction of a step, executed as the manual says. -/
theorem executed_refines (lawful : P.clover.Lawful) (zero : (state.hart.regs 0).value.concrete = 0)
    (owned : Owned state) (bare : ∀ type, Untranslating P state.hart.core type)
    (fetched : FetchReturns input (begun state) word) (decodes : Spec.decode word = some i)
    (returns : i ≠ .ebreak)
    (inMemory : ∀ address ∈ Spec.address (architectural port state) i, port.Holds P address) :
    ∃ t, Spec.execute 4 (architectural port state) i = some t ∧
      ((executed input state).result = .ok () →
        Attains port state t (executed input state).state) ∧
      ∀ fault, (executed input state).result = .error fault → fault.IsTrap := by
  have encodes := Spec.encodes_of_decode decodes
  have whole := Instruction.not_isCompressed_of_encodes encodes
  have entered : Entered port 4 (architectural port state) word _ :=
    entered_decodedState input fetched zero owned bare whole
  obtain ⟨t, manual, refines⟩ := execute_refines input entered lawful encodes returns inMemory
  have named : decodedOpcode word = Instruction.mnemonic i := by
    rw [decodedOpcode, decoded, if_neg (Bool.eq_false_iff.mp whole)]
    exact Instruction.decodeNormal_of_encodes encodes
  rw [← named] at refines
  rw [executed, execStep_run input fetched]
  refine ⟨t, manual, fun returned => ?_, fun fault thrown => refines.of_error thrown⟩
  obtain ⟨regs, pc, mem, counter⟩ := refines.of_ok returned
  exact ⟨regs, pc, mem, counter⟩

/-- In a state with `x0` cleared, without translation, and away from breakpoints, a step that
executes an instruction of the manual on the memory, without a trap or a pending interrupt,
changes registers, program counter and bytes as the manual says. The bus lock is not another
hart's and a reservation does not count below zero in any state that is reached. -/
theorem runStep_refines (lawful : P.clover.Lawful) (runs : Runs state) (owned : Owned state)
    (counting : 0 ≤ state.hart.lrScCounter)
    (bare : ∀ type, Untranslating P state.hart.core type)
    (fetched : FetchReturns input (begun state) word) (decodes : Spec.decode word = some i)
    (returns : i ≠ .ebreak)
    (inMemory : ∀ address ∈ Spec.address (architectural port state) i, port.Holds P address)
    (untrapped : ∀ raised, (executed input state).result ≠ .error (.trap raised))
    (calm : (computePendingInterrupts (executed input state).state).targetMode = noneMode) :
    ((runStep input).run state).result = .ok .nothing ∧
      Spec.execute 4 (architectural port state) i =
        some (architectural port ((runStep input).run state).state) := by
  obtain ⟨t, manual, attained, failed⟩ :=
    executed_refines input lawful runs.1 owned bare fetched decodes returns inMemory
  have returned : (executed input state).result = .ok () := by
    cases result : (executed input state).result with
    | ok value => rfl
    | error fault =>
        obtain ⟨raised, rfl⟩ := failed fault result
        exact absurd result (untrapped raised)
  have attains := attained returned
  have finished : ((finishStep).run (executed input state).state).result = .ok () := by
    have settled := finishStep_settles (attains.counter.symm ▸ counting)
    cases result : ((finishStep).run (executed input state).state).result with
    | ok value => rfl
    | error fault => exact (settled.of_error result).elim
  obtain ⟨result, reached⟩ := runStep_of_calm input runs returned calm finished
  refine ⟨result, ?_⟩
  have zero : t.regs 0 = 0 := (Spec.execute_regs_zero manual).trans runs.1
  have regs : Function.update (architectural port (executed input state).state).regs 0 0 =
      t.regs := by
    funext register
    by_cases cleared : register = 0
    · rw [cleared, Function.update_self, zero]
    · rw [Function.update_of_ne cleared]
      exact attains.regs register cleared
  rw [manual, reached, architectural_finishStep, regs]
  refine congrArg some ?_
  calc t = ⟨t.regs, t.pc, t.mem⟩ := rfl
    _ = ⟨t.regs, (executed input state).state.hart.pc,
          port.bytes (executed input state).state.board.memory⟩ := by rw [attains.pc, attains.mem]

/-- An atomic addition to the word a register points to. -/
theorem runStep_refines_amoaddW :
    let state := stateAfter (runStep zeroInput) 1 (programStart [0x40000093, 0x0010a12f])
    let port : Port := ⟨0x00000000, 0x01ffffff, .memory⟩
    ((runStep zeroInput).run state).result = .ok .nothing ∧
      Spec.execute 4 (architectural port state) (.amo .add 2 1 1) =
        some (architectural port ((runStep zeroInput).run state).state) := by
  intro state port
  have runs : Runs state := by
    unfold Runs AtBreakpoint
    decide +kernel
  have fetched : FetchReturns zeroInput (begun state) 0x0010a12f := by
    constructor <;> decide +kernel
  have executes : (executed zeroInput state).result = .ok () := by decide +kernel
  have points : (architectural port state).read 1 = 0x400 := by decide +kernel
  refine runStep_refines zeroInput Clover.reference_lawful runs ?_ ?_ ?_ fetched (by decide) nofun
    ?_ ?_ ?_
  · exact .inl (by decide +kernel)
  · decide +kernel
  · exact fun _ _ => .inl (by decide +kernel)
  · rintro address ⟨⟩
    rw [points]
    exact ⟨rfl, rfl⟩
  · rw [executes]
    nofun
  · decide +kernel

end Iss

end SymexVP
