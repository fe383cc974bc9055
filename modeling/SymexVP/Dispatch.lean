import SymexVP.Iss
import SymexVP.DecoderAgreement

/-!
# From the program counter to a case of the switch

What happens between the start of a step and the switch over opcodes: the word is
fetched, decoded, and the program counter moved past it. Nothing else of the hart
changes, so that the switch is entered in a state known from the word alone.
-/

namespace SymexVP.Iss

open Exec Opcode

variable {P : Platform} (input : P.clover.terms.Assignment)

/-- The opcode `exec_step` finds for a word and the instruction it keeps. A compressed word is
never one the compressed decoder refuses. -/
def decoded (word : Instruction) : Mapping × Instruction :=
  if word.isCompressed then
    match word.decodeAndExpandCompressed .rv32 with
    | .ok result => result
    | .error _ => (.undefined, word)
  else (word.decodeNormal .rv32, word)

def decodedOpcode (word : Instruction) : Mapping := (decoded word).1

/-- The hart as the switch finds it. -/
def decodedHart {terms : Terms} (hart : Hart terms) (word : Instruction) : Hart terms :=
  { hart with
    op := decodedOpcode word
    instr := (decoded word).2
    pc := hart.pc + if word.isCompressed then 2 else 4 }

@[simp] theorem decodedHart_op {terms : Terms} (hart : Hart terms) (word : Instruction) :
    (decodedHart hart word).op = decodedOpcode word := rfl

/-- The fetch of `exec_step` returns `word`. -/
def FetchReturns (state : State P) (word : Instruction) : Prop :=
  ((fetch input).run state).result = .ok () ∧ ((fetch input).run state).state.hart.instr = word

theorem decodeAndExpandCompressed_isOk {word : Instruction}
    (compressed : word.isCompressed = true) :
    ∃ result, word.decodeAndExpandCompressed .rv32 = .ok result := by
  have classified : ∃ cOp, word.decodeCompressed .rv32 = .ok cOp := by
    unfold Instruction.decodeCompressed
    split
    · exact ⟨_, rfl⟩
    split
    · exact ⟨_, rfl⟩
    split
    · exact ⟨_, rfl⟩
    · simp only [Instruction.isCompressed, decide_eq_true_eq] at compressed
      bv_omega
  obtain ⟨cOp, found⟩ := classified
  exact ⟨_, Instruction.decodeAndExpandCompressed_eq_ok_iff.mpr ⟨cOp, found, rfl⟩⟩

/-- Decoding always returns, and only looks at the fetched word. -/
theorem decode_run (state : State P) :
    (decode : IssM P Unit).run state =
      ⟨.ok (), { state with hart := decodedHart state.hart state.hart.instr }, []⟩ := by
  unfold decode decodedHart decodedOpcode decoded
  by_cases compressed : state.hart.instr.isCompressed = true
  · obtain ⟨⟨op, expanded⟩, found⟩ := decodeAndExpandCompressed_isOk compressed
    simp [getHart, compressed, found, modifyHart, requireIsa, Exec.when]
  · simp [getHart, compressed, modifyHart]

/-- What the switch will find of a hart does not depend on the instruction it holds. -/
def undecoded (state : State P) : Instruction → Hart P.clover.terms := decodedHart state.hart

/-- The memory interface only changes the board. -/
theorem steps_memory {β α : Type} {view : State P → β}
    (unseen : ∀ board state, view { state with board := board } = view state)
    (body : Core → MemM P α) : Steps (Unchanged view) (memory body) := by
  refine Steps.bind (Steps.bind Steps.get fun _ => Steps.pure _) fun hart => ?_
  exact Steps.focus_of_unseen unseen _

theorem steps_fetch : Steps (Unchanged undecoded) (fetch input) := by
  have read : Steps (Unchanged undecoded) (getHart : IssM P (Hart P.clover.terms)) :=
    Steps.bind Steps.get fun _ => Steps.pure _
  have assign : ∀ op instr, Steps (Unchanged undecoded)
      (modifyHart fun hart => { hart with op := op, instr := instr } : IssM P Unit) :=
    fun op instr => Steps.modify fun state => rfl
  refine Steps.bind read fun hart => Steps.bind (Steps.require _ _) fun _ => ?_
  refine Steps.tryCatch (Steps.bind read fun hart => Steps.bind ?_ fun word => ?_) fun fault => ?_
  · exact steps_memory (fun _ _ => rfl) _
  · exact Steps.modify fun state => rfl
  · split
    · exact Steps.bind (assign _ _) fun _ => Steps.throw _
    · exact Steps.throw _

/-- The state in which the switch is entered for a fetched word. -/
def decodedState (state : State P) (word : Instruction) : State P :=
  ⟨decodedHart state.hart word, ((fetch input).run state).state.board⟩

/-- After a fetch, `exec_step` is the case of the opcode, on a hart known from the word. -/
theorem execStep_run {state : State P} {word : Instruction}
    (fetched : FetchReturns input state word) :
    (execStep input).run state =
      { (execute input (decodedOpcode word)).run (decodedState input state word) with
        log := ((fetch input).run state).log ++
          ((execute input (decodedOpcode word)).run (decodedState input state word)).log } := by
  have unchanged := steps_fetch input state
  obtain ⟨returned, rfl⟩ := fetched
  simp only [execStep, decodedState, bind_run]
  generalize (fetch input).run state = outcome at returned unchanged ⊢
  obtain ⟨result, ⟨hart, board⟩, log⟩ := outcome
  cases returned
  have same : decodedHart hart hart.instr = decodedHart state.hart hart.instr :=
    congrFun unchanged hart.instr
  simp [decode_run, getHart, ← same]

/-! ## Instructions that access memory -/

/-- The accesses an instruction can make. -/
inductive Access (terms : Terms)
  | load (numBytes : Nat)
  | store (numBytes : Nat)
  | loadReserved
  | storeConditional
  | amo (operation : ConcolicValue terms 32 → ConcolicValue terms 32 → ConcolicValue terms 32)

/-- The access of an opcode. -/
def access : Mapping → Option (Access P.clover.terms)
  | .lb | .lbu => some (.load 1)
  | .lh | .lhu => some (.load 2)
  | .lw => some (.load 4)
  | .sb => some (.store 1)
  | .sh => some (.store 2)
  | .sw => some (.store 4)
  | .lrW => some .loadReserved
  | .scW => some .storeConditional
  | .amoswapW => some (.amo fun _ b => b)
  | .amoaddW => some (.amo fun a b => P.clover.binary .add a b)
  | .amoxorW => some (.amo fun a b => P.clover.binary .bxor a b)
  | .amoandW => some (.amo fun a b => P.clover.binary .band a b)
  | .amoorW => some (.amo fun a b => P.clover.binary .bor a b)
  | .amominW => some (.amo (chooseByComparison .sge false true))
  | .amominuW => some (.amo (chooseByComparison .uge false true))
  | .amomaxW => some (.amo (chooseByComparison .sge true false))
  | .amomaxuW => some (.amo (chooseByComparison .uge true false))
  | _ => none

end SymexVP.Iss
