import SymexVP.StepContracts

/-!
# Decoder and executor

The decoder knows about 160 opcodes, the switch of `exec_step` executes about 75 of
them. The block that would turn the others into an illegal-instruction trap is
disabled, so that they reach the default case, which throws out of the simulator.
Every other fault of an executed instruction has another origin.
-/

namespace SymexVP.Iss

open Exec Opcode

variable {P : Platform} (input : P.clover.terms.Assignment)

/-- `exec_step` does not come to the default case of its switch, and an opcode it does not
implement raises an illegal-instruction trap. -/
def ExecutesOrTraps (state : State P) (word : Instruction) : Prop :=
  ((execStep input).run state).result ≠ .error unknownOpcode ∧
    (unimplemented (decodedOpcode word) = true →
      ∃ mtval, ((execStep input).run state).result = .error (.trap ⟨.illegalInstr, mtval⟩))

/-- An instruction is executed or trapped exactly if its opcode has a case. -/
theorem executesOrTraps_iff {state : State P} {word : Instruction} (empty : NoTranslation state)
    (fetched : FetchReturns input state word) :
    ExecutesOrTraps input state word ↔ unimplemented (decodedOpcode word) = false := by
  constructor
  · rintro ⟨executed, -⟩
    by_contra missing
    refine executed ?_
    rw [execStep_run input fetched, execute_of_unimplemented input (Bool.not_eq_false _ ▸ missing)]
    rfl
  · intro implemented
    refine ⟨fun thrown => ?_, fun missing => ?_⟩
    · exact (fromCase_of_execStep input empty fetched implemented thrown).ne_unknownOpcode rfl
    · exact absurd (implemented.symm.trans missing) Bool.false_ne_true

end SymexVP.Iss
