import SymexVP.ByteMemory
import SymexVP.SpecificationDecoder
import SymexVP.SpecificationResults
import SymexVP.MemoryAssertions
import SymexVP.StepAssertions

/-!
# Instructions refine the manual

The switch over opcodes is entered with the program counter behind the fetched word and
the registers of the state before it. From there each instruction either traps or
reaches the state the manual gives it, except that `x0` is only cleared at the end of
the step. This module covers the instructions that leave the memory alone: arithmetic,
control transfer, multiplication and division.
-/

namespace SymexVP

namespace Spec

theorem State.read_eq {s : State} (zero : s.regs 0 = 0) (register : Register) :
    s.read register = s.regs register := by
  by_cases same : register = 0
  · rw [State.read, if_pos same, same, zero]
  · rw [State.read, if_neg same]

theorem State.write_pc (s : State) (register : Register) (value pc : BitVec 32) :
    ({ s.write register value with pc := pc } : State) =
      ({ s with pc := pc }).write register value := by
  unfold State.write
  split <;> rfl

end Spec

namespace Iss

open Exec Opcode MemoryInterface

variable {P : Platform} {port : Port}

/-- What the manual sees of a simulated machine: the concrete parts of its registers and of the
bytes behind the memory's port. -/
def architectural (port : Port) (state : State P) : Spec.State where
  regs register := (state.hart.regs register).value.concrete
  pc := state.hart.pc
  mem := port.bytes state.board.memory

/-- The state the switch over opcodes is entered in, for a word of `length` bytes. -/
structure Entered (port : Port) (length : BitVec 32) (s : Spec.State) (word : Instruction)
    (middle : State P) : Prop where
  instr : middle.hart.instr = word
  regs : ∀ register, (middle.hart.regs register).value.concrete = s.regs register
  zero : s.regs 0 = 0
  lastPc : middle.hart.lastPc = s.pc
  pc : middle.hart.pc = s.pc + length
  even : IsEven s.pc
  mem : port.bytes middle.board.memory = s.mem
  deep : 0 < P.depth
  bare : Untranslating P middle.hart.core .store
  available : middle.board.Available middle.hart.core.hartId

/-- The manual's state is reached, except for `x0`, which is cleared at the end of a step. The
counter of the reservation is that of `before`. -/
structure Attains (port : Port) (before : State P) (s : Spec.State) (after : State P) : Prop where
  regs : ∀ register ≠ 0, (after.hart.regs register).value.concrete = s.regs register
  pc : after.hart.pc = s.pc
  mem : port.bytes after.board.memory = s.mem
  counter : after.hart.lrScCounter = before.hart.lrScCounter

namespace Attains

variable {before after : State P} {s : Spec.State} (attains : Attains port before s after)

include attains

/-- A register write. -/
theorem assign (register : BitVec 5) (value : RegValue P.clover.terms) :
    Attains port before (s.write register value.value.concrete)
      { after with hart := after.hart.assign register value } := by
  have fields : (s.write register value.value.concrete).pc = s.pc ∧
      (s.write register value.value.concrete).mem = s.mem := by
    unfold Spec.State.write
    split <;> exact ⟨rfl, rfl⟩
  refine ⟨fun other named => ?_, attains.pc.trans fields.1.symm, attains.mem.trans fields.2.symm,
    attains.counter⟩
  by_cases same : other = register
  · subst same
    rw [Spec.State.write, if_neg named]
    simp [Hart.assign]
  · by_cases zero : register = 0
    · rw [Spec.State.write, if_pos zero]
      simpa [Hart.assign, same] using attains.regs other named
    · rw [Spec.State.write, if_neg zero]
      simpa [Hart.assign, same] using attains.regs other named

theorem write (register : BitVec 5) (value : ConcolicValue P.clover.terms 32) :
    Attains port before (s.write register value.concrete)
      { after with hart := after.hart.write register ⟨32, value⟩ } := by
  obtain ⟨regs, pc, mem, counter⟩ := attains.assign register ⟨after.hart.nextObject, value⟩
  exact ⟨regs, pc, mem, counter⟩

/-- A narrow value is extended with zeros. -/
theorem writeNarrow {width : Nat} (narrow : width < 32) (register : BitVec 5)
    (value : ConcolicValue P.clover.terms width) :
    Attains port before (s.write register (P.clover.zext 32 value).concrete)
      { after with hart := after.hart.write register ⟨width, value⟩ } := by
  obtain ⟨regs, pc, mem, counter⟩ :=
    attains.assign register ⟨after.hart.nextObject, P.clover.zext 32 value⟩
  have written : after.hart.write register ⟨width, value⟩ =
      after.hart.assignNew register (P.clover.zext 32 value) := if_pos narrow
  rw [written]
  exact ⟨regs, pc, mem, counter⟩

theorem jump (target : BitVec 32) :
    Attains port before { s with pc := target }
      { after with hart := { after.hart with pc := target } } :=
  ⟨attains.regs, rfl, attains.mem, attains.counter⟩

end Attains

namespace Entered

variable {length : BitVec 32} {s : Spec.State} {word : Instruction} {middle : State P}
  (entered : Entered port length s word middle)

include entered

theorem attains : Attains port middle { s with pc := s.pc + length } middle :=
  ⟨fun register _ => entered.regs register, entered.pc, entered.mem, rfl⟩

/-! The operands are those of the word. -/

theorem rd : middle.hart.rd = Spec.rd word := by
  rw [Hart.rd, entered.instr, Instruction.rd_eq]
  exact BitVec.setWidth_setWidth_of_le _ (by decide)

theorem rs1 : middle.hart.rs1Value.concrete = s.read (Spec.rs1 word) := by
  rw [Hart.rs1Value, entered.regs, Hart.rs1, entered.instr, Instruction.rs1_eq,
    BitVec.setWidth_setWidth_of_le _ (by decide), BitVec.setWidth_eq,
    Spec.State.read_eq entered.zero]

theorem rs2 : middle.hart.rs2Value.concrete = s.read (Spec.rs2 word) := by
  rw [Hart.rs2Value, entered.regs, Hart.rs2, entered.instr, Instruction.rs2_eq,
    BitVec.setWidth_setWidth_of_le _ (by decide), BitVec.setWidth_eq,
    Spec.State.read_eq entered.zero]

theorem uImm : middle.hart.uImm.concrete = Spec.immU word := by
  rw [Hart.uImm, entered.instr, Instruction.uImm_eq]
  rfl

section Lawful

variable (lawful : P.clover.Lawful)

include lawful

theorem iImm : middle.hart.iImm.concrete = Spec.immI word := by
  rw [Hart.iImm, (lawful.sext 32 32).concrete, entered.instr, Instruction.iImm_eq]
  exact BitVec.signExtend_eq _

theorem sImm : middle.hart.sImm.concrete = Spec.immS word := by
  rw [Hart.sImm, (lawful.sext 32 32).concrete, entered.instr, Instruction.sImm_eq]
  exact BitVec.signExtend_eq _

theorem rs2Shamt : middle.hart.rs2Shamt.concrete.toNat = (s.read (Spec.rs2 word)).toNat % 32 := by
  rw [Hart.rs2Shamt, (lawful.zext 5 32).concrete, (lawful.extract 32 0 5).concrete, entered.rs2,
    BitVec.toNat_setWidth_of_le (by decide), BitVec.extractLsb'_toNat, Nat.shiftRight_zero]

end Lawful

theorem shamt (short : (Spec.funct7 word).getLsbD 0 = false) :
    middle.hart.shamt.concrete.toNat = (Spec.rs2 word).toNat := by
  rw [Hart.shamt, entered.instr, Instruction.shamt_eq word short]
  exact BitVec.toNat_setWidth_of_le (by decide)

end Entered

/-- The instruction traps, or takes `middle` to a state that shows `t`. -/
abbrev Refines (port : Port) (middle : State P) (t : Spec.State) (body : IssM P Unit) : Prop :=
  Settles Fault.IsTrap (fun _ after => Attains port middle t after) body middle

section Instructions

variable {length : BitVec 32} {s : Spec.State} {word : Instruction} {middle : State P}
  (entered : Entered port length s word middle)

include entered

/-! ## Arithmetic -/

/-- What is computed is written to `rd`. -/
theorem compute_refines {value : Hart P.clover.terms → ConcolicValue P.clover.terms 32}
    {result : BitVec 32} (computes : (value middle.hart).concrete = result) :
    Refines port middle { s.write (Spec.rd word) result with pc := s.pc + length }
      (compute fun hart => ⟨32, value hart⟩) := by
  refine Settles.modify ?_
  rw [Spec.State.write_pc, ← computes, ← entered.rd]
  exact entered.attains.write _ _

section Operations

variable (lawful : P.clover.Lawful)

include lawful

theorem arithmetic_refines {operation : BinaryOp}
    {operand : Hart P.clover.terms → ConcolicValue P.clover.terms 32} {result : BitVec 32}
    (defined : operation.Defined middle.hart.rs1Value.concrete (operand middle.hart).concrete)
    (computes : operation.apply (s.read (Spec.rs1 word)) (operand middle.hart).concrete = result) :
    Refines port middle { s.write (Spec.rd word) result with pc := s.pc + length }
      (arithmetic operation operand) := by
  refine compute_refines entered ?_
  rw [(lawful.binary operation 32).concrete _ _ defined, entered.rs1, computes]

theorem comparison_refines {operation : CompareOp}
    {operand : Hart P.clover.terms → ConcolicValue P.clover.terms 32} {holds : Bool}
    (compares : operation.apply (s.read (Spec.rs1 word)) (operand middle.hart).concrete =
      BitVec.ofBool holds) :
    Refines port middle { s.write (Spec.rd word) (Spec.ofBool holds) with pc := s.pc + length }
      (comparison operation operand) := by
  refine Settles.modify ?_
  have bit : (P.clover.zext 32 (P.clover.compare operation middle.hart.rs1Value
      (operand middle.hart))).concrete = Spec.ofBool holds := by
    rw [(lawful.zext 1 32).concrete, (lawful.compare operation 32).concrete _ _ trivial,
      entered.rs1, compares, Spec.setWidth_ofBool]
  rw [Spec.State.write_pc, ← bit, ← entered.rd]
  exact entered.attains.writeNarrow (by decide) _ _

end Operations

/-! ## Control transfer -/

section Jumping

variable {t : Spec.State} {after : State P}

omit entered in
/-- A jump to an even address is taken. -/
theorem jumpTo_settles {faults : Fault → Prop} (attains : Attains port middle t after)
    {target : BitVec 32} (even : IsEven target) :
    Settles faults (fun _ last => Attains port middle { t with pc := target } last)
      (jumpTo target) after := by
  refine Settles.bind (Settles.modify (Settles.bind (Settles.bind (Settles.get (Settles.pure ?_)))))
  refine Settles.bind (Settles.require (fun _ => ?_) fun odd => absurd (isEven_iff_and.mp even) odd)
  refine Settles.when (fun misaligned => ?_) fun _ => attains.jump target
  exact absurd (by simp) misaligned.2

omit entered in
/-- Recording a branch changes nothing. -/
theorem trackAndTraceBranch_settles {faults : Fault → Prop} {good : Unit → State P → Prop}
    (cond : Bool) (expr : ConcolicValue P.clover.terms 1) (holds : good () after) :
    Settles faults good (trackAndTraceBranch cond expr) after := by
  refine Settles.bind (Settles.bind (Settles.get (Settles.pure ?_)))
  split
  · exact Settles.emit holds
  · exact Settles.pure holds

theorem jal_refines :
    Refines port middle
      { s.write (Spec.rd word) (s.pc + length) with pc := s.pc + Spec.immJ word } jal := by
  have target : middle.hart.lastPc + middle.hart.instr.jImm = s.pc + Spec.immJ word := by
    rw [entered.lastPc, entered.instr, Instruction.jImm_eq]
  have even : IsEven (s.pc + Spec.immJ word) := by
    rw [← Instruction.jImm_eq]
    exact entered.even.add (isEven_jImm word)
  refine Settles.bind (Settles.bind (Settles.get (Settles.pure (Settles.bind ?_))))
  rw [target]
  refine (jumpTo_settles entered.attains even).mono ?_ fun _ => id
  intro _ last attains
  refine Settles.modify ?_
  rw [Spec.State.write_pc, ← entered.rd, ← entered.pc]
  exact attains.write middle.hart.rd (.BVC middle.hart.pc)

/-- The base is read before `rd` is written, also when they are one register. -/
theorem jalr_refines :
    Refines port middle
      { s.write (Spec.rd word) (s.pc + length) with
        pc := (s.read (Spec.rs1 word) + Spec.immI word) &&& ~~~1#32 } jalr := by
  have target : (middle.hart.rs1Value.concrete + middle.hart.instr.iImm) &&& ~~~1 =
      (s.read (Spec.rs1 word) + Spec.immI word) &&& ~~~1#32 := by
    rw [entered.rs1, entered.instr, Instruction.iImm_eq]
    rfl
  refine Settles.bind (Settles.bind (Settles.get (Settles.pure (Settles.bind ?_))))
  refine Settles.bind (Settles.emit (Settles.pure (Settles.bind ?_)))
  rw [target]
  refine (jumpTo_settles entered.attains (isEven_mask _)).mono ?_ fun _ => id
  intro _ last attains
  refine Settles.modify ?_
  rw [Spec.State.write_pc, ← entered.rd, ← entered.pc]
  exact attains.write middle.hart.rd (.BVC middle.hart.pc)

theorem branch_refines (lawful : P.clover.Lawful) (kind : Spec.BranchKind) :
    Refines port middle
      { s with pc := s.pc + if Spec.taken kind (s.read (Spec.rs1 word)) (s.read (Spec.rs2 word))
          then Spec.immB word else length }
      (branch kind.comparison) := by
  have target : middle.hart.lastPc + middle.hart.instr.bImm = s.pc + Spec.immB word := by
    rw [entered.lastPc, entered.instr, Instruction.bImm_eq]
  have even : IsEven (s.pc + Spec.immB word) := by
    rw [← Instruction.bImm_eq]
    exact entered.even.add (isEven_bImm word)
  have condition : ((P.clover.compare kind.comparison middle.hart.rs1Value
      middle.hart.rs2Value).concrete == 1) =
        Spec.taken kind (s.read (Spec.rs1 word)) (s.read (Spec.rs2 word)) := by
    rw [(lawful.compare _ 32).concrete _ _ trivial, entered.rs1, entered.rs2, Spec.apply_comparison,
      Spec.ofBool_eq_one]
  refine Settles.bind (Settles.bind (Settles.get (Settles.pure (Settles.bind ?_))))
  rw [condition, target]
  refine Settles.when (fun taken => ?_) fun skipped => ?_
  · refine (jumpTo_settles entered.attains even).mono ?_ fun _ => id
    intro _ last attains
    rw [if_pos taken]
    exact trackAndTraceBranch_settles _ _ attains
  · rw [if_neg skipped]
    exact trackAndTraceBranch_settles _ _ entered.attains

end Jumping

/-! ## Multiplication and division -/

omit entered in
theorem requireIsa_refines {extension : BitVec 32} (state : State P) :
    Settles Fault.IsTrap (fun _ after => after = state) (requireIsa extension) state := by
  refine Settles.bind (Settles.bind (Settles.get (Settles.pure ?_)))
  refine Settles.when (fun _ => ?_) fun _ => rfl
  exact Settles.bind (Settles.bind (Settles.get (Settles.pure (Settles.throw ⟨_, rfl⟩))))

section Factors

variable (lawful : P.clover.Lawful)

include lawful

/-- Half of the product of two integers. -/
theorem multiply_refines
    {extend₁ extend₂ : ConcolicValue P.clover.terms 32 → ConcolicValue P.clover.terms 64}
    {offset : Nat} {first second : Int} {result : BitVec 32}
    (one : (extend₁ middle.hart.rs1Value).concrete = BitVec.ofInt 64 first)
    (other : (extend₂ middle.hart.rs2Value).concrete = BitVec.ofInt 64 second)
    (half : (BitVec.ofInt 64 (first * second)).extractLsb' offset 32 = result) :
    Refines port middle { s.write (Spec.rd word) result with pc := s.pc + length }
      (multiply extend₁ extend₂ offset) := by
  refine Settles.bind ((requireIsa_refines middle).mono ?_ fun _ => id)
  intro _ after same
  rw [same]
  refine compute_refines entered ?_
  calc (P.clover.extract offset 32 (P.clover.binary .mul (extend₁ middle.hart.rs1Value)
          (extend₂ middle.hart.rs2Value))).concrete
      = (BitVec.ofInt 64 first * BitVec.ofInt 64 second).extractLsb' offset 32 := by
        rw [(lawful.extract 64 offset 32).concrete, (lawful.binary .mul 64).concrete _ _ trivial,
          one, other]
        rfl
    _ = result := by rw [← BitVec.ofInt_mul, half]

/-- The operands are extended as numbers with or without a sign. -/
theorem sext_rs1 : (P.clover.sext 64 middle.hart.rs1Value).concrete =
    BitVec.ofInt 64 (s.read (Spec.rs1 word)).toInt := by
  rw [(lawful.sext 32 64).concrete, entered.rs1, Spec.signExtend_eq_ofInt]

theorem sext_rs2 : (P.clover.sext 64 middle.hart.rs2Value).concrete =
    BitVec.ofInt 64 (s.read (Spec.rs2 word)).toInt := by
  rw [(lawful.sext 32 64).concrete, entered.rs2, Spec.signExtend_eq_ofInt]

theorem zext_rs1 : (P.clover.zext 64 middle.hart.rs1Value).concrete =
    BitVec.ofInt 64 (s.read (Spec.rs1 word)).toNat := by
  rw [(lawful.zext 32 64).concrete, entered.rs1, Spec.setWidth_eq_ofInt]

theorem zext_rs2 : (P.clover.zext 64 middle.hart.rs2Value).concrete =
    BitVec.ofInt 64 (s.read (Spec.rs2 word)).toNat := by
  rw [(lawful.zext 32 64).concrete, entered.rs2, Spec.setWidth_eq_ofInt]

/-- The divisor decides which of the two results is written. -/
theorem divide_refines {onZero : Hart P.clover.terms → Hart P.clover.terms}
    {result : Hart P.clover.terms → ConcolicValue P.clover.terms 32} {value : BitVec 32}
    (zero : s.read (Spec.rs2 word) = 0 →
      Attains port middle { s.write (Spec.rd word) value with pc := s.pc + length }
        { middle with hart := onZero middle.hart })
    (nonzero : s.read (Spec.rs2 word) ≠ 0 → (result middle.hart).concrete = value) :
    Refines port middle { s.write (Spec.rd word) value with pc := s.pc + length }
      (divide onZero result) := by
  have condition : ((P.clover.compare .eq middle.hart.rs2Value (.BVC 0)).concrete == 1) =
      (s.read (Spec.rs2 word) == 0) := by
    rw [(lawful.compare _ 32).concrete _ _ trivial, entered.rs2]
    exact Spec.ofBool_eq_one _
  refine Settles.bind ((requireIsa_refines middle).mono ?_ fun _ => id)
  rintro _ _ rfl
  refine Settles.bind (Settles.bind (Settles.get (Settles.pure (Settles.bind ?_))))
  rw [condition]
  refine Settles.ite (fun divisor => ?_) fun divisor => ?_
  · exact Settles.modify (trackAndTraceBranch_settles _ _ (zero (beq_iff_eq.mp divisor)))
  · have written := compute_refines entered (nonzero fun equal => divisor (beq_iff_eq.mpr equal))
    exact written.mono (fun _ _ attains => trackAndTraceBranch_settles _ _ attains) fun _ => id

omit lawful in
/-- A division by zero gives all ones. -/
theorem attains_allOnes :
    Attains port middle
      { s.write (Spec.rd word) (BitVec.allOnes 32) with pc := s.pc + length }
      { middle with hart := allOnes middle.hart } := by
  rw [Spec.State.write_pc, ← entered.rd]
  exact entered.attains.write middle.hart.rd (.BVC 0xffffffff)

omit lawful in
/-- A remainder by zero is the dividend, and `rd` shares its object. -/
theorem attains_copyRs1 :
    Attains port middle
      { s.write (Spec.rd word) (s.read (Spec.rs1 word)) with pc := s.pc + length }
      { middle with hart := copyRs1 middle.hart } := by
  rw [Spec.State.write_pc, ← entered.rd, ← entered.rs1]
  exact entered.attains.assign middle.hart.rd (middle.hart.regs middle.hart.rs1)

theorem select_overflow (one other : ConcolicValue P.clover.terms 32) :
    (P.clover.select (overflow middle.hart) one other).concrete =
      if s.read (Spec.rs1 word) = BitVec.intMin 32 ∧ s.read (Spec.rs2 word) = BitVec.allOnes 32
      then one.concrete else other.concrete := by
  rw [(lawful.select 32).concrete, overflow, (lawful.binary .band 1).concrete _ _ trivial,
    (lawful.compare .eq 32).concrete _ _ trivial, (lawful.compare .eq 32).concrete _ _ trivial,
    entered.rs1, entered.rs2]
  exact if_congr Spec.ofBool_and_ofBool rfl rfl

theorem div_refines :
    Refines port middle
      { s.write (Spec.rd word)
          (Spec.signedQuotient (s.read (Spec.rs1 word)) (s.read (Spec.rs2 word))) with
        pc := s.pc + length } div := by
  refine divide_refines entered lawful (fun zero => ?_) fun nonzero => ?_
  · rw [Spec.signedQuotient, if_pos zero]
    exact attains_allOnes entered
  · rw [Spec.signedQuotient, if_neg nonzero, select_overflow entered lawful,
      (lawful.binary .sdiv 32).concrete _ _ (entered.rs2 ▸ nonzero), entered.rs1, entered.rs2,
      ← Spec.sdiv_eq]
    rfl

theorem divu_refines :
    Refines port middle
      { s.write (Spec.rd word)
          (Spec.unsignedQuotient (s.read (Spec.rs1 word)) (s.read (Spec.rs2 word))) with
        pc := s.pc + length } divu := by
  refine divide_refines entered lawful (fun zero => ?_) fun nonzero => ?_
  · rw [Spec.unsignedQuotient, if_pos zero]
    exact attains_allOnes entered
  · rw [Spec.unsignedQuotient, if_neg nonzero,
      (lawful.binary .udiv 32).concrete _ _ (entered.rs2 ▸ nonzero), entered.rs1, entered.rs2,
      ← Spec.udiv_eq]
    rfl

theorem rem_refines :
    Refines port middle
      { s.write (Spec.rd word)
          (Spec.signedRemainder (s.read (Spec.rs1 word)) (s.read (Spec.rs2 word))) with
        pc := s.pc + length } rem := by
  refine divide_refines entered lawful (fun zero => ?_) fun nonzero => ?_
  · rw [Spec.signedRemainder, if_pos zero]
    exact attains_copyRs1 entered
  · rw [Spec.signedRemainder, if_neg nonzero, select_overflow entered lawful,
      (lawful.binary .srem 32).concrete _ _ (entered.rs2 ▸ nonzero), entered.rs1, entered.rs2,
      ← Spec.srem_eq]
    rfl

theorem remu_refines :
    Refines port middle
      { s.write (Spec.rd word)
          (Spec.unsignedRemainder (s.read (Spec.rs1 word)) (s.read (Spec.rs2 word))) with
        pc := s.pc + length } remu := by
  refine divide_refines entered lawful (fun zero => ?_) fun nonzero => ?_
  · rw [Spec.unsignedRemainder, if_pos zero]
    exact attains_copyRs1 entered
  · rw [Spec.unsignedRemainder, if_neg nonzero,
      (lawful.binary .urem 32).concrete _ _ (entered.rs2 ▸ nonzero), entered.rs1, entered.rs2,
      ← Spec.umod_eq]
    rfl

end Factors

/-! ## The register instructions -/

section Registers

variable (input : P.clover.terms.Assignment) (lawful : P.clover.Lawful)

include lawful

theorem immediate_refines (kind : Spec.ImmediateKind) :
    Refines port middle
      { s.write (Spec.rd word)
          (Spec.immediateResult kind (s.read (Spec.rs1 word)) (Spec.immI word)) with
        pc := s.pc + length }
      (execute input (Instruction.mnemonic (.opImm kind 0 0 0))) := by
  have operand := entered.iImm lawful
  cases kind with
  | addi =>
      exact arithmetic_refines entered lawful trivial (congrArg (BinaryOp.add.apply _) operand)
  | slti =>
      exact comparison_refines entered lawful (congrArg (CompareOp.slt.apply _) operand)
  | sltiu =>
      exact comparison_refines entered lawful (congrArg (CompareOp.ult.apply _) operand)
  | xori =>
      exact arithmetic_refines entered lawful trivial (congrArg (BinaryOp.bxor.apply _) operand)
  | ori =>
      exact arithmetic_refines entered lawful trivial (congrArg (BinaryOp.bor.apply _) operand)
  | andi =>
      exact arithmetic_refines entered lawful trivial (congrArg (BinaryOp.band.apply _) operand)

theorem shift_refines (kind : Spec.ShiftKind) (short : (Spec.funct7 word).getLsbD 0 = false) :
    Refines port middle
      { s.write (Spec.rd word)
          (Spec.shiftResult kind (s.read (Spec.rs1 word)) (Spec.rs2 word).toNat) with
        pc := s.pc + length }
      (execute input (Instruction.mnemonic (.shift kind 0 0 0))) := by
  have amount := entered.shamt short
  cases kind with
  | slli =>
      exact arithmetic_refines entered lawful trivial
        (congrArg (fun shamt : Nat => s.read (Spec.rs1 word) <<< shamt) amount)
  | srli =>
      exact arithmetic_refines entered lawful trivial
        (congrArg (fun shamt : Nat => s.read (Spec.rs1 word) >>> shamt) amount)
  | srai =>
      exact arithmetic_refines entered lawful trivial
        (congrArg (s.read (Spec.rs1 word)).sshiftRight amount)

theorem op_refines (kind : Spec.OpKind) :
    Refines port middle
      { s.write (Spec.rd word)
          (Spec.opResult kind (s.read (Spec.rs1 word)) (s.read (Spec.rs2 word))) with
        pc := s.pc + length }
      (execute input (Instruction.mnemonic (.op kind 0 0 0))) := by
  have operand := entered.rs2
  have amount := entered.rs2Shamt lawful
  cases kind with
  | add =>
      exact arithmetic_refines entered lawful trivial (congrArg (BinaryOp.add.apply _) operand)
  | sub =>
      exact arithmetic_refines entered lawful trivial (congrArg (BinaryOp.sub.apply _) operand)
  | sll =>
      exact arithmetic_refines entered lawful trivial
        (congrArg (fun shamt : Nat => s.read (Spec.rs1 word) <<< shamt) amount)
  | slt =>
      exact comparison_refines entered lawful (congrArg (CompareOp.slt.apply _) operand)
  | sltu =>
      exact comparison_refines entered lawful (congrArg (CompareOp.ult.apply _) operand)
  | xor =>
      exact arithmetic_refines entered lawful trivial (congrArg (BinaryOp.bxor.apply _) operand)
  | srl =>
      exact arithmetic_refines entered lawful trivial
        (congrArg (fun shamt : Nat => s.read (Spec.rs1 word) >>> shamt) amount)
  | sra =>
      exact arithmetic_refines entered lawful trivial
        (congrArg (s.read (Spec.rs1 word)).sshiftRight amount)
  | or =>
      exact arithmetic_refines entered lawful trivial (congrArg (BinaryOp.bor.apply _) operand)
  | and =>
      exact arithmetic_refines entered lawful trivial (congrArg (BinaryOp.band.apply _) operand)
  | mul =>
      exact multiply_refines entered lawful (sext_rs1 entered lawful) (sext_rs2 entered lawful)
        (Spec.extract_low _)
  | mulh =>
      exact multiply_refines entered lawful (sext_rs1 entered lawful) (sext_rs2 entered lawful)
        (Spec.extract_high _)
  | mulhsu =>
      exact multiply_refines entered lawful (sext_rs1 entered lawful) (zext_rs2 entered lawful)
        (Spec.extract_high _)
  | mulhu =>
      exact multiply_refines entered lawful (zext_rs1 entered lawful) (zext_rs2 entered lawful)
        (Spec.extract_high _)
  | div => exact div_refines entered lawful
  | divu => exact divu_refines entered lawful
  | rem => exact rem_refines entered lawful
  | remu => exact remu_refines entered lawful

end Registers

end Instructions

end Iss
end SymexVP
