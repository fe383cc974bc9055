import SymexVP.ReplayedHart

/-!
# Instructions in two runs

Every case of the switch computes in the second run what it computes in the first one,
evaluated under the second assignment. The branches and the divisions test a value that may
have a symbolic part. They record the test only after they have acted on it, so that the
two runs are compared over the whole instruction: once the test is recorded, and recorded
as what the second assignment gives, both runs have acted alike.
-/

namespace SymexVP.Iss

open Exec Opcode MemoryInterface

variable {P : Platform} {other : P.clover.terms.Assignment} {kept : BitVec 32 → Prop}

/-! ## Computations -/

section Computations

variable (lawful : P.clover.Lawful)

include lawful

theorem follows_compute {value : Hart P.clover.terms → Concolic P.clover.terms}
    (replays : ∀ hart hart', Hart.Replays other hart hart' →
      Concolic.Replays other (value hart) (value hart')) :
    Follows other kept Board.Done (compute value) (compute value) := by
  refine follows_modifyHart ?_ fun hart => lastPc_write hart _ _
  rintro hart _ ⟨registers⟩
  have harts : Hart.Replays other hart _ := .intro registers
  exact harts.write lawful (replays _ _ harts)

section Operands

variable {operand : Hart P.clover.terms → ConcolicValue P.clover.terms 32}
  (replays : ∀ hart hart', Hart.Replays other hart hart' →
    ConcolicValue.Replays other (operand hart) (operand hart'))

include replays

theorem follows_arithmetic {operation : BinaryOp}
    (total : ∀ first second : BitVec 32, operation.Defined first second) :
    Follows other kept Board.Done (arithmetic operation operand)
      (arithmetic operation operand) :=
  follows_compute lawful fun _ _ harts =>
    ⟨(lawful.binary operation 32).replays harts.rs1Value (replays _ _ harts) (total _ _)⟩

theorem follows_comparison (operation : CompareOp) :
    Follows other kept Board.Done (comparison operation operand)
      (comparison operation operand) :=
  follows_compute lawful fun _ _ harts =>
    ⟨(lawful.compare operation 32).replays harts.rs1Value (replays _ _ harts) trivial⟩

end Operands

theorem follows_multiply
    {extend₁ extend₂ : ConcolicValue P.clover.terms 32 → ConcolicValue P.clover.terms 64}
    (first : ∀ value value', ConcolicValue.Replays other value value' →
      ConcolicValue.Replays other (extend₁ value) (extend₁ value'))
    (second : ∀ value value', ConcolicValue.Replays other value value' →
      ConcolicValue.Replays other (extend₂ value) (extend₂ value')) (offset : Nat) :
    Follows other kept Board.Done (multiply extend₁ extend₂ offset)
      (multiply extend₁ extend₂ offset) := by
  refine Sim.bind (follows_requireIsa _) fun _ _ _ => follows_compute lawful fun _ _ harts => ⟨?_⟩
  refine (lawful.extract 64 offset 32).replays ((lawful.binary .mul 64).replays ?_ ?_ trivial)
  · exact first _ _ harts.rs1Value
  · exact second _ _ harts.rs2Value

/-! ## Jumps -/

theorem follows_jal : Follows other kept Board.Done jal jal := by
  refine follows_getHart fun hart _ ⟨_⟩ => Sim.bind (follows_jumpTo _) fun _ _ _ => ?_
  exact follows_write lawful ⟨.BVC _⟩

theorem follows_jalr : Follows other kept Board.Done jalr jalr := by
  refine follows_getHart fun hart hart' harts => ?_
  refine Sim.bind (follows_getValue (by decide) harts.rs1Value) ?_
  rintro rs1 _ rfl
  obtain ⟨_⟩ := harts
  exact Sim.bind (follows_jumpTo _) fun _ _ _ => follows_write lawful ⟨.BVC _⟩

/-! ## Control and status registers -/

theorem follows_csrWrite {source : Hart P.clover.terms → IssM P (BitVec 32)}
    (reads : ∀ hart hart', Hart.Replays other hart hart' →
      Follows other kept Eq (source hart) (source hart')) :
    Follows other kept Board.Done (csrWrite source) (csrWrite source) := by
  refine follows_getHart fun hart _ ⟨registers⟩ => ?_
  refine Sim.bind (follows_isInvalidCsrAccess _ _) ?_
  rintro invalid _ rfl
  refine Sim.ite Iff.rfl (fun _ => follows_raiseIllegalInstruction) fun _ => ?_
  refine Sim.bind (Sim.when Iff.rfl fun _ => Sim.bind (follows_getCsrValue _) ?_) fun _ _ _ => ?_
  · rintro value _ rfl
    exact follows_write lawful ⟨.BVC _⟩
  · refine Sim.bind (reads _ _ (.intro registers)) ?_
    rintro value _ rfl
    exact follows_setCsrValue _ _

theorem follows_csrModify {α : Type} {operands : α → α → Prop} {writes : Hart P.clover.terms → Bool}
    {prepare : Hart P.clover.terms → IssM P α} {update : α → BitVec 32 → IssM P (BitVec 32)}
    (same : ∀ hart hart', Hart.Replays other hart hart' → writes hart' = writes hart)
    (prepares : ∀ hart hart', Hart.Replays other hart hart' →
      Follows other kept operands (prepare hart) (prepare hart'))
    (updates : ∀ operand operand' csrVal, operands operand operand' →
      Follows other kept Eq (update operand csrVal) (update operand' csrVal)) :
    Follows other kept Board.Done (csrModify writes prepare update)
      (csrModify writes prepare update) := by
  refine follows_getHart fun hart _ ⟨registers⟩ => ?_
  have harts : Hart.Replays other hart _ := .intro registers
  have chosen := same _ _ harts
  dsimp only
  rw [chosen]
  refine Sim.bind (follows_isInvalidCsrAccess _ _) ?_
  rintro invalid _ rfl
  refine Sim.ite Iff.rfl (fun _ => follows_raiseIllegalInstruction) fun _ => ?_
  refine Sim.bind (prepares _ _ harts) fun operand operand' related => ?_
  refine Sim.bind (follows_getCsrValue _) ?_
  rintro csrVal _ rfl
  refine Sim.bind (Sim.when Iff.rfl fun _ => follows_write lawful ⟨.BVC _⟩) fun _ _ _ => ?_
  refine Sim.when Iff.rfl fun _ => Sim.bind (updates _ _ _ related) ?_
  rintro value _ rfl
  exact follows_setCsrValue _ _

end Computations

theorem follows_wfi : Follows other kept Board.Done wfi wfi := by
  refine Sim.bind follows_releaseLrScReservation fun _ _ _ => ?_
  refine follows_getState fun hart _ board _ ⟨_⟩ ⟨_⟩ => ?_
  refine Sim.ite Iff.rfl (fun _ => follows_raiseIllegalInstruction) fun _ => ?_
  refine Sim.ite Iff.rfl (fun _ => follows_raiseIllegalInstruction) fun _ => ?_
  refine Sim.ite Iff.rfl (fun _ => ?_) fun _ => Sim.pure trivial
  exact follows_memory fun _ => Board.follows_waitFor _

theorem follows_ecall : Follows other kept Board.Done ecall ecall := by
  refine follows_getHart fun hart _ ⟨_⟩ => ?_
  refine Sim.ite Iff.rfl (fun _ => Sim.throw _) fun _ => ?_
  refine Sim.ite Iff.rfl (fun _ => Sim.throw _) fun _ => ?_
  exact Sim.ite Iff.rfl (fun _ => Sim.throw _) fun _ => Sim.throw _

theorem follows_ebreak : Follows other kept Board.Done ebreak ebreak :=
  follows_modifyHart (fun _ _ ⟨registers⟩ => .intro registers) fun _ => rfl

/-! ## Loads and stores -/

theorem follows_trapCheckAddrAlignment (alignment : Nat) (isLoad : Bool)
    {addr addr' : ConcolicValue P.clover.terms 32}
    (place : ConcolicValue.Replays other addr addr') :
    Follows other kept Board.Done (trapCheckAddrAlignment alignment isLoad addr)
      (trapCheckAddrAlignment alignment isLoad addr') := by
  refine Sim.bind (follows_getValue (by decide) place) ?_
  rintro caddr _ rfl
  exact Sim.when Iff.rfl fun _ => Sim.throw _

section Accesses

variable (lawful : P.clover.Lawful) (walkless : P.mmuMem = false)
  {input : P.clover.terms.Assignment}
  (answers : ∀ core, Socket.Follows other (bus core input : Socket P) (bus core other))

include lawful walkless answers

section Checked

variable {check : ConcolicValue P.clover.terms 32 → IssM P Unit}
  (checks : ∀ addr addr', ConcolicValue.Replays other addr addr' →
    Follows other kept Board.Done (check addr) (check addr')) (numBytes : Nat)

include checks

theorem follows_store (fits : 8 * numBytes ≤ 32) :
    Follows other kept Board.Done (store input check numBytes) (store other check numBytes) := by
  refine follows_getHart fun hart hart' harts => ?_
  have place := (lawful.binary .add 32).replays harts.rs1Value (harts.sImm lawful) trivial
  refine Sim.bind (checks _ _ place) fun _ _ _ => follows_memory fun core => ?_
  exact follows_storeBytes (answers core) walkless core place harts.rs2Value fits

theorem follows_load :
    Follows other kept Board.Done (load input check numBytes) (load other check numBytes) := by
  refine follows_getHart fun hart hart' harts => ?_
  have place := (lawful.binary .add 32).replays harts.rs1Value (harts.iImm lawful) trivial
  refine Sim.bind (checks _ _ place) fun _ _ _ => ?_
  refine Sim.bind (follows_memory fun core =>
    follows_loadSigned (answers core) walkless core place lawful numBytes) ?_
  intro value value' loaded
  obtain ⟨_⟩ := harts
  exact follows_write lawful ⟨loaded⟩

theorem follows_loadUnsigned : Follows other kept Board.Done (loadUnsigned input check numBytes)
    (loadUnsigned other check numBytes) := by
  refine follows_getHart fun hart hart' harts => ?_
  have place := (lawful.binary .add 32).replays harts.rs1Value (harts.iImm lawful) trivial
  refine Sim.bind (checks _ _ place) fun _ _ _ => ?_
  refine Sim.bind (follows_memory fun core =>
    SymexVP.follows_loadUnsigned (answers core) walkless core place lawful numBytes) ?_
  intro value value' loaded
  obtain ⟨_⟩ := harts
  exact follows_write lawful loaded

end Checked

/-! ## Atomic instructions -/

theorem follows_lrW : Follows other kept Board.Done (lrW input) (lrW other) := by
  refine Sim.bind (follows_requireIsa _) fun _ _ _ => follows_getHart fun hart _ ⟨registers⟩ => ?_
  have harts : Hart.Replays other hart _ := .intro registers
  refine Sim.bind (follows_trapCheckAddrAlignment _ _ harts.rs1Value) fun _ _ _ => ?_
  refine Sim.bind (follows_memory fun core => follows_atomicLoadReservedWord (answers core) walkless
    core harts.rs1Value lawful (registers hart.rs1).object) fun value value' loaded => ?_
  refine Sim.bind (follows_write lawful ⟨loaded⟩) fun _ _ _ => ?_
  exact follows_modifyHart (fun _ _ ⟨registers⟩ => .intro registers) fun _ => rfl

theorem follows_scW : Follows other kept Board.Done (scW input) (scW other) := by
  refine Sim.bind (follows_requireIsa _) fun _ _ _ => follows_getHart fun hart _ ⟨registers⟩ => ?_
  have harts : Hart.Replays other hart _ := .intro registers
  refine Sim.bind (follows_trapCheckAddrAlignment _ _ harts.rs1Value) fun _ _ _ => ?_
  refine Sim.bind (follows_write lawful ⟨.BVC 1⟩) fun _ _ _ => ?_
  refine Sim.bind (follows_memory fun core => follows_atomicStoreConditionalWord (answers core)
    walkless core harts.rs1Value harts.rs2Value (registers hart.rs1).object) ?_
  rintro stored _ rfl
  refine Sim.bind (follows_write lawful ⟨.BVC _⟩) fun _ _ _ => ?_
  exact follows_modifyHart (fun _ _ ⟨registers⟩ => .intro registers) fun _ => rfl

theorem follows_executeAmo (operation : ConcolicValue P.clover.terms 32 →
      ConcolicValue P.clover.terms 32 → ConcolicValue P.clover.terms 32)
    (computes : ∀ a a' b b', ConcolicValue.Replays other a a' → ConcolicValue.Replays other b b' →
      ConcolicValue.Replays other (operation a b) (operation a' b')) :
    Follows other kept Board.Done (executeAmo input operation) (executeAmo other operation) := by
  refine Sim.bind (follows_requireIsa _) fun _ _ _ => follows_getHart fun hart _ ⟨registers⟩ => ?_
  have harts : Hart.Replays other hart _ := .intro registers
  refine Sim.bind (follows_trapCheckAddrAlignment _ _ harts.rs1Value) fun _ _ _ => ?_
  refine Sim.bind (Sim.tryCatch (follows_memory fun core =>
    follows_atomicLoadWord (answers core) walkless core harts.rs1Value lawful) fun fault => ?_)
    fun data data' loaded => ?_
  · split
    · exact Sim.throw _
    · exact Sim.throw _
  refine Sim.bind (follows_memory fun core => follows_atomicStoreWord (answers core) walkless core
    harts.rs1Value (computes _ _ _ _ loaded harts.rs2Value)) fun _ _ _ => ?_
  exact follows_write lawful ⟨loaded⟩

end Accesses

/-! ## Recorded tests -/

/-- What a test of a value is recorded as. -/
def recorded (cond : Bool) (expr : ConcolicValue P.clover.terms 1) (pc : BitVec 32) :
    List (Event P.clover.terms) :=
  match expr.symbolic with
  | some expression => [.branch cond expression pc]
  | none => []

theorem trackAndTraceBranch_run (cond : Bool) (expr : ConcolicValue P.clover.terms 1)
    (state : State P) : (trackAndTraceBranch cond expr).run state =
      ⟨.ok (), state, recorded cond expr state.hart.lastPc⟩ := by
  obtain ⟨concrete, symbolic⟩ := expr
  cases symbolic with
  | none => rfl
  | some expression => rfl

/-- A test that is recorded as the second assignment decides it has one outcome in both runs. -/
theorem outcome_eq {expr expr' : ConcolicValue P.clover.terms 1}
    (replays : ConcolicValue.Replays other expr expr') (pc : BitVec 32)
    (accepted : ∀ event ∈ recorded (expr.concrete == 1) expr pc, Event.Replayable other event) :
    (expr'.concrete == 1) = (expr.concrete == 1) := by
  obtain ⟨concrete, symbolic⟩ := expr
  obtain ⟨-, evaluated⟩ := replays
  rw [evaluated]
  cases symbolic with
  | none => rfl
  | some expression =>
      have same : P.clover.terms.eval other expression = BitVec.ofBool (concrete == 1) :=
        (accepted _ (List.mem_singleton_self _)).sameWay
      show (P.clover.terms.eval other expression == 1) = _
      rw [same]
      cases concrete == 1 <;> rfl

/-- Act on a test of the registers, then record it. -/
def actOnTest (test : Hart P.clover.terms → ConcolicValue P.clover.terms 1)
    (change : Bool → Hart P.clover.terms → Hart P.clover.terms) : IssM P Unit := do
  let hart ← getHart
  modifyHart (change ((test hart).concrete == 1))
  trackAndTraceBranch ((test hart).concrete == 1) (test hart)

section Tests

variable {test : Hart P.clover.terms → ConcolicValue P.clover.terms 1}
  {change : Bool → Hart P.clover.terms → Hart P.clover.terms}

theorem actOnTest_run (last : ∀ cond hart, (change cond hart).lastPc = hart.lastPc)
    (hart : Hart P.clover.terms) (board : Board P) :
    (actOnTest test change).run ⟨hart, board⟩ =
      ⟨.ok (), ⟨change ((test hart).concrete == 1) hart, board⟩,
        recorded ((test hart).concrete == 1) (test hart) hart.lastPc⟩ := by
  have traced := trackAndTraceBranch_run ((test hart).concrete == 1) (test hart)
    (⟨change ((test hart).concrete == 1) hart, board⟩ : State P)
  rw [last] at traced
  exact traced

/-- Both runs act on the test in the same way, once it is recorded. -/
theorem follows_actOnTest
    (tests : ∀ hart hart', Hart.Replays other hart hart' →
      ConcolicValue.Replays other (test hart) (test hart'))
    (changes : ∀ hart hart' cond, Hart.Replays other hart hart' →
      ((test hart').concrete == 1) = cond →
      Hart.Replays other (change cond hart) (change cond hart'))
    (last : ∀ cond hart, (change cond hart).lastPc = hart.lastPc) :
    Follows other kept Board.Done (actOnTest test change) (actOnTest test change) := by
  rintro _ _ ⟨harts, boards, holds⟩ accepted
  rename_i hart hart' board board'
  rw [actOnTest_run last] at accepted ⊢
  rw [actOnTest_run last]
  have replays := tests _ _ harts
  have same := outcome_eq replays hart.lastPc accepted
  have logged : recorded ((test hart').concrete == 1) (test hart') hart'.lastPc =
      recorded ((test hart).concrete == 1) (test hart) hart.lastPc := by
    rw [same, recorded, replays.symbolic]
    obtain ⟨_⟩ := harts
    rfl
  rw [same] at logged ⊢
  exact ⟨logged, ⟨changes _ _ _ harts same, boards, by rwa [last]⟩, .ok trivial⟩

end Tests

/-! ## Branches and divisions -/

/-- A jump to an even address is always taken. -/
theorem jumpTo_run {target : BitVec 32} (even : IsEven target) (hart : Hart P.clover.terms)
    (board : Board P) : (jumpTo target : IssM P Unit).run ⟨hart, board⟩ =
      ⟨.ok (), ⟨{ hart with pc := target }, board⟩, []⟩ := by
  have present : ¬(target &&& 3 ≠ 0 ∧ ¬hart.csrs.misa.has Misa.C) := fun misaligned =>
    misaligned.2 (Misa.has_C _)
  show ((Exec.require (target &&& 1 = 0) _ >>= fun _ => Exec.when (_ ∧ _) _ : IssM P Unit).run
    ⟨{ hart with pc := target }, board⟩) = _
  rw [require_of (isEven_iff_and.mp even), Exec.when, if_neg present]
  rfl

theorem branch_run (operation : CompareOp) {hart : Hart P.clover.terms} (even : IsEven hart.lastPc)
    (board : Board P) : (branch operation : IssM P Unit).run ⟨hart, board⟩ =
      (actOnTest (fun hart => P.clover.compare operation hart.rs1Value hart.rs2Value)
        fun cond hart => if cond then { hart with pc := hart.lastPc + hart.instr.bImm }
          else hart).run ⟨hart, board⟩ := by
  rw [actOnTest_run (by intro cond hart; cases cond <;> rfl)]
  unfold branch
  simp only [getHart, bind_run, get_run, pure_run, Outcome.andThen_ok, List.nil_append]
  by_cases taken : (P.clover.compare operation hart.rs1Value hart.rs2Value).concrete == 1
  · have jumped := jumpTo_run (even.add (isEven_bImm hart.instr)) hart board
    rw [Exec.when, if_pos taken, jumped, Outcome.andThen_ok, trackAndTraceBranch_run, if_pos taken]
    rfl
  · rw [Exec.when, if_neg taken, pure_run, Outcome.andThen_ok, trackAndTraceBranch_run,
      if_neg taken]
    rfl

section Divisions

variable (lawful : P.clover.Lawful)

include lawful

/-- A branch cannot trap after it was decided and before it is recorded. -/
theorem follows_branch (operation : CompareOp) :
    Follows other IsEven Board.Done (branch operation) (branch operation) := by
  have decided : Follows other IsEven Board.Done
      (actOnTest (fun hart => P.clover.compare operation hart.rs1Value hart.rs2Value)
        fun cond hart => if cond then { hart with pc := hart.lastPc + hart.instr.bImm } else hart)
      (actOnTest (fun hart => P.clover.compare operation hart.rs1Value hart.rs2Value)
        fun cond hart =>
          if cond then { hart with pc := hart.lastPc + hart.instr.bImm } else hart) := by
    refine follows_actOnTest (fun _ _ harts => ?_) ?_ fun cond hart => ?_
    · exact (lawful.compare operation 32).replays harts.rs1Value harts.rs2Value trivial
    · rintro hart _ cond ⟨registers⟩ -
      cases cond with
      | true => exact .intro registers
      | false => exact .intro registers
    · cases cond <;> rfl
  rintro _ _ ⟨⟨registers⟩, boards, even⟩ accepted
  rw [branch_run operation even] at accepted ⊢
  rw [branch_run operation (by exact even)]
  exact decided _ _ ⟨⟨registers⟩, boards, even⟩ accepted

theorem follows_divide {onZero : Hart P.clover.terms → Hart P.clover.terms}
    {result : Hart P.clover.terms → ConcolicValue P.clover.terms 32}
    (zero : ∀ hart hart', Hart.Replays other hart hart' →
      Hart.Replays other (onZero hart) (onZero hart'))
    (last : ∀ hart, (onZero hart).lastPc = hart.lastPc)
    (results : ∀ hart hart', Hart.Replays other hart hart' → hart.rs2Value.under other ≠ 0 →
      ConcolicValue.Replays other (result hart) (result hart')) :
    Follows other kept Board.Done (divide onZero result) (divide onZero result) := by
  have divided : divide onZero result = (do
      requireIsa Misa.M
      actOnTest (fun hart => P.clover.compare .eq hart.rs2Value (.BVC 0)) fun cond hart =>
        if cond then onZero hart else hart.write hart.rd ⟨32, result hart⟩ : IssM P Unit) := by
    unfold divide actOnTest
    refine congrArg _ (funext fun _ => congrArg _ (funext fun hart => ?_))
    dsimp only
    cases (P.clover.compare .eq hart.rs2Value (.BVC 0)).concrete == 1 <;> rfl
  rw [divided]
  refine Sim.bind (follows_requireIsa _) fun _ _ _ => follows_actOnTest ?_ ?_ ?_
  · intro hart hart' harts
    exact (lawful.compare .eq 32).replays harts.rs2Value (.BVC 0) trivial
  · intro hart hart' cond harts decided
    cases cond with
    | true => exact zero _ _ harts
    | false =>
        -- the second run divides by what the divisor is under the second assignment
        have divisor : hart.rs2Value.under other ≠ 0 := by
          intro vanishes
          rw [(lawful.compare .eq 32).concrete _ _ trivial, harts.rs2Value.concrete, vanishes]
            at decided
          cases decided
        have divided := results _ _ harts divisor
        obtain ⟨registers⟩ := harts
        have harts : Hart.Replays other hart _ := .intro registers
        exact harts.write lawful ⟨divided⟩
  · intro cond hart
    cases cond with
    | true => exact last hart
    | false => exact lastPc_write hart hart.rd ⟨32, result hart⟩

section Quotients

variable {hart hart' : Hart P.clover.terms} (harts : Hart.Replays other hart hart')

include harts

theorem replays_overflow : ConcolicValue.Replays other (overflow hart) (overflow hart') := by
  refine (lawful.binary .band 1).replays ?_ ?_ trivial
  · exact (lawful.compare .eq 32).replays harts.rs1Value (.BVC _) trivial
  · exact (lawful.compare .eq 32).replays harts.rs2Value (.BVC _) trivial

theorem replays_binary {operation : BinaryOp}
    (domain : operation.Defined (hart.rs1Value.under other) (hart.rs2Value.under other)) :
    ConcolicValue.Replays other (P.clover.binary operation hart.rs1Value hart.rs2Value)
      (P.clover.binary operation hart'.rs1Value hart'.rs2Value) :=
  (lawful.binary operation 32).replays harts.rs1Value harts.rs2Value domain

omit lawful in
theorem replays_copyRs1 : Hart.Replays other (copyRs1 hart) (copyRs1 hart') := by
  obtain ⟨registers⟩ := harts
  have harts : Hart.Replays other hart _ := .intro registers
  exact harts.assign (registers hart.rs1)

theorem replays_allOnes : Hart.Replays other (allOnes hart) (allOnes hart') := by
  obtain ⟨registers⟩ := harts
  have harts : Hart.Replays other hart _ := .intro registers
  exact harts.write lawful ⟨.BVC _⟩

end Quotients

theorem follows_div : Follows other kept Board.Done div div := by
  refine follows_divide lawful (fun _ _ => replays_allOnes lawful)
    (fun hart => lastPc_write hart _ _) fun _ _ harts divisor => ?_
  refine (lawful.select 32).replays (replays_overflow lawful harts) harts.rs1Value ?_
  exact replays_binary lawful harts divisor

theorem follows_divu : Follows other kept Board.Done divu divu :=
  follows_divide lawful (fun _ _ => replays_allOnes lawful) (fun hart => lastPc_write hart _ _)
    fun _ _ harts divisor => replays_binary lawful harts divisor

theorem follows_rem : Follows other kept Board.Done rem rem := by
  refine follows_divide lawful (fun _ _ => replays_copyRs1) (fun _ => rfl)
    fun _ _ harts divisor => ?_
  refine (lawful.select 32).replays (replays_overflow lawful harts) (.BVC _) ?_
  exact replays_binary lawful harts divisor

theorem follows_remu : Follows other kept Board.Done remu remu :=
  follows_divide lawful (fun _ _ => replays_copyRs1) (fun _ => rfl)
    fun _ _ harts divisor => replays_binary lawful harts divisor

theorem replays_chooseByComparison (operation : CompareOp) (whenTrue whenFalse : Bool)
    {a a' b b' : ConcolicValue P.clover.terms 32} (first : ConcolicValue.Replays other a a')
    (second : ConcolicValue.Replays other b b') :
    ConcolicValue.Replays other (chooseByComparison operation whenTrue whenFalse a b)
      (chooseByComparison operation whenTrue whenFalse a' b') := by
  have either : ∀ chosen : Bool, ConcolicValue.Replays other (if chosen then a else b)
      (if chosen then a' else b') := by
    intro chosen
    cases chosen with
    | true => exact first
    | false => exact second
  exact (lawful.select 32).replays ((lawful.compare operation 32).replays first second trivial)
    (either whenTrue) (either whenFalse)

end Divisions

/-! ## The switch over opcodes -/

section Switch

variable (lawful : P.clover.Lawful) (walkless : P.mmuMem = false)
  {input : P.clover.terms.Assignment}
  (answers : ∀ core, Socket.Follows other (bus core input : Socket P) (bus core other))

include lawful walkless answers

theorem follows_execute (op : Mapping) :
    Follows other IsEven Board.Done (execute input op) (execute other op) := by
  have unchecked : ∀ addr addr', ConcolicValue.Replays other addr addr' →
      Follows other IsEven Board.Done (Iss.unchecked addr : IssM P Unit) (Iss.unchecked addr') :=
    fun _ _ _ => Sim.pure trivial
  have aligned : ∀ alignment isLoad addr addr', ConcolicValue.Replays other addr addr' →
      Follows other IsEven Board.Done (trapCheckAddrAlignment alignment isLoad addr : IssM P Unit)
        (trapCheckAddrAlignment alignment isLoad addr') :=
    fun _ _ _ _ place => follows_trapCheckAddrAlignment _ _ place
  have extends₁ := fun value value' (replays : ConcolicValue.Replays other value value') =>
    (lawful.sext 32 64).replays replays
  have extends₂ := fun value value' (replays : ConcolicValue.Replays other value value') =>
    (lawful.zext 32 64).replays replays
  have combined : ∀ operation : BinaryOp, (∀ a b : BitVec 32, operation.Defined a b) →
      Follows other IsEven Board.Done
        (executeAmo input fun a b => P.clover.binary operation a b)
        (executeAmo other fun a b => P.clover.binary operation a b) := fun operation total =>
    follows_executeAmo lawful walkless answers _ fun _ _ _ _ first second =>
      (lawful.binary operation 32).replays first second (total _ _)
  cases op with
  | undefined => exact follows_raiseIllegalInstruction
  | addi | xori | ori | andi =>
      exact follows_arithmetic lawful (fun _ _ harts => harts.iImm lawful) fun _ _ => trivial
  | slti | sltiu => exact follows_comparison lawful (fun _ _ harts => harts.iImm lawful) _
  | add | sub | xor | or | and =>
      exact follows_arithmetic lawful (fun _ _ harts => harts.rs2Value) fun _ _ => trivial
  | sll | srl | sra =>
      exact follows_arithmetic lawful (fun _ _ harts => harts.rs2Shamt lawful) fun _ _ => trivial
  | slt | sltu => exact follows_comparison lawful (fun _ _ harts => harts.rs2Value) _
  | slli | srli | srai =>
      exact follows_arithmetic lawful (fun _ _ harts => harts.shamt) fun _ _ => trivial
  | lui => exact follows_compute lawful fun _ _ harts => ⟨harts.uImm⟩
  | auipc =>
      refine follows_compute lawful fun hart _ ⟨registers⟩ => ⟨?_⟩
      exact (lawful.binary .add 32).replays (.BVC _) (.BVC _) trivial
  | jal => exact follows_jal lawful
  | jalr => exact follows_jalr lawful
  | sb => exact follows_store lawful walkless answers unchecked 1 (by decide)
  | sh => exact follows_store lawful walkless answers (aligned 2 false) 2 (by decide)
  | sw => exact follows_store lawful walkless answers (aligned 4 false) 4 (by decide)
  | lb => exact follows_load lawful walkless answers unchecked 1
  | lh | lw => exact follows_load lawful walkless answers (aligned _ true) _
  | lbu => exact follows_loadUnsigned lawful walkless answers unchecked 1
  | lhu => exact follows_loadUnsigned lawful walkless answers (aligned 2 true) 2
  | beq | bne | blt | bge | bltu | bgeu => exact follows_branch lawful _
  | fence | fenceI => exact Sim.pure trivial
  | ecall => exact follows_ecall
  | ebreak => exact follows_ebreak
  | csrrw =>
      exact follows_csrWrite lawful fun _ _ harts => follows_getValue (by decide) harts.rs1Value
  | csrrwi => exact follows_csrWrite lawful fun _ _ ⟨_⟩ => Sim.pure rfl
  | csrrs =>
      refine follows_csrModify lawful (fun _ _ ⟨_⟩ => rfl)
        (fun _ _ harts => Sim.pure harts.rs1Value) fun rs1 rs1' csrVal replays => ?_
      refine Sim.bind (follows_getValue (by decide) replays) ?_
      rintro value _ rfl
      exact Sim.pure rfl
  | csrrc =>
      refine follows_csrModify lawful (fun _ _ ⟨_⟩ => rfl)
        (fun _ _ harts => follows_getValue (by decide) harts.rs1Value) ?_
      rintro value _ csrVal rfl
      exact Sim.pure rfl
  | csrrsi | csrrci =>
      refine follows_csrModify lawful (fun _ _ ⟨_⟩ => rfl) (fun _ _ ⟨_⟩ => Sim.pure rfl) ?_
      rintro zimm _ csrVal rfl
      exact Sim.pure rfl
  | mul | mulh => exact follows_multiply lawful extends₁ extends₁ _
  | mulhu => exact follows_multiply lawful extends₂ extends₂ _
  | mulhsu => exact follows_multiply lawful extends₁ extends₂ _
  | div => exact follows_div lawful
  | divu => exact follows_divu lawful
  | rem => exact follows_rem lawful
  | remu => exact follows_remu lawful
  | lrW => exact follows_lrW lawful walkless answers
  | scW => exact follows_scW lawful walkless answers
  | amoswapW =>
      exact follows_executeAmo lawful walkless answers (fun _ b => b) fun _ _ _ _ _ second => second
  | amoaddW => exact combined .add fun _ _ => trivial
  | amoxorW => exact combined .bxor fun _ _ => trivial
  | amoandW => exact combined .band fun _ _ => trivial
  | amoorW => exact combined .bor fun _ _ => trivial
  | amominW | amominuW | amomaxW | amomaxuW =>
      exact follows_executeAmo lawful walkless answers _ fun _ _ _ _ first second =>
        replays_chooseByComparison lawful _ _ _ first second
  | wfi => exact follows_wfi
  | mret => exact follows_returnFromTrapHandler _
  | _ => exact Sim.throw _

end Switch

end SymexVP.Iss
