import SymexVP.TrapHandling

/-!
# Access control of the CSR instructions

Which accesses are refused is spread over the six instructions, a check of the register
number, a check of the counters and the two switches. Put together it is one condition
on the number, the current level and three registers. It differs from the one the
architecture gives in one point: `TVM`, which is meant to keep supervisor mode away
from `satp`, keeps machine mode away as well.
-/

namespace SymexVP.Iss

open Exec Opcode BitFields

variable {P : Platform} (input : P.clover.terms.Assignment)

/-- The computation ends in an illegal-instruction exception. -/
def Refuses {α : Type} (body : IssM P α) (state : State P) : Prop :=
  ∃ mtval, (body.run state).result = .error (.trap ⟨.illegalInstr, mtval⟩)

theorem refuses_bind {α β : Type} {first : IssM P α} {next : α → IssM P β} {state : State P} :
    Refuses (first >>= next) state ↔
      Refuses first state ∨ ∃ value, (first.run state).result = .ok value ∧
        Refuses (next value) (first.run state).state := by
  simp only [Refuses, bind_eq_error]
  constructor
  · rintro ⟨mtval, thrown | ⟨value, returned, thrown⟩⟩
    · exact .inl ⟨mtval, thrown⟩
    · exact .inr ⟨value, returned, mtval, thrown⟩
  · rintro (⟨mtval, thrown⟩ | ⟨value, returned, mtval, thrown⟩)
    · exact ⟨mtval, .inl thrown⟩
    · exact ⟨mtval, .inr ⟨value, returned, thrown⟩⟩

theorem refuses_raiseIllegalInstruction {α : Type} (state : State P) :
    Refuses (raiseIllegalInstruction : IssM P α) state := ⟨_, rfl⟩

theorem not_refuses_pure {α : Type} (value : α) (state : State P) :
    ¬Refuses (pure value : IssM P α) state := by
  rintro ⟨mtval, ⟨⟩⟩

theorem not_refuses_modifyHart (change : Hart P.clover.terms → Hart P.clover.terms)
    (state : State P) : ¬Refuses (modifyHart change : IssM P Unit) state := by
  rintro ⟨mtval, ⟨⟩⟩

/-! ## The four checks -/

/-- A register number some case of the switches handles. -/
def Implemented (address : BitVec 32) : Prop :=
  isHpmCounter address = true ∨ ∃ name, CsrName.find address = some name

theorem isInvalidCsrAccess_run (address : BitVec 32) (isWrite : Bool) (state : State P) :
    (isInvalidCsrAccess address isWrite).run state =
      ⟨.ok (isWrite && csrReadonly address || decide (state.hart.prv < csrPrv address)), state,
        []⟩ := by
  simp [isInvalidCsrAccess, requireIsa, Exec.when, getHart]

/-- The register is `satp` and `TVM` is set. -/
def TvmForbids (csrs : CsrTable) (address : BitVec 32) : Prop :=
  address = CsrName.satp.addr ∧ csrs.mstatus.getLsbD Mstatus.tvm.lo = true

theorem forbidden_iff {csrs : CsrTable} {address : BitVec 32} {name : CsrName}
    (found : CsrName.find address = some name) :
    name.forbidden csrs = true ↔ TvmForbids csrs address := by
  have addressed := CsrName.addr_of_find found
  constructor
  · intro blocked
    cases name with
    | satp => exact ⟨addressed.symm, blocked⟩
    | _ => cases blocked
  · rintro ⟨rfl, set⟩
    have self : CsrName.find CsrName.satp.addr = some .satp := rfl
    rw [self] at found
    cases found
    exact set

theorem refuses_readCsr (name : CsrName) (state : State P) :
    Refuses (readCsr name) state ↔ name.forbidden state.hart.csrs = true := by
  unfold Refuses
  by_cases computed : name.refreshed = true
  · have allowed : name.forbidden state.hart.csrs = false := by
      cases name <;> first | rfl | cases computed
    rw [allowed, readCsr_refreshed computed]
    refine ⟨?_, nofun⟩
    rintro ⟨mtval, thrown⟩
    exact absurd thrown (refreshedValue_ne_trap _ _ _)
  · rw [readCsr_run (Bool.eq_false_of_not_eq_true computed)]
    split
    · next blocked => exact ⟨fun _ => blocked, fun _ => ⟨_, rfl⟩⟩
    · next allowed =>
        refine ⟨?_, fun blocked => absurd blocked allowed⟩
        rintro ⟨mtval, ⟨⟩⟩

theorem refuses_writeCsr (name : CsrName) (value : BitVec 32) (state : State P) :
    Refuses (writeCsr name value) state ↔ name.forbidden state.hart.csrs = true := by
  unfold Refuses
  rw [writeCsr_run]
  split
  · next blocked => exact ⟨fun _ => blocked, fun _ => ⟨_, rfl⟩⟩
  · next allowed =>
      refine ⟨?_, fun blocked => absurd blocked allowed⟩
      rintro ⟨mtval, ⟨⟩⟩

/-- What the two switches have in common: a counter is always accepted, a number without a
register is refused, and a register decides for itself. -/
theorem refuses_switch {α : Type} {address : BitVec 32} {state : State P} {counted : α}
    {body : CsrName → IssM P α}
    (named : ∀ name, Refuses (body name) state ↔ name.forbidden state.hart.csrs = true) :
    Refuses (if isHpmCounter address then pure counted
      else match CsrName.find address with
        | some name => body name
        | none => raiseIllegalInstruction) state ↔
      ¬Implemented address ∨ TvmForbids state.hart.csrs address := by
  by_cases counter : isHpmCounter address = true
  · rw [if_pos counter]
    refine ⟨fun refused => absurd refused (not_refuses_pure _ _), ?_⟩
    rintro (missing | ⟨rfl, -⟩)
    · exact absurd (.inl counter) missing
    · cases counter
  rw [if_neg counter]
  cases found : CsrName.find address with
  | none =>
      refine ⟨fun _ => .inl ?_, fun _ => refuses_raiseIllegalInstruction _⟩
      rintro (impossible | ⟨name, named⟩)
      · exact counter impossible
      · rw [found] at named
        cases named
  | some name =>
      have implemented : Implemented address := .inr ⟨name, found⟩
      simp only [implemented, not_true_eq_false, false_or, named, forbidden_iff found]

theorem refuses_getCsrValue (address : BitVec 32) (state : State P) :
    Refuses (getCsrValue address) state ↔
      CounterForbidden state.hart address ∨ ¬Implemented address ∨
        TvmForbids state.hart.csrs address := by
  rw [getCsrValue, refuses_bind, Refuses, validateCsrCounterReadAccessRights_run]
  by_cases forbidden : CounterForbidden state.hart address
  · rw [if_pos forbidden]
    exact ⟨fun _ => .inl forbidden, fun _ => .inl ⟨_, rfl⟩⟩
  · rw [if_neg forbidden, ← refuses_switch fun name => refuses_readCsr name state]
    constructor
    · rintro (⟨mtval, ⟨⟩⟩ | ⟨_, -, refused⟩)
      exact .inr refused
    · rintro (impossible | refused)
      · exact absurd impossible forbidden
      · exact .inr ⟨(), rfl, refused⟩

theorem refuses_setCsrValue (address value : BitVec 32) (state : State P) :
    Refuses (setCsrValue address value) state ↔
      ¬Implemented address ∨ TvmForbids state.hart.csrs address :=
  refuses_switch fun name => refuses_writeCsr name value state

/-! ## The six instructions -/

/-- Whether a CSR instruction reads its register. -/
def csrReads {terms : Terms} (op : Mapping) (hart : Hart terms) : Bool :=
  match op with
  | .csrrw | .csrrwi => hart.rd != 0
  | _ => true

/-- Whether it writes it. -/
def csrWrites {terms : Terms} (op : Mapping) (hart : Hart terms) : Bool :=
  match op with
  | .csrrs | .csrrc => hart.rs1 != 0
  | .csrrsi | .csrrci => hart.instr.zimm != 0
  | _ => true

/-- When an access is refused, as the code has it. -/
def AccessRefused (hart : Hart P.clover.terms) (address : BitVec 32) (reads writes : Bool) : Prop :=
  writes = true ∧ csrReadonly address = true ∨ hart.prv < csrPrv address ∨ ¬Implemented address ∨
    reads = true ∧ CounterForbidden hart address ∨ TvmForbids hart.csrs address

theorem refuses_checked (address : BitVec 32) (isWrite : Bool) (body : IssM P Unit)
    (state : State P) :
    Refuses (do
        let invalid ← isInvalidCsrAccess address isWrite
        if invalid then raiseIllegalInstruction else body) state ↔
      (isWrite = true ∧ csrReadonly address = true ∨ state.hart.prv < csrPrv address) ∨
        Refuses body state := by
  rw [refuses_bind, Refuses, isInvalidCsrAccess_run]
  have invalid : (isWrite && csrReadonly address || decide (state.hart.prv < csrPrv address)) =
      true ↔ isWrite = true ∧ csrReadonly address = true ∨ state.hart.prv < csrPrv address := by
    simp
  rw [← invalid]
  generalize (isWrite && csrReadonly address || decide (state.hart.prv < csrPrv address)) = check
  cases check with
  | true => exact ⟨fun _ => .inl rfl, fun _ => .inr ⟨true, rfl, refuses_raiseIllegalInstruction _⟩⟩
  | false =>
      constructor
      · rintro (⟨mtval, ⟨⟩⟩ | ⟨_, ⟨⟩, refused⟩)
        exact .inr refused
      · rintro (⟨⟨⟩⟩ | refused)
        exact .inr ⟨false, rfl, refused⟩

/-- A computation that returns and leaves the state alone, as taking an operand does. -/
def Plain {α : Type} (body : IssM P α) : Prop :=
  ∀ state, ∃ value, (body.run state).result = .ok value ∧ (body.run state).state = state

theorem plain_pure {α : Type} (value : α) : Plain (pure value : IssM P α) :=
  fun _ => ⟨value, rfl, rfl⟩

theorem plain_getValue {width : Nat} (use : Use) (value : ConcolicValue P.clover.terms width) :
    Plain (getValue use value) :=
  fun _ => ⟨value.concrete, rfl, rfl⟩

/-- What comes after a plain computation decides whether it is refused. -/
theorem Plain.refuses_bind {α β : Type} {first : IssM P α} (plain : Plain first)
    {next : α → IssM P β} {state : State P} {refused : Prop}
    (rest : ∀ value, Refuses (next value) state ↔ refused) :
    Refuses (first >>= next) state ↔ refused := by
  obtain ⟨value, returned, same⟩ := plain state
  rw [Iss.refuses_bind, same]
  constructor
  · rintro (⟨mtval, thrown⟩ | ⟨other, -, later⟩)
    · rw [returned] at thrown
      cases thrown
    · exact (rest other).mp later
  · intro holds
    exact .inr ⟨value, returned, (rest value).mpr holds⟩

/-- Whether `TVM` forbids an access is part of the control state. -/
theorem tvmForbids_of_control {state other : State P} (same : control other = control state)
    (address : BitVec 32) :
    TvmForbids other.hart.csrs address ↔ TvmForbids state.hart.csrs address := by
  have status : other.hart.csrs.mstatus = state.hart.csrs.mstatus :=
    congrArg (fun control => control.csrs.mstatus) same
  rw [TvmForbids, TvmForbids, status]

theorem refuses_when {condition : Prop} [Decidable condition] {body : IssM P Unit}
    {state : State P} : Refuses (Exec.when condition body) state ↔ condition ∧ Refuses body state := by
  unfold Exec.when
  split
  · next holds => exact ⟨fun refused => ⟨holds, refused⟩, And.right⟩
  · next fails =>
      refine ⟨fun refused => absurd refused (not_refuses_pure _ _), ?_⟩
      rintro ⟨holds, -⟩
      exact absurd holds fails

/-- Reading a register into another one is refused as the read is. -/
theorem refuses_shown (index : BitVec 5) (address : BitVec 32) (state : State P) :
    Refuses (do
        let value ← getCsrValue address
        modifyHart fun after => after.write index ⟨32, .BVC value⟩) state ↔
      CounterForbidden state.hart address ∨ ¬Implemented address ∨
        TvmForbids state.hart.csrs address := by
  rw [← refuses_getCsrValue, refuses_bind]
  refine ⟨fun refused => refused.resolve_right ?_, .inl⟩
  rintro ⟨value, -, impossible⟩
  exact not_refuses_modifyHart _ _ impossible

/-- A write of an operand is refused as the write is. -/
theorem refuses_stored {source : IssM P (BitVec 32)} (plain : Plain source) (address : BitVec 32)
    {state other : State P} (same : control other = control state) :
    Refuses (source >>= setCsrValue address) other ↔
      ¬Implemented address ∨ TvmForbids state.hart.csrs address := by
  refine plain.refuses_bind fun value => ?_
  rw [refuses_setCsrValue, tvmForbids_of_control same]

/-- The register is read only into a register other than `x0`. -/
theorem refuses_readThenWrite {source : IssM P (BitVec 32)} (plain : Plain source)
    (index : BitVec 5) (address : BitVec 32) (state : State P) :
    Refuses (do
        Exec.when (index ≠ 0) do
          let value ← getCsrValue address
          modifyHart fun after => after.write index ⟨32, .BVC value⟩
        source >>= setCsrValue address) state ↔
      ¬Implemented address ∨ index ≠ 0 ∧ CounterForbidden state.hart address ∨
        TvmForbids state.hart.csrs address := by
  rw [refuses_bind, refuses_when, refuses_shown]
  by_cases zero : index = 0
  · have skipped : (Exec.when (index ≠ 0) (do
        let value ← getCsrValue address
        modifyHart fun after => after.write index ⟨32, .BVC value⟩) : IssM P Unit) = pure () :=
      if_neg (not_not.mpr zero)
    rw [skipped]
    constructor
    · rintro (⟨other, -⟩ | ⟨_, -, refused⟩)
      · exact absurd zero other
      · have decided := (refuses_stored plain address rfl).mp refused
        tauto
    · rintro (missing | ⟨other, -⟩ | forbidden)
      · exact .inr ⟨(), rfl, (refuses_stored plain address rfl).mpr (.inl missing)⟩
      · exact absurd zero other
      · exact .inr ⟨(), rfl, (refuses_stored plain address rfl).mpr (.inr forbidden)⟩
  · have quiet : Quiet (Exec.when (index ≠ 0) (do
        let value ← getCsrValue address
        modifyHart fun after => after.write index ⟨32, .BVC value⟩) : IssM P Unit) :=
      Steps.when fun _ => Steps.bind (quiet_getCsrValue _) fun _ => quiet_write _ _
    constructor
    · rintro (⟨_, refused⟩ | ⟨_, -, refused⟩)
      · tauto
      · have decided := (refuses_stored plain address (quiet state)).mp refused
        tauto
    · intro forbidden
      exact .inl ⟨zero, by tauto⟩

theorem refuses_csrWrite {source : Hart P.clover.terms → IssM P (BitVec 32)}
    (plain : ∀ hart, Plain (source hart)) (state : State P) :
    Refuses (csrWrite source) state ↔
      AccessRefused state.hart state.hart.instr.csr (state.hart.rd != 0) true := by
  have parts := (refuses_checked state.hart.instr.csr true _ state).trans (or_congr_right
    (refuses_readThenWrite (plain state.hart) state.hart.rd state.hart.instr.csr state))
  rw [AccessRefused, bne_iff_ne]
  refine Iff.trans parts ?_
  tauto

/-- A register that can be read is not refused by the write. -/
theorem refuses_modified {α : Type} {update : α → BitVec 32 → IssM P (BitVec 32)}
    (plain : ∀ operand csrVal, Plain (update operand csrVal)) (index : BitVec 5)
    (address : BitVec 32) (writes : Bool) (operand : α) (state : State P) :
    Refuses (do
        let csrVal ← getCsrValue address
        Exec.when (index ≠ 0) (modifyHart fun after => after.write index ⟨32, .BVC csrVal⟩)
        Exec.when (writes = true) (update operand csrVal >>= setCsrValue address)) state ↔
      CounterForbidden state.hart address ∨ ¬Implemented address ∨
        TvmForbids state.hart.csrs address := by
  rw [refuses_bind, refuses_getCsrValue]
  refine ⟨fun refused => refused.elim id ?_, .inl⟩
  rintro ⟨csrVal, -, later⟩
  have read := quiet_getCsrValue address state
  have shown : Quiet (Exec.when (index ≠ 0)
      (modifyHart fun after => after.write index ⟨32, .BVC csrVal⟩) : IssM P Unit) :=
    Steps.when fun _ => quiet_write _ _
  obtain refused | ⟨_, -, refused⟩ := refuses_bind.mp later
  · exact absurd (refuses_when.mp refused).2 (not_refuses_modifyHart _ _)
  · have stored := (refuses_when.mp refused).2
    exact .inr ((refuses_stored (plain operand csrVal) address ((shown _).trans read)).mp stored)

theorem refuses_csrModify {α : Type} {writes : Hart P.clover.terms → Bool}
    {prepare : Hart P.clover.terms → IssM P α} {update : α → BitVec 32 → IssM P (BitVec 32)}
    (before : ∀ hart, Plain (prepare hart)) (after : ∀ operand csrVal, Plain (update operand csrVal))
    (state : State P) :
    Refuses (csrModify writes prepare update) state ↔
      AccessRefused state.hart state.hart.instr.csr true (writes state.hart) := by
  have parts := (refuses_checked state.hart.instr.csr (writes state.hart) _ state).trans
    (or_congr_right ((before state.hart).refuses_bind fun operand =>
      refuses_modified after state.hart.rd state.hart.instr.csr (writes state.hart) operand state))
  rw [AccessRefused]
  refine Iff.trans parts ?_
  tauto

/-- A CSR instruction is refused exactly under the condition above. -/
theorem refuses_csrInstr {op : Mapping} (csrInstr : isCsrInstr op = true) (state : State P) :
    Refuses (execute input op) state ↔
      AccessRefused state.hart state.hart.instr.csr (csrReads op state.hart)
        (csrWrites op state.hart) := by
  cases op with
  | csrrw => exact refuses_csrWrite (fun hart => plain_getValue _ _) state
  | csrrwi => exact refuses_csrWrite (fun hart => plain_pure _) state
  | csrrs =>
      refine refuses_csrModify (fun hart => plain_pure _) (fun operand csrVal other => ?_) state
      exact ⟨_, rfl, rfl⟩
  | csrrc =>
      exact refuses_csrModify (fun hart => plain_getValue _ _) (fun _ _ => plain_pure _) state
  | csrrsi | csrrci =>
      exact refuses_csrModify (fun hart => plain_pure _) (fun _ _ => plain_pure _) state
  | _ => cases csrInstr

/-! ## What the architecture asks for -/

/-- When an access has to be refused: a write to a read-only register, a register of a higher
level, one that is not implemented, a counter that is not shown, and `satp` from supervisor
mode under `TVM`. -/
def MustBeRefused (hart : Hart P.clover.terms) (address : BitVec 32) (reads writes : Bool) : Prop :=
  writes = true ∧ address.extractLsb' 10 2 = 3 ∨
    hart.prv.toNat < (address.extractLsb' 8 2).toNat ∨ ¬Implemented address ∨
    reads = true ∧ CounterForbidden hart address ∨
    address = CsrName.satp.addr ∧ hart.prv = supervisorMode ∧
      hart.csrs.mstatus.getLsbD Mstatus.tvm.lo = true

theorem csrReadonly_iff (address : BitVec 32) :
    csrReadonly address = true ↔ address.extractLsb' 10 2 = 3 := by
  have field : (0xC00 &&& address) >>> 10 = (address.extractLsb' 10 2).setWidth 32 := by
    rw [BitVec.and_comm]
    exact getField_eq_extract 10 2 address (by decide)
  rw [csrReadonly, field, beq_iff_eq]
  generalize address.extractLsb' 10 2 = bits
  revert bits
  decide

theorem csrPrv_toNat (address : BitVec 32) :
    (csrPrv address).toNat = (address.extractLsb' 8 2).toNat := by
  have field : (0x300 &&& address) >>> 8 = (address.extractLsb' 8 2).setWidth 32 := by
    rw [BitVec.and_comm]
    exact getField_eq_extract 8 2 address (by decide)
  rw [csrPrv, field]
  exact BitVec.toNat_setWidth_of_le (by decide)

/-- The two conditions agree except for `satp` above supervisor mode. -/
theorem accessRefused_iff (hart : Hart P.clover.terms) (address : BitVec 32)
    (reads writes : Bool) :
    (AccessRefused hart address reads writes ↔ MustBeRefused hart address reads writes) ↔
      ¬(TvmForbids hart.csrs address ∧ supervisorMode < hart.prv) := by
  have level : hart.prv < csrPrv address ↔
      hart.prv.toNat < (address.extractLsb' 8 2).toNat := by
    rw [← csrPrv_toNat]
    rfl
  unfold AccessRefused MustBeRefused
  rw [csrReadonly_iff, level]
  by_cases forbids : TvmForbids hart.csrs address
  · obtain ⟨rfl, set⟩ := id forbids
    have writable : ¬CsrName.satp.addr.extractLsb' 10 2 = 3 := by decide
    have implemented : Implemented CsrName.satp.addr := .inr ⟨.satp, rfl⟩
    have counter : ¬CounterForbidden hart CsrName.satp.addr := fun counter => by cases counter.1
    have own : (CsrName.satp.addr.extractLsb' 8 2).toNat = 1 := by decide
    simp only [forbids, writable, implemented, counter, own, set, and_false, false_or, or_true,
      true_and, not_true_eq_false, true_iff, and_true]
    have above : supervisorMode < hart.prv ↔ 1 < hart.prv.toNat := Iff.rfl
    have equal : hart.prv = supervisorMode ↔ hart.prv.toNat = 1 := BitVec.toNat_eq
    rw [above, equal]
    omega
  · have other : ¬(address = CsrName.satp.addr ∧ hart.prv = supervisorMode ∧
        hart.csrs.mstatus.getLsbD Mstatus.tvm.lo = true) := fun same => forbids ⟨same.1, same.2.2⟩
    simp only [forbids, other, false_and, not_false_eq_true]

/-- If the step executes a CSR instruction, that instruction is refused exactly when it must
be. -/
def AccessIsExact (state : State P) : Prop :=
  ∀ word, FetchReturns input (begun state) word → isCsrInstr (decodedOpcode word) = true →
    let hart := decodedHart (begun state).hart word
    ((∃ mtval, (executed input state).result = .error (.trap ⟨.illegalInstr, mtval⟩)) ↔
      MustBeRefused hart hart.instr.csr (csrReads (decodedOpcode word) hart)
        (csrWrites (decodedOpcode word) hart))

/-- The step accesses `satp` from a level above supervisor mode while `TVM` is set. -/
def LocksOutMachine (state : State P) : Prop :=
  ∃ word, FetchReturns input (begun state) word ∧ isCsrInstr (decodedOpcode word) = true ∧
    (decoded word).2.csr = CsrName.satp.addr ∧ supervisorMode < state.hart.prv ∧
    state.hart.csrs.mstatus.getLsbD Mstatus.tvm.lo = true

theorem accessIsExact_iff (state : State P) :
    AccessIsExact input state ↔ ¬LocksOutMachine input state := by
  have refused : ∀ word, FetchReturns input (begun state) word →
      isCsrInstr (decodedOpcode word) = true →
      let hart := decodedHart (begun state).hart word
      ((∃ mtval, (executed input state).result = .error (.trap ⟨.illegalInstr, mtval⟩)) ↔
        AccessRefused hart hart.instr.csr (csrReads (decodedOpcode word) hart)
          (csrWrites (decodedOpcode word) hart)) := by
    intro word fetched csrInstr hart
    rw [executed, execStep_run input fetched]
    exact refuses_csrInstr input csrInstr (decodedState input (begun state) word)
  constructor
  · rintro exact_ ⟨word, fetched, csrInstr, same, above, set⟩
    have both := (refused word fetched csrInstr).symm.trans (exact_ word fetched csrInstr)
    exact (accessRefused_iff _ _ _ _).mp both ⟨⟨same, set⟩, above⟩
  · intro fine word fetched csrInstr hart
    refine (refused word fetched csrInstr).trans ((accessRefused_iff _ _ _ _).mpr ?_)
    rintro ⟨⟨same, set⟩, above⟩
    exact fine ⟨word, fetched, csrInstr, same, above, set⟩

/-- Along a run, every CSR instruction is refused exactly when it must be if and only if none
accesses `satp` from above supervisor mode while `TVM` is set. -/
theorem accessIsExact_along_run_iff (start : State P) :
    (∀ state, Reaches (runStep input) start state → AccessIsExact input state) ↔
      ∀ state, Reaches (runStep input) start state → ¬LocksOutMachine input state :=
  forall₂_congr fun state _ => accessIsExact_iff input state

/-- Machine mode sets `TVM` and then cannot read `satp`. -/
theorem not_accessIsExact_satp : ∃ state : State tryoutPlatform,
    Reachable zeroInput state ∧ state.hart.prv = machineMode ∧ ¬AccessIsExact zeroInput state := by
  let start := programStart [0x001000b7, 0x30009073, 0x18001173]
  let state := stateAfter (runStep zeroInput) 2 start
  have reached : Reaches (runStep zeroInput) start state := reaches_stateAfter (by decide +kernel)
  refine ⟨state, ⟨start, reset_programStart _, reached⟩, by decide +kernel, ?_⟩
  rw [accessIsExact_iff, not_not]
  refine ⟨((fetch zeroInput).run (begun state)).state.hart.instr, ⟨?_, rfl⟩, ?_, ?_, ?_, ?_⟩
  all_goals decide +kernel

end SymexVP.Iss
