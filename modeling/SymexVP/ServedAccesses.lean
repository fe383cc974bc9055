import SymexVP.StepRefinement
import SymexVP.ReplayedInstructions

/-!
# Instructions that go through

Nothing refuses an access whose bytes are aligned and lie in the memory. An instruction of
the manual that makes no other access neither traps nor fails, from any state. Besides
what the manual sees it leaves alone what decides whether the hart goes on: its status, its
debugging mode and the exit request, and the address of the instruction itself.
-/

namespace SymexVP

open Exec Board MemoryInterface

variable {P : Platform} {port : Port}

/-- The bytes of an access lie in the memory behind the port. -/
structure Port.Serves (P : Platform) (port : Port) (address : BitVec 32) (numBytes : Nat) :
    Prop where
  holds : port.Holds P address
  deep : 0 < P.depth
  whole : address.toNat + numBytes ≤ 2 ^ 32
  inside : address.setWidth 64 - port.start + BitVec.ofNat 64 numBytes ≤ P.memSize

/-! ## Accesses -/

section Accesses

variable {core : Core} (input : P.clover.terms.Assignment) {board : Board P}
  {addr : ConcolicValue P.clover.terms 32} {numBytes : Nat}
  (serves : port.Serves P addr.concrete numBytes)

include serves

/-- The memory answers a transaction it serves. -/
theorem transaction_serves {trans : Payload P.clover.terms} (fresh : trans.response = .ok)
    (leads : trans.address = addr.concrete.setWidth 64) (size : trans.data.length = numBytes) :
    Settles (fun _ => False)
      (fun _ after => after.shallExit = board.shallExit ∧ after.lock = board.lock)
      (doTransaction (bus core input) trans) board := by
  unfold Settles
  have within : ¬P.memSize < trans.address - port.start + BitVec.ofNat 64 trans.data.length := by
    rw [leads, size]
    exact BitVec.not_lt.mpr serves.inside
  rw [doTransaction_run core input board serves.deep (leads ▸ serves.holds.decoded)
    serves.holds.target fresh, if_neg within]
  cases trans.command <;> exact ⟨rfl, rfl⟩

variable (bare : Untranslating P core .store) (available : board.Available core.hartId)

include bare available

theorem symbolicLoadData_serves :
    Settles (fun _ => False)
      (fun _ after => after.shallExit = board.shallExit ∧ after.lock = board.lock)
      (symbolicLoadData (bus core input) core addr numBytes) board := by
  refine Settles.bind (Settles.of_run (waitForAccessRights_run available) ?_)
  refine Settles.bind (Settles.bind (Settles.emit (Settles.pure ?_)))
  rw [v2p_bare bare]
  refine Settles.bind (Settles.pure (Settles.bind ?_))
  refine (transaction_serves input serves rfl rfl List.length_replicate).mono ?_ fun _ => id
  intro answer after kept
  split
  · exact Settles.pure kept
  · exact Settles.pure kept

theorem symbolicStoreData_serves (data : Concolic P.clover.terms) :
    Settles (fun _ => False) (fun _ after => after.shallExit = board.shallExit)
      (symbolicStoreData (bus core input) core addr data numBytes) board := by
  refine Settles.bind (Settles.of_run (waitForAccessRights_run available) ?_)
  refine Settles.bind (Settles.bind (Settles.emit (Settles.pure ?_)))
  rw [v2p_bare bare]
  refine Settles.bind (Settles.pure (Settles.bind (Settles.bind ?_)))
  refine (transaction_serves input serves rfl rfl (data.length_toBytes numBytes)).mono ?_
    fun _ => id
  intro answer after kept
  refine Settles.pure (Settles.of_run (unlock_run ?_) kept.1)
  rw [Board.Available, kept.2]
  exact available

end Accesses

namespace Iss

open Opcode

/-! ## What an instruction leaves alone -/

/-- What decides whether the hart goes on, and the address of the instruction it executes. -/
structure Session where
  status : CoreExecStatus
  debugMode : Bool
  lastPc : BitVec 32
  shallExit : Bool

def session (state : State P) : Session :=
  ⟨state.hart.status, state.hart.debugMode, state.hart.lastPc, state.board.shallExit⟩

/-- The computation returns and leaves all this alone. -/
abbrev Proceeds {α : Type} (body : IssM P α) (state : State P) : Prop :=
  Settles (fun _ => False) (fun _ after => session after = session state) body state

variable {state : State P}

theorem session_write (state : State P) (index : BitVec 5) (data : Concolic P.clover.terms) :
    session { state with hart := state.hart.write index data } = session state := by
  unfold Hart.write
  split
  · rfl
  · split <;> rfl

/-! ## Computations and control transfer -/

theorem compute_proceeds (value : Hart P.clover.terms → Concolic P.clover.terms) :
    Proceeds (compute value) state := Settles.modify (session_write state _ _)

theorem arithmetic_proceeds (operation : BinaryOp)
    (operand : Hart P.clover.terms → ConcolicValue P.clover.terms 32) :
    Proceeds (arithmetic operation operand) state := compute_proceeds _

theorem comparison_proceeds (operation : CompareOp)
    (operand : Hart P.clover.terms → ConcolicValue P.clover.terms 32) :
    Proceeds (comparison operation operand) state := compute_proceeds _

theorem jal_proceeds (even : IsEven (state.hart.lastPc + state.hart.instr.jImm)) :
    Proceeds jal state := by
  refine Settles.bind (Settles.bind (Settles.get (Settles.pure (Settles.bind ?_))))
  refine Settles.of_run (jumpTo_run even state.hart state.board) (Settles.modify ?_)
  exact session_write ⟨{ state.hart with pc := _ }, state.board⟩ _ _

theorem jalr_proceeds : Proceeds jalr state := by
  refine Settles.bind (Settles.bind (Settles.get (Settles.pure (Settles.bind ?_))))
  refine Settles.bind (Settles.emit (Settles.pure (Settles.bind ?_)))
  refine Settles.of_run (jumpTo_run (isEven_mask _) state.hart state.board) (Settles.modify ?_)
  exact session_write ⟨{ state.hart with pc := _ }, state.board⟩ _ _

theorem branch_proceeds (operation : CompareOp)
    (even : IsEven (state.hart.lastPc + state.hart.instr.bImm)) :
    Proceeds (branch operation) state := by
  refine Settles.bind (Settles.bind (Settles.get (Settles.pure (Settles.bind ?_))))
  refine Settles.when (fun _ => ?_) fun _ => trackAndTraceBranch_settles _ _ rfl
  refine Settles.of_run (jumpTo_run even state.hart state.board) ?_
  exact trackAndTraceBranch_settles _ _ rfl

/-! ## Multiplication and division -/

theorem requireIsa_proceeds {extension : BitVec 32}
    (present : state.hart.csrs.misa.has extension = true) {body : IssM P Unit}
    (proceeds : Proceeds body state) : Proceeds (requireIsa extension >>= fun _ => body) state := by
  refine Settles.bind (Settles.bind (Settles.bind (Settles.get (Settles.pure ?_))))
  exact Settles.when (fun missing => absurd present missing) fun _ => proceeds

theorem multiply_proceeds
    (extend₁ extend₂ : ConcolicValue P.clover.terms 32 → ConcolicValue P.clover.terms 64)
    (offset : Nat) : Proceeds (multiply extend₁ extend₂ offset) state :=
  requireIsa_proceeds (Misa.has_M _) (compute_proceeds _)

theorem divide_proceeds {onZero : Hart P.clover.terms → Hart P.clover.terms}
    (kept : session { state with hart := onZero state.hart } = session state)
    (result : Hart P.clover.terms → ConcolicValue P.clover.terms 32) :
    Proceeds (divide onZero result) state := by
  refine requireIsa_proceeds (Misa.has_M _) ?_
  refine Settles.bind (Settles.bind (Settles.get (Settles.pure (Settles.bind ?_))))
  refine Settles.ite (fun _ => ?_) fun _ => ?_
  · exact Settles.modify (trackAndTraceBranch_settles _ _ kept)
  · exact Settles.modify (trackAndTraceBranch_settles _ _ (session_write state _ _))

/-! ## Loads and stores -/

section Memory

variable (input : P.clover.terms.Assignment) {numBytes : Nat}
  (bare : Untranslating P state.hart.core .store)
  (available : state.board.Available state.hart.core.hartId)

include bare available

section Plain

variable {check : ConcolicValue P.clover.terms 32 → IssM P Unit} (passes : Passes check numBytes)

include passes

section Loads

variable {addr : ConcolicValue P.clover.terms 32}
  (leads : addr = P.clover.binary .add state.hart.rs1Value state.hart.iImm)
  (aligned : addr.concrete.toNat % numBytes = 0) (serves : port.Serves P addr.concrete numBytes)

include leads aligned serves

theorem load_proceeds : Proceeds (load input check numBytes) state := by
  subst leads
  refine Settles.bind (Settles.bind (Settles.get (Settles.pure (Settles.bind ?_))))
  refine (passes _ state _ aligned).mono ?_ fun _ => id
  intro _ after same
  rw [same]
  refine Settles.bind (memory_settles (Settles.bind ?_))
  refine (symbolicLoadData_serves input serves bare available).mono ?_ fun _ => id
  rintro _ board ⟨exit, -⟩
  refine Settles.pure (Settles.modify ((session_write _ _ _).trans ?_))
  exact congrArg (Session.mk _ _ _) exit

theorem loadUnsigned_proceeds : Proceeds (loadUnsigned input check numBytes) state := by
  subst leads
  refine Settles.bind (Settles.bind (Settles.get (Settles.pure (Settles.bind ?_))))
  refine (passes _ state _ aligned).mono ?_ fun _ => id
  intro _ after same
  rw [same]
  refine Settles.bind (memory_settles (Settles.bind ?_))
  refine (symbolicLoadData_serves input serves bare available).mono ?_ fun _ => id
  rintro data board ⟨exit, -⟩
  have kept : ∀ value, session (P := P)
      { hart := state.hart.write state.hart.rd value, board := board } = session state := by
    intro value
    refine (session_write ⟨state.hart, board⟩ _ _).trans ?_
    exact congrArg (Session.mk _ _ _) exit
  split
  · exact Settles.pure (Settles.modify (kept _))
  · exact Settles.pure (Settles.modify (kept _))

end Loads

theorem store_proceeds {addr : ConcolicValue P.clover.terms 32}
    (leads : addr = P.clover.binary .add state.hart.rs1Value state.hart.sImm)
    (aligned : addr.concrete.toNat % numBytes = 0) (serves : port.Serves P addr.concrete numBytes) :
    Proceeds (store input check numBytes) state := by
  subst leads
  refine Settles.bind (Settles.bind (Settles.get (Settles.pure (Settles.bind ?_))))
  refine (passes _ state _ aligned).mono ?_ fun _ => id
  intro _ after same
  rw [same]
  refine memory_settles ?_
  refine (symbolicStoreData_serves input serves bare available _).mono ?_ fun _ => id
  intro _ board exit
  exact congrArg (Session.mk _ _ _) exit

end Plain

/-- The hart keeps the bus from the load to the store. -/
theorem executeAmo_proceeds (operation : ConcolicValue P.clover.terms 32 →
      ConcolicValue P.clover.terms 32 → ConcolicValue P.clover.terms 32)
    (aligned : state.hart.rs1Value.concrete.toNat % 4 = 0)
    (serves : port.Serves P state.hart.rs1Value.concrete 4) :
    Proceeds (executeAmo input operation) state := by
  refine requireIsa_proceeds (Misa.has_A _) ?_
  refine Settles.bind (Settles.bind (Settles.get (Settles.pure (Settles.bind ?_))))
  refine (passes_trapCheckAddrAlignment 4 false _ state _ aligned).mono ?_ fun _ => id
  intro _ after same
  rw [same]
  have loaded : Settles (fun _ => False)
      (fun _ after => after.hart = state.hart ∧
        after.board.shallExit = state.board.shallExit ∧
        after.board.lock = some state.hart.core.hartId)
      (memory fun core => atomicLoadWord (bus core input) core state.hart.rs1Value) state := by
    refine memory_settles (Settles.bind (Settles.bind ?_))
    refine Settles.of_run (waitForAccessRights_run available) (Settles.modify (Settles.bind ?_))
    refine (symbolicLoadData_serves input serves bare (.inr rfl)).mono ?_ fun _ => id
    rintro _ board ⟨exit, lock⟩
    exact Settles.pure ⟨rfl, exit, lock⟩
  refine Settles.bind (Settles.tryCatch (loaded.mono ?_ fun _ => id) fun _ impossible _ =>
    impossible.elim)
  rintro data ⟨hart, board⟩ ⟨hart, exit, lock⟩
  subst hart
  refine Settles.bind (memory_settles (Settles.bind (Settles.get (Settles.bind ?_))))
  refine Settles.require (fun _ => ?_) fun free => ?_
  · refine (symbolicStoreData_serves input serves bare (.inr lock) _).mono ?_ fun _ => id
    intro _ stored same
    refine Settles.modify ((session_write _ _ _).trans ?_)
    exact congrArg (Session.mk _ _ _) (same.trans exit)
  · exact free (beq_iff_eq.mpr lock)

end Memory

end Iss

/-! ## Every instruction -/

/-- How many bytes an instruction loads or stores. -/
def Spec.Instr.numBytes : Spec.Instr → Nat
  | .load kind .. => kind.size
  | .store kind .. => kind.size
  | _ => 4

/-- What an instruction loads or stores is aligned and lies in the memory. -/
def Spec.Served (P : Platform) (port : Port) (s : State) (i : Instr) : Prop :=
  ∀ address ∈ Spec.address s i,
    address.toNat % i.numBytes = 0 ∧ port.Serves P address i.numBytes

namespace Iss

open Opcode

/-- An instruction of the manual whose accesses the memory serves goes through. -/
theorem execute_proceeds {length : BitVec 32} {s : Spec.State} {word : Instruction}
    {middle : State P} (input : P.clover.terms.Assignment)
    (entered : Entered port length s word middle) (lawful : P.clover.Lawful) {i : Spec.Instr}
    (encodes : Spec.Encodes word i) (returns : i ≠ .ebreak) (served : Spec.Served P port s i) :
    Proceeds (execute input (Instruction.mnemonic i)) middle := by
  have bare := entered.bare
  have available := entered.available
  have loads := loadAddress entered lawful
  have stores := storeAddress entered lawful
  cases encodes with
  | lui | auipc => exact compute_proceeds _
  | jal =>
      refine jal_proceeds ?_
      rw [entered.lastPc]
      exact entered.even.add (isEven_jImm _)
  | jalr => exact jalr_proceeds
  | @branch kind =>
      have even : IsEven (middle.hart.lastPc + middle.hart.instr.bImm) := by
        rw [entered.lastPc]
        exact entered.even.add (isEven_bImm _)
      cases kind <;> exact branch_proceeds _ even
  | @load kind =>
      obtain ⟨aligned, serves⟩ := served _ rfl
      rw [← loads] at aligned serves
      cases kind with
      | lb => exact load_proceeds input bare available passes_unchecked rfl aligned serves
      | lh | lw =>
          exact load_proceeds input bare available (passes_trapCheckAddrAlignment _ true) rfl
            aligned serves
      | lbu => exact loadUnsigned_proceeds input bare available passes_unchecked rfl aligned serves
      | lhu =>
          exact loadUnsigned_proceeds input bare available (passes_trapCheckAddrAlignment _ true)
            rfl aligned serves
  | @store kind =>
      obtain ⟨aligned, serves⟩ := served _ rfl
      rw [← stores] at aligned serves
      cases kind with
      | sb => exact store_proceeds input bare available passes_unchecked rfl aligned serves
      | sh | sw =>
          exact store_proceeds input bare available (passes_trapCheckAddrAlignment _ false) rfl
            aligned serves
  | @opImm kind =>
      cases kind with
      | slti | sltiu => exact comparison_proceeds _ _
      | _ => exact arithmetic_proceeds _ _
  | @shift kind => cases kind <;> exact arithmetic_proceeds _ _
  | @op kind =>
      cases kind with
      | mul | mulh | mulhsu | mulhu => exact multiply_proceeds _ _ _
      | div | divu => exact divide_proceeds (session_write middle _ _) _
      | rem | remu => exact divide_proceeds rfl _
      | slt | sltu => exact comparison_proceeds _ _
      | _ => exact arithmetic_proceeds _ _
  | @amo kind =>
      obtain ⟨aligned, serves⟩ := served _ rfl
      rw [← entered.rs1] at aligned serves
      cases kind with
      | swap => exact executeAmo_proceeds input bare available (fun _ b => b) aligned serves
      | _ => exact executeAmo_proceeds input bare available _ aligned serves
  | ebreak => exact absurd rfl returns

end Iss

end SymexVP
