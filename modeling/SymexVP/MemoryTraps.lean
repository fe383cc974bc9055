import SymexVP.AccessFaults
import SymexVP.TrapHandling

/-!
# The traps of memory accesses

An instruction that accesses memory, and the fetch of every instruction, raise a trap
exactly for the failures of that access. What the trap should say is known from the
access: a cause of its kind, and its virtual address. What it does say is decided in
four layers that each see a part of the context.

The cause is wrong whenever the part that fails is not of the kind of the access: a
refused transaction is reported by its own direction, and a load asks for the
translation of a store. The address is the one the refusing target saw, which is the
virtual one only if neither the translation nor the bus has changed it.
-/

namespace SymexVP.Iss

open Exec Opcode Board

variable {P : Platform} (input : P.clover.terms.Assignment)

/-! ## Accesses -/

/-- What a memory fault is a fault of. -/
inductive AccessKind
  | fetch
  | load
  | store
  deriving DecidableEq, Repr

namespace Access

variable {terms : Terms}

/-- Every atomic memory operation counts as a store. -/
def kind : Access terms → AccessKind
  | .load _ | .loadReserved => .load
  | .store _ | .storeConditional | .amo _ => .store

def numBytes : Access terms → Nat
  | .load numBytes | .store numBytes => numBytes
  | .loadReserved | .storeConditional | .amo _ => 4

/-- The address of an access, as the instruction computes it. -/
def addr (access : Access P.clover.terms) (hart : Hart P.clover.terms) :
    ConcolicValue P.clover.terms 32 :=
  match access with
  | .load _ => P.clover.binary .add hart.rs1Value hart.iImm
  | .store _ => P.clover.binary .add hart.rs1Value hart.sImm
  | .loadReserved | .storeConditional | .amo _ => hart.rs1Value

/-- How an access fails once its address has passed the alignment check. -/
def AlignedFails (access : Access P.clover.terms) (state : State P) (fault : AccessFault) : Prop :=
  let hart := state.hart
  let core := hart.core
  let isock := bus core input
  let inside := CallbackFails core input P.depth
  let addr := (access.addr hart).concrete
  match access with
  | .load numBytes => LoadFails isock inside core addr numBytes state.board fault
  | .store numBytes => StoreFails isock inside core addr ⟨32, hart.rs2Value⟩ numBytes state.board fault
  | .loadReserved =>
      After (takeLock core.hartId) (fun _ board =>
        LoadFails isock inside core addr 4
          { board with lrAddr := some (hart.regs hart.rs1).object }) state.board fault
  | .storeConditional =>
      state.board.isLockedBy core.hartId = true ∧
        state.board.lrAddr = some (hart.regs hart.rs1).object ∧
        StoreFails isock inside core addr ⟨32, hart.rs2Value⟩ 4 state.board fault
  | .amo operation =>
      After (takeLock core.hartId) (fun _ => LoadFails isock inside core addr 4) state.board fault ∨
        After (MemoryInterface.atomicLoadWord isock core hart.rs1Value) (fun data board fault =>
          board.isLockedBy core.hartId = true ∧
            StoreFails isock inside core addr ⟨32, operation data hart.rs2Value⟩ 4 board fault)
          state.board fault

/-- How an access fails. -/
def Fails (access : Access P.clover.terms) (state : State P) (fault : AccessFault) : Prop :=
  let addr := (access.addr state.hart).concrete
  if addr.toNat % access.numBytes ≠ 0 then fault = .misaligned (access.kind == .load) addr
  else access.AlignedFails input state fault

end Access

/-! ## Instructions trap as their accesses fail -/

/-- The check lets aligned addresses pass, and reports the others. -/
def Checks (check : ConcolicValue P.clover.terms 32 → IssM P Unit) (isLoad : Bool)
    (alignment : Nat) : Prop :=
  ∀ addr {next : Unit → IssM P Unit} {state : State P} {fails : AccessFault → Prop},
    FailsAs P (next ()) state fails →
    FailsAs P (check addr >>= next) state fun fault =>
      if addr.concrete.toNat % alignment ≠ 0 then fault = .misaligned isLoad addr.concrete
      else fails fault

theorem checks_trapCheckAddrAlignment (alignment : Nat) (isLoad : Bool) :
    Checks (trapCheckAddrAlignment alignment isLoad : _ → IssM P Unit) isLoad alignment := by
  intro addr next state fails rest
  refine Blames.assoc (Blames.assoc (Blames.emit_bind (Blames.pure_bind ?_)))
  rw [Exec.when]
  refine Blames.ite_bind (fun _ => ?_) fun _ => Blames.pure_bind rest
  cases isLoad with
  | true => exact failsAs_throw_bind (.misaligned true addr.concrete) next state
  | false => exact failsAs_throw_bind (.misaligned false addr.concrete) next state

/-- A byte is always aligned. -/
theorem checks_unchecked (isLoad : Bool) :
    Checks (unchecked : _ → IssM P Unit) isLoad 1 := by
  intro addr next state fails rest
  refine Blames.mono (fun fault => ?_) (Blames.pure_bind rest)
  rw [Nat.mod_one, if_neg (not_not.mpr rfl)]

/-- The atomic extension is always present. -/
theorem requireIsa_failsAs {next : Unit → IssM P Unit} {state : State P}
    {fails : AccessFault → Prop} (rest : FailsAs P (next ()) state fails) :
    FailsAs P (requireIsa Misa.A >>= next) state fails := by
  have enabled : (requireIsa Misa.A : IssM P Unit).run state = ⟨.ok (), state, []⟩ := by
    simp [requireIsa, getHart, Exec.when]
  intro fault trap
  rw [bind_run, enabled]
  exact rest fault trap

section Plain

variable {check : ConcolicValue P.clover.terms 32 → IssM P Unit} {numBytes : Nat}

theorem store_failsAs (checked : Checks check false numBytes) (state : State P) :
    FailsAs P (store input check numBytes) state
      ((Access.store numBytes : Access P.clover.terms).Fails input state) := by
  refine Blames.get_bind (Blames.pure_bind (checked _ (memory_failsAs ?_)))
  exact symbolicStoreData_failsAs (routes_bus _ input) _ _ _ _ _

theorem load_failsAs (checked : Checks check true numBytes) (state : State P) :
    FailsAs P (load input check numBytes) state
      ((Access.load numBytes : Access P.clover.terms).Fails input state) := by
  refine Blames.get_bind (Blames.pure_bind (checked _ ?_))
  refine Blames.bind_calm (memory_failsAs ?_) fun _ => calm_modifyHart _
  exact loadSigned_failsAs (routes_bus _ input) _ _ _ _

theorem loadUnsigned_failsAs (checked : Checks check true numBytes) (state : State P) :
    FailsAs P (loadUnsigned input check numBytes) state
      ((Access.load numBytes : Access P.clover.terms).Fails input state) := by
  refine Blames.get_bind (Blames.pure_bind (checked _ ?_))
  refine Blames.bind_calm (memory_failsAs ?_) fun _ => calm_modifyHart _
  exact SymexVP.loadUnsigned_failsAs (routes_bus _ input) _ _ _ _

end Plain

theorem lrW_failsAs (state : State P) :
    FailsAs P (lrW input) state
      ((Access.loadReserved : Access P.clover.terms).Fails input state) := by
  refine requireIsa_failsAs (Blames.get_bind (Blames.pure_bind (checks_trapCheckAddrAlignment 4 true _ ?_)))
  refine Blames.bind_calm (memory_failsAs ?_) fun _ =>
    Meets.bind (calm_modifyHart _) fun _ _ => calm_modifyHart _
  exact atomicLoadReservedWord_failsAs (routes_bus _ input) _ _ _ _

theorem scW_failsAs (state : State P) :
    FailsAs P (scW input) state
      ((Access.storeConditional : Access P.clover.terms).Fails input state) := by
  refine requireIsa_failsAs (Blames.get_bind (Blames.pure_bind (checks_trapCheckAddrAlignment 4 false _ ?_)))
  refine Blames.modify_bind (Blames.bind_calm (memory_failsAs ?_) fun _ =>
    Meets.bind (calm_modifyHart _) fun _ _ => calm_modifyHart _)
  have core : (state.hart.write state.hart.rd ⟨32, .BVC 1⟩).core = state.hart.core := rfl
  rw [core]
  exact atomicStoreConditionalWord_failsAs (routes_bus _ input) _ _ _ _ _

/-- No failure is reported as a load access fault. -/
theorem trap_ne_loadAccessFault (fault : AccessFault) :
    (fault.trap P).reason ≠ .loadAccessFault := by
  cases fault with
  | misaligned isLoad addr => cases isLoad <;> nofun
  | unmapped type vaddr => cases type <;> nofun
  | refused command paddr => cases command <;> nofun

/-- What the handler of an atomic memory operation does: it looks for a load access fault. -/
def amoHandler {α : Type} (fault : Fault) : IssM P α :=
  match fault with
  | .trap ⟨.loadAccessFault, mtval⟩ => raiseTrap .storeAmoAccessFault mtval
  | other => Exec.throw other

theorem amoHandler_report {α : Type} (fault : AccessFault) (state : State P) :
    ((amoHandler (.trap (fault.trap P)) : IssM P α).run state).result =
      .error (.trap (fault.trap P)) := by
  have other := trap_ne_loadAccessFault (P := P) fault
  generalize fault.trap P = raised at other ⊢
  obtain ⟨reason, mtval⟩ := raised
  cases reason <;> first | rfl | exact absurd rfl other

theorem amoHandler_ne_ok {α : Type} (fault : Fault) (state : State P) (value : α) :
    ((amoHandler fault : IssM P α).run state).result ≠ .ok value := by
  unfold amoHandler
  split <;> nofun

theorem calm_amoHandler {α : Type} {fault : Fault} (other : ¬IsTrap fault) :
    Calm (amoHandler fault : IssM P α) := by
  unfold amoHandler
  split
  · exact absurd ⟨_, rfl⟩ other
  · exact Meets.throw other

theorem executeAmo_failsAs (operation : ConcolicValue P.clover.terms 32 →
    ConcolicValue P.clover.terms 32 → ConcolicValue P.clover.terms 32) (state : State P) :
    FailsAs P (executeAmo input operation) state ((Access.amo operation).Fails input state) := by
  refine requireIsa_failsAs (Blames.get_bind (Blames.pure_bind
    (checks_trapCheckAddrAlignment 4 false _ ?_)))
  let hart := state.hart
  let load := MemoryInterface.atomicLoadWord (bus hart.core input) hart.core hart.rs1Value
  let guarded : IssM P (ConcolicValue P.clover.terms 32) := Exec.tryCatch
    (memory fun core => MemoryInterface.atomicLoadWord (bus core input) core hart.rs1Value) amoHandler
  let later (data : ConcolicValue P.clover.terms 32) (after : State P) (fault : AccessFault) : Prop :=
    after.board.isLockedBy hart.core.hartId = true ∧
      StoreFails (bus hart.core input) (CallbackFails hart.core input P.depth) hart.core
        hart.rs1Value.concrete ⟨32, operation data hart.rs2Value⟩ 4 after.board fault
  have returned : ∀ data, (guarded.run state).result = .ok data →
      (load.run state.board).result = .ok data ∧
        (guarded.run state).state = { state with board := (load.run state.board).state } := by
    intro data ok
    obtain ⟨plain, reached⟩ | ⟨fault, -, handled, -⟩ := tryCatch_eq_ok ok
    · exact ⟨plain, reached⟩
    · exact absurd handled (amoHandler_ne_ok fault _ data)
  have head : FailsAs P guarded state (After (takeLock hart.core.hartId)
      (fun _ => LoadFails (bus hart.core input) (CallbackFails hart.core input P.depth) hart.core
        hart.rs1Value.concrete 4) state.board) := by
    refine Blames.tryCatch (memory_failsAs ?_) amoHandler_report fun fault other => ?_
    · exact atomicLoadWord_failsAs (routes_bus _ input) _ _ _
    · exact calm_amoHandler other
  have rest : ∀ data, (guarded.run state).result = .ok data → FailsAs P (do
      memory fun core => MemoryInterface.atomicStoreWord (bus core input) core hart.rs1Value
        (operation data hart.rs2Value)
      modifyHart fun after => after.write hart.rd ⟨32, data⟩) (guarded.run state).state
        (later data (guarded.run state).state) := by
    intro data ok
    obtain ⟨-, reached⟩ := returned data ok
    rw [reached]
    refine Blames.bind_calm (memory_failsAs ?_) fun _ => calm_modifyHart _
    exact atomicStoreWord_failsAs (routes_bus _ input) _ _ _ _
  refine (Blames.bind head rest).mono fun fault => or_congr_right ?_
  constructor
  · rintro ⟨data, ok, failed⟩
    obtain ⟨loaded, reached⟩ := returned data ok
    rw [reached] at failed
    exact ⟨data, loaded, failed⟩
  · rintro ⟨data, loaded, failed⟩
    have same : guarded.run state = ⟨.ok data, { state with board := (load.run state.board).state },
        (load.run state.board).log⟩ := by
      have inner : (memory fun core =>
            MemoryInterface.atomicLoadWord (bus core input) core hart.rs1Value).run state =
          ⟨(load.run state.board).result, { state with board := (load.run state.board).state },
            (load.run state.board).log⟩ := rfl
      rw [tryCatch_run, inner, loaded]
      rfl
    refine ⟨data, ?_, ?_⟩
    · rw [same]
    · rw [same]
      exact failed

theorem execute_failsAs {op : Mapping} {made : Access P.clover.terms}
    (accesses : access op = some made) (state : State P) :
    FailsAs P (execute input op) state (made.Fails input state) := by
  cases op <;> cases accesses
  case lb => exact load_failsAs input (checks_unchecked true) state
  case lh => exact load_failsAs input (checks_trapCheckAddrAlignment 2 true) state
  case lw => exact load_failsAs input (checks_trapCheckAddrAlignment 4 true) state
  case lbu => exact loadUnsigned_failsAs input (checks_unchecked true) state
  case lhu => exact loadUnsigned_failsAs input (checks_trapCheckAddrAlignment 2 true) state
  case sb => exact store_failsAs input (checks_unchecked false) state
  case sh => exact store_failsAs input (checks_trapCheckAddrAlignment 2 false) state
  case sw => exact store_failsAs input (checks_trapCheckAddrAlignment 4 false) state
  case lrW => exact lrW_failsAs input state
  case scW => exact scW_failsAs input state
  case amoswapW => exact executeAmo_failsAs input (fun _ b => b) state
  all_goals exact executeAmo_failsAs input _ state

/-! ## Steps -/

theorem fetch_failsAs (state : State P) :
    FailsAs P (fetch input) state fun fault =>
      state.hart.pc &&& ~~~state.hart.pcAlignmentMask = 0 ∧
        FetchFails (bus state.hart.core input) (CallbackFails state.hart.core input P.depth)
          state.hart.core state.hart.pc state.board fault := by
  refine Blames.get_bind (Blames.pure_bind (Blames.require_bind nofun fun _ => ?_))
  refine Blames.tryCatch (Blames.get_bind (Blames.pure_bind ?_)) (fun _ _ => rfl) fun fault other => ?_
  · refine Blames.bind_calm (memory_failsAs ?_) fun _ => calm_modifyHart _
    exact loadInstr_failsAs (routes_bus _ input) _ _ _
  · split
    · exact absurd ⟨_, rfl⟩ other
    · exact Meets.throw other

/-- The instruction a step executes accesses memory. -/
def Accesses (state : State P) (made : Access P.clover.terms) (middle : State P) : Prop :=
  ∃ word, FetchReturns input (begun state) word ∧ access (decodedOpcode word) = some made ∧
    middle = decodedState input (begun state) word

/-- A step raises a trap for a memory access of the given kind and address. -/
inductive MemoryTrap (state : State P) : AccessKind → BitVec 32 → SimulationTrap → Prop
  | fetch {raised : SimulationTrap} (runs : Runs state)
      (thrown : ((fetch input).run (begun state)).result = .error (.trap raised)) :
      MemoryTrap state .fetch state.hart.pc raised
  | data {raised : SimulationTrap} {made : Access P.clover.terms} {middle : State P}
      (runs : Runs state) (accesses : Accesses input state made middle)
      (thrown : (executed input state).result = .error (.trap raised)) :
      MemoryTrap state made.kind (made.addr middle.hart).concrete raised

/-- An access of a step fails. -/
inductive StepFails (state : State P) : AccessKind → BitVec 32 → AccessFault → Prop
  | fetch {fault : AccessFault} (runs : Runs state)
      (aligned : state.hart.pc &&& ~~~state.hart.pcAlignmentMask = 0)
      (failed : FetchFails (bus state.hart.core input) (CallbackFails state.hart.core input P.depth)
        state.hart.core state.hart.pc state.board fault) :
      StepFails state .fetch state.hart.pc fault
  | data {fault : AccessFault} {made : Access P.clover.terms} {middle : State P}
      (runs : Runs state) (accesses : Accesses input state made middle)
      (failed : made.Fails input middle fault) :
      StepFails state made.kind (made.addr middle.hart).concrete fault

/-- The traps of memory accesses are the reports of their failures. -/
theorem memoryTrap_iff {state : State P} {kind : AccessKind} {vaddr : BitVec 32}
    {raised : SimulationTrap} :
    MemoryTrap input state kind vaddr raised ↔
      ∃ fault, StepFails input state kind vaddr fault ∧ fault.trap P = raised := by
  have executed_eq : ∀ {made : Access P.clover.terms} {middle : State P} {raised : SimulationTrap},
      Accesses input state made middle →
      ((executed input state).result = .error (.trap raised) ↔
        ∃ fault, made.Fails input middle fault ∧ Fault.trap (fault.trap P) = .trap raised) := by
    rintro made _ raised ⟨word, fetched, accesses, rfl⟩
    rw [executed, execStep_run input fetched]
    exact execute_failsAs input accesses _ _ ⟨raised, rfl⟩
  have fetch_eq := fun raised => fetch_failsAs input (begun state) (.trap raised) ⟨raised, rfl⟩
  constructor
  · rintro (⟨runs, thrown⟩ | ⟨runs, accesses, thrown⟩)
    · obtain ⟨fault, ⟨aligned, failed⟩, ⟨⟩⟩ := (fetch_eq raised).mp thrown
      exact ⟨fault, .fetch runs aligned failed, rfl⟩
    · obtain ⟨fault, failed, ⟨⟩⟩ := (executed_eq accesses).mp thrown
      exact ⟨fault, .data runs accesses failed, rfl⟩
  · rintro ⟨fault, ⟨runs, aligned, failed⟩ | ⟨runs, accesses, failed⟩, rfl⟩
    · exact .fetch runs ((fetch_eq _).mpr ⟨fault, ⟨aligned, failed⟩, rfl⟩)
    · exact .data runs accesses ((executed_eq accesses).mpr ⟨fault, failed, rfl⟩)

/-! ## Causes -/

/-- The exception codes that stand for a fault of each kind of access. -/
def AccessKind.causes : AccessKind → List (BitVec 32)
  | .fetch => [0, 1, 12]
  | .load => [4, 5, 13]
  | .store => [6, 7, 15]

/-- Every trap a step raises for a memory access has a cause of the kind of that access. -/
def CausesMatch (state : State P) : Prop :=
  ∀ kind vaddr raised, MemoryTrap input state kind vaddr raised →
    raised.reason.code ∈ kind.causes

/-- The failures that are not reported as ones of the access: any transaction that is refused to
a fetch, a refused write under a load, a refused read under a store or an atomic memory
operation, and a walk that was asked for a page for another type of access. -/
def Misreported : AccessKind → AccessFault → Prop
  | .fetch, .refused _ _ => True
  | .load, .refused command _ => command = .write
  | .store, .refused command _ => command = .read
  | .fetch, .unmapped type _ => type ≠ .fetch
  | .load, .unmapped type _ => type ≠ .load
  | .store, .unmapped type _ => type ≠ .store
  | kind, .misaligned isLoad _ => kind ≠ if isLoad then .load else .store

theorem code_mem_causes_iff (kind : AccessKind) (fault : AccessFault) :
    (fault.trap P).reason.code ∈ kind.causes ↔ ¬Misreported kind fault := by
  cases fault with
  | misaligned isLoad addr =>
      cases isLoad <;> cases kind <;>
        simp [AccessFault.trap, ExceptionCode.code, AccessKind.causes, Misreported]
  | unmapped type vaddr =>
      cases type <;> cases kind <;>
        simp [AccessFault.trap, ExceptionCode.code, AccessKind.causes, Misreported]
  | refused command paddr =>
      cases command <;> cases kind <;>
        simp [AccessFault.trap, ExceptionCode.code, AccessKind.causes, Misreported]

theorem causesMatch_iff (state : State P) :
    CausesMatch input state ↔
      ∀ kind vaddr fault, StepFails input state kind vaddr fault → ¬Misreported kind fault := by
  constructor
  · intro matches_ kind vaddr fault failed
    rw [← code_mem_causes_iff (P := P)]
    exact matches_ kind vaddr _ ((memoryTrap_iff input).mpr ⟨fault, failed, rfl⟩)
  · intro fine kind vaddr raised trapped
    obtain ⟨fault, failed, rfl⟩ := (memoryTrap_iff input).mp trapped
    exact (code_mem_causes_iff kind fault).mpr (fine kind vaddr fault failed)

/-- Along a run, every cause is of the kind of its access if and only if no access fails in one
of the misreported ways. -/
theorem causesMatch_along_run_iff (start : State P) :
    (∀ state, Reaches (runStep input) start state → CausesMatch input state) ↔
      ∀ state, Reaches (runStep input) start state →
        ∀ kind vaddr fault, StepFails input state kind vaddr fault → ¬Misreported kind fault :=
  forall₂_congr fun state _ => causesMatch_iff input state

/-- A jump to an address without a port: the refused fetch is reported as a load page fault. -/
theorem not_causesMatch_fetch : ∃ state : State tryoutPlatform,
    Reachable zeroInput state ∧ ¬CausesMatch zeroInput state := by
  let start := programStart [0x400000b7, 0x00008067]
  have reached : Reaches (runStep zeroInput) start (stateAfter (runStep zeroInput) 2 start) :=
    reaches_stateAfter (by decide +kernel)
  refine ⟨_, ⟨start, reset_programStart _, reached⟩, fun matches_ => ?_⟩
  have thrown : ((fetch zeroInput).run (begun (stateAfter (runStep zeroInput) 2 start))).result =
      .error (.trap ⟨.loadPageFault, 0x40000000⟩) := by decide +kernel
  have runs : Runs (stateAfter (runStep zeroInput) 2 start) := by
    unfold Runs AtBreakpoint
    decide +kernel
  have listed := matches_ _ _ _ (.fetch runs thrown)
  revert listed
  decide

end SymexVP.Iss
