import SymexVP.AccessOutcomes
import SymexVP.MemoryTraps
import SymexVP.StateSteps
import SymexVP.StepContracts

/-!
# The assertions on the way of an access

Three assertions guard the way of an access to the memory: a page walk has access to page
tables, a translation is asked for by user or supervisor mode, and the hart that writes
the result of an atomic memory operation holds the bus lock. The last one never fails.
The first two fail on a platform that wires no page tables whenever an address is to be
translated, so that every other step is what can be relied on: it fails none of the
three, and its data access returns or raises a trap unless a device refuses it.
-/

namespace SymexVP.Iss

open Exec Opcode Board MemoryInterface

variable {P : Platform} (input : P.clover.terms.Assignment)

/-! ## Instructions -/

namespace Access

/-- The instruction gets as far as the memory interface: the address is aligned, and a
store-conditional has a reservation for it. -/
def Issued (access : Access P.clover.terms) (state : State P) : Prop :=
  (access.addr state.hart).concrete.toNat % access.numBytes = 0 ∧
    match access with
    | .storeConditional =>
        state.board.isLockedBy state.hart.core.hartId = true ∧
          state.board.lrAddr = some (state.hart.regs state.hart.rs1).object
    | _ => True

/-- A device refuses a transaction of the access. -/
def Refused (access : Access P.clover.terms) (state : State P) : Prop :=
  let hart := state.hart
  let address := (access.addr hart).concrete.setWidth 64
  match access with
  | .load numBytes => refuses input P.depth false state.board (SymexVP.reading address numBytes)
  | .store numBytes =>
      refuses input P.depth false state.board (writing address ⟨32, hart.rs2Value⟩ numBytes)
  | .loadReserved => refuses input P.depth false state.board (SymexVP.reading address 4)
  | .storeConditional =>
      refuses input P.depth false state.board (writing address ⟨32, hart.rs2Value⟩ 4)
  | .amo operation =>
      let load := (atomicLoadWord (bus hart.core input) hart.core hart.rs1Value).run state.board
      refuses input P.depth false state.board (SymexVP.reading address 4) ∨
        ∃ data, load.result = .ok data ∧
          refuses input P.depth false load.state
            (writing address ⟨32, operation data hart.rs2Value⟩ 4)

end Access

section Instructions

variable {refused translated : Prop} {state : State P}

theorem memory_settles {α : Type} {faults : Fault → Prop} {good : α → State P → Prop}
    {body : Core → MemM P α}
    (settled : Settles faults (fun value board => good value { state with board := board })
      (body state.hart.core) state.board) :
    Settles faults good (memory body) state :=
  Settles.bind (Settles.bind (Settles.get (Settles.pure (Settles.focus settled))))

/-- The check lets aligned addresses pass. -/
def Passes (check : ConcolicValue P.clover.terms 32 → IssM P Unit) (alignment : Nat) : Prop :=
  ∀ (addr : ConcolicValue P.clover.terms 32) (state : State P) (faults : Fault → Prop),
    addr.concrete.toNat % alignment = 0 →
    Settles faults (fun _ after => after = state) (check addr) state

theorem passes_unchecked : Passes (unchecked : _ → IssM P Unit) 1 :=
  fun _ _ _ _ => Settles.pure rfl

theorem passes_trapCheckAddrAlignment (alignment : Nat) (isLoad : Bool) :
    Passes (trapCheckAddrAlignment alignment isLoad : _ → IssM P Unit) alignment := by
  intro addr state faults aligned
  refine Settles.bind (Settles.bind (Settles.emit (Settles.pure ?_)))
  exact Settles.when (fun odd => absurd aligned odd) fun _ => rfl

theorem requireIsa_settles {faults : Fault → Prop} :
    Settles faults (fun _ after => after = state) (requireIsa Misa.A : IssM P Unit) state := by
  refine Settles.bind (Settles.bind (Settles.get (Settles.pure ?_)))
  refine Settles.when (fun missing => ?_) fun _ => rfl
  exact absurd (by simp) missing

variable (walkless : P.mmuMem = false) (ready : state.board.Ready state.hart.core)
  (translates : ¬Mmu.Bare state.hart.core .store → translated)

include walkless ready translates

section Plain

variable {check : ConcolicValue P.clover.terms 32 → IssM P Unit} {numBytes : Nat}
  (passes : Passes check numBytes)

include passes

theorem store_settles
    (aligned : ((Access.store numBytes).addr state.hart).concrete.toNat % numBytes = 0)
    (served : (Access.store numBytes : Access P.clover.terms).Refused input state → refused) :
    Settles (AccessThrows refused translated) (fun _ _ => True) (store input check numBytes)
      state := by
  refine Settles.bind (Settles.bind (Settles.get (Settles.pure (Settles.bind ?_))))
  refine (passes _ state _ aligned).mono ?_ fun _ => id
  rintro _ _ rfl
  refine memory_settles ?_
  exact (symbolicStoreData_settles (responds_bus _ input walkless) walkless ready served
    translates).mono (fun _ _ _ => trivial) fun _ => id

theorem load_settles
    (aligned : ((Access.load numBytes).addr state.hart).concrete.toNat % numBytes = 0)
    (served : (Access.load numBytes : Access P.clover.terms).Refused input state → refused) :
    Settles (AccessThrows refused translated) (fun _ _ => True) (load input check numBytes)
      state := by
  refine Settles.bind (Settles.bind (Settles.get (Settles.pure (Settles.bind ?_))))
  refine (passes _ state _ aligned).mono ?_ fun _ => id
  rintro _ _ rfl
  refine Settles.bind (memory_settles (Settles.bind ?_))
  exact (symbolicLoadData_settles (responds_bus _ input walkless) walkless ready served
    translates).mono (fun _ _ _ => Settles.pure (Settles.modify trivial)) fun _ => id

theorem loadUnsigned_settles
    (aligned : ((Access.load numBytes).addr state.hart).concrete.toNat % numBytes = 0)
    (served : (Access.load numBytes : Access P.clover.terms).Refused input state → refused) :
    Settles (AccessThrows refused translated) (fun _ _ => True)
      (loadUnsigned input check numBytes) state := by
  refine Settles.bind (Settles.bind (Settles.get (Settles.pure (Settles.bind ?_))))
  refine (passes _ state _ aligned).mono ?_ fun _ => id
  rintro _ _ rfl
  refine Settles.bind (memory_settles (Settles.bind ?_))
  refine (symbolicLoadData_settles (responds_bus _ input walkless) walkless ready served
    translates).mono (fun _ _ _ => ?_) fun _ => id
  split
  · exact Settles.pure (Settles.modify trivial)
  · exact Settles.pure (Settles.modify trivial)

end Plain

theorem lrW_settles
    (aligned : ((Access.loadReserved).addr state.hart).concrete.toNat % 4 = 0)
    (served : (Access.loadReserved : Access P.clover.terms).Refused input state → refused) :
    Settles (AccessThrows refused translated) (fun _ _ => True) (lrW input) state := by
  refine Settles.bind (requireIsa_settles.mono ?_ fun _ => id)
  rintro _ _ rfl
  refine Settles.bind (Settles.bind (Settles.get (Settles.pure (Settles.bind ?_))))
  refine (passes_trapCheckAddrAlignment 4 true _ _ _ aligned).mono ?_ fun _ => id
  rintro _ _ rfl
  refine Settles.bind (memory_settles ?_)
  exact (atomicLoadReservedWord_settles _ input walkless ready _ served translates).mono
    (fun _ _ _ => Settles.bind (Settles.modify (Settles.modify trivial))) fun _ => id

/-- The load of an atomic memory operation leaves the lock to its store. -/
theorem executeAmo_settles (operation : ConcolicValue P.clover.terms 32 →
      ConcolicValue P.clover.terms 32 → ConcolicValue P.clover.terms 32)
    (aligned : ((Access.amo operation).addr state.hart).concrete.toNat % 4 = 0)
    (served : (Access.amo operation).Refused input state → refused) :
    Settles (AccessThrows refused translated) (fun _ _ => True) (executeAmo input operation)
      state := by
  refine Settles.bind (requireIsa_settles.mono ?_ fun _ => id)
  rintro _ state rfl
  refine Settles.bind (Settles.bind (Settles.get (Settles.pure (Settles.bind ?_))))
  refine (passes_trapCheckAddrAlignment 4 false _ _ _ aligned).mono ?_ fun _ => id
  rintro _ state rfl
  have loaded := (atomicLoadWord_settles state.hart.core input walkless ready
    (fun refusing => served (.inl refusing)) translates).traced
  refine Settles.bind (Settles.tryCatch (memory_settles (loaded.mono ?_ fun _ => id)) ?_)
  · rintro data _ ⟨⟨ready', own⟩, returned, rfl⟩
    refine Settles.bind (memory_settles ?_)
    refine (atomicStoreWord_settles state.hart.core input walkless ready' own
      (fun refusing => served (.inr ⟨data, returned, refusing⟩)) translates).mono ?_ fun _ => id
    exact fun _ _ _ => Settles.modify trivial
  · intro fault known _
    split
    · exact Settles.throw (.trap _)
    · exact Settles.throw known

end Instructions

/-- A store-conditional without a reservation makes no access. -/
theorem scW_settles {refused translated : Prop} {state : State P} (walkless : P.mmuMem = false)
    (ready : state.board.Ready state.hart.core)
    (aligned : ((Access.storeConditional).addr state.hart).concrete.toNat % 4 = 0)
    (translates : (Access.storeConditional : Access P.clover.terms).Issued state →
      ¬Mmu.Bare state.hart.core .store → translated)
    (served : (Access.storeConditional : Access P.clover.terms).Issued state →
      (Access.storeConditional : Access P.clover.terms).Refused input state → refused) :
    Settles (AccessThrows refused translated) (fun _ _ => True) (scW input) state := by
  refine Settles.bind (requireIsa_settles.mono ?_ fun _ => id)
  rintro _ state rfl
  refine Settles.bind (Settles.bind (Settles.get (Settles.pure (Settles.bind ?_))))
  refine (passes_trapCheckAddrAlignment 4 false _ _ _ aligned).mono ?_ fun _ => id
  rintro _ state rfl
  refine Settles.bind (Settles.modify (Settles.bind (memory_settles ?_)))
  refine (atomicStoreConditionalWord_settles state.hart.core input walkless ready _
    (fun own same => served ⟨aligned, own, same⟩)
    (fun own same => translates ⟨aligned, own, same⟩)).mono ?_ fun _ => id
  exact fun _ _ _ => Settles.bind (Settles.modify (Settles.modify trivial))

theorem execute_settles_of_aligned {op : Mapping} {made : Access P.clover.terms}
    (accesses : access op = some made) {refused translated : Prop} {state : State P}
    (walkless : P.mmuMem = false) (ready : state.board.Ready state.hart.core)
    (aligned : (made.addr state.hart).concrete.toNat % made.numBytes = 0)
    (translates : made.Issued state → ¬Mmu.Bare state.hart.core .store → translated)
    (served : made.Issued state → made.Refused input state → refused) :
    Settles (AccessThrows refused translated) (fun _ _ => True) (execute input op) state := by
  have bytes := passes_unchecked (P := P)
  have words := passes_trapCheckAddrAlignment (P := P)
  cases op <;> cases accesses
  case scW => exact scW_settles input walkless ready aligned translates served
  all_goals
    have translates := translates ⟨aligned, trivial⟩
    have served := served ⟨aligned, trivial⟩
  case lb => exact load_settles input walkless ready translates bytes aligned served
  case lh | lw => exact load_settles input walkless ready translates (words _ _) aligned served
  case lbu => exact loadUnsigned_settles input walkless ready translates bytes aligned served
  case lhu => exact loadUnsigned_settles input walkless ready translates (words _ _) aligned served
  case sb => exact store_settles input walkless ready translates bytes aligned served
  case sh | sw => exact store_settles input walkless ready translates (words _ _) aligned served
  case lrW => exact lrW_settles input walkless ready translates aligned served
  case amoswapW =>
    exact executeAmo_settles input walkless ready translates (fun _ b => b) aligned served
  all_goals exact executeAmo_settles input walkless ready translates _ aligned served

/-- How an instruction that accesses memory ends. -/
theorem execute_settles {op : Mapping} {made : Access P.clover.terms}
    (accesses : access op = some made) {refused translated : Prop} {state : State P}
    (walkless : P.mmuMem = false) (ready : state.board.Ready state.hart.core)
    (translates : made.Issued state → ¬Mmu.Bare state.hart.core .store → translated)
    (served : made.Issued state → made.Refused input state → refused) :
    Settles (AccessThrows refused translated) (fun _ _ => True) (execute input op) state := by
  by_cases aligned : (made.addr state.hart).concrete.toNat % made.numBytes = 0
  · exact execute_settles_of_aligned input accesses walkless ready aligned translates served
  · -- a misaligned address is reported as such
    let misaligned : AccessFault := .misaligned (made.kind == .load) (made.addr state.hart).concrete
    have failed : made.Fails input state misaligned := by
      rw [Access.Fails, if_pos aligned]
    have thrown := (execute_failsAs input accesses state (.trap (misaligned.trap P)) ⟨_, rfl⟩).mpr
      ⟨misaligned, failed, rfl⟩
    rw [Settles, thrown]
    exact .trap _

/-! ## Steps -/

/-- The assertion in `atomic_store_word`. -/
def lockAssertion : String := "bus_lock->is_locked(iss.get_hart_id())"

/-- Of the three assertions a fault fails at most the two of a translation. -/
def SparesMemory (translated : Prop) (fault : Fault) : Prop :=
  ∀ text ∈ memoryAssertions, fault = .assertion text → translated ∧ text ≠ lockAssertion

section Steps

variable {refused translated : Prop} {state : State P}

theorem sparesMemory_access {fault : Fault} (known : AccessThrows refused translated fault) :
    SparesMemory translated fault := by
  rintro text guarding rfl
  obtain ⟨raised, ⟨⟩⟩ | ⟨-, device⟩ | ⟨needed, failed⟩ := known
  · exfalso
    revert device guarding
    simp only [Fault.FromDevice, deviceAssertions, memoryAssertions, List.mem_cons,
      List.not_mem_nil, or_false]
    rintro (rfl | rfl | rfl) <;> decide
  · refine ⟨needed, ?_⟩
    obtain ⟨⟨⟩⟩ | ⟨⟨⟩⟩ := failed <;> decide

theorem sparesMemory_fromHart {fault : Fault} (known : Fault.FromHart fault) :
    SparesMemory translated fault := by
  rintro text guarding rfl
  exact absurd guarding known

theorem HartMeets.spares {α : Type} {body : IssM P α} (meets : HartMeets (fun _ => True) body)
    (empty : NoTranslation state) :
    Settles (SparesMemory translated) (fun _ after => NoTranslation after) body state :=
  (meets.settles empty).mono (fun _ _ good => good.2) fun _ => sparesMemory_fromHart

variable (walkless : P.mmuMem = false)

include walkless

theorem fetch_settles (ready : state.board.Ready state.hart.core)
    (translates : ¬Mmu.Bare state.hart.core .fetch → translated) :
    Settles (SparesMemory translated) (fun _ after => after.board.Ready state.hart.core)
      (fetch input) state := by
  refine Settles.bind (Settles.bind (Settles.get (Settles.pure (Settles.bind ?_))))
  refine Settles.require (fun _ => ?_) fun _ => ?_
  · have loaded : Settles (AccessThrows True translated)
        (fun _ after => after.board.Ready state.hart.core) (do
          let hart ← getHart
          let memWord ← memory fun core => loadInstr (bus core input) core hart.pc
          modifyHart fun hart => { hart with instr := memWord } : IssM P Unit) state := by
      refine Settles.bind (Settles.bind (Settles.get (Settles.pure ?_)))
      refine Settles.bind (memory_settles ?_)
      exact (loadInstr_settles (responds_bus _ input walkless) walkless ready _
        (fun _ _ _ => trivial) translates).mono (fun _ _ => Settles.modify) fun _ => id
    refine Settles.tryCatch loaded fun fault known _ => ?_
    split
    · exact Settles.bind (Settles.modify (Settles.throw (sparesMemory_access known)))
    · exact Settles.throw (sparesMemory_access known)
  · exact sparesMemory_fromHart (by simp [Fault.FromHart, memoryAssertions])

/-- The board as an instruction finds it. -/
theorem ready_decodedState (ready : state.board.Ready state.hart.core) {word : Instruction}
    (fetched : FetchReturns input state word) :
    (decodedState input state word).board.Ready (decodedState input state word).hart.core :=
  (fetch_settles input walkless ready fun _ => trivial).of_ok fetched.1

theorem execStep_settles (ready : state.board.Ready state.hart.core)
    (fetches : ¬Mmu.Bare state.hart.core .fetch → translated)
    (accesses : ∀ word made, FetchReturns input state word →
      access (decodedOpcode word) = some made → made.Issued (decodedState input state word) →
      ¬Mmu.Bare (decodedState input state word).hart.core .store → translated) :
    Settles (SparesMemory translated) (fun _ after => NoTranslation after) (execStep input)
      state := by
  have empty : NoTranslation state := ready.untranslated
  have settled : Settles (SparesMemory translated) (fun _ _ => True) (execStep input) state := by
    cases fetched : ((fetch input).run state).result with
    | error fault =>
        have thrown : ((execStep input).run state).result = .error fault :=
          bind_eq_error.mpr (.inl fetched)
        rw [Settles, thrown]
        exact (fetch_settles input walkless ready fetches).of_error fetched
    | ok value =>
        have returned : FetchReturns input state ((fetch input).run state).state.hart.instr :=
          ⟨fetched, rfl⟩
        have ready' := ready_decodedState input walkless ready returned
        have ran : Settles (SparesMemory translated) (fun _ _ => True)
            (execute input (decodedOpcode ((fetch input).run state).state.hart.instr))
            (decodedState input state ((fetch input).run state).state.hart.instr) := by
          generalize found : decodedOpcode ((fetch input).run state).state.hart.instr = op
          cases made : (access op : Option (Access P.clover.terms)) with
          | some made' =>
              refine (execute_settles input made walkless ready' ?_ fun _ _ => trivial).mono
                (fun _ _ => id) fun _ => sparesMemory_access
              exact accesses _ made' returned (found ▸ made)
          | none =>
              by_cases missing : unimplemented op = true
              · rw [execute_of_unimplemented input missing]
                refine Settles.throw ?_
                rintro text guarding ⟨⟩
              · have plain := meets_execute_plain input (Bool.eq_false_of_not_eq_true missing) made
                exact (plain.spares ready'.untranslated).mono (fun _ _ _ => trivial) fun _ => id
        rw [Settles, execStep_run input returned]
        exact ran
  refine settled.traced.mono ?_ fun _ => id
  rintro _ _ ⟨-, -, rfl⟩
  exact (meets_execStep input state empty).1

/-- What a step fails of the three assertions is due to a translation. -/
theorem runStep_settles (ready : state.board.Ready state.hart.core)
    (fetches : Runs state → ¬Mmu.Bare state.hart.core .fetch → translated)
    (accesses : Runs state → ∀ made middle, Accesses input state made middle →
      made.Issued middle → ¬Mmu.Bare middle.hart.core .store → translated) :
    Settles (SparesMemory translated) (fun _ _ => True) (runStep input) state := by
  have spared : ∀ text, text ∉ memoryAssertions → SparesMemory translated (.assertion text) :=
    fun text other => sparesMemory_fromHart other
  by_cases runs : Runs state
  · have executes : Settles (SparesMemory translated) (fun _ after => NoTranslation after)
        (stepAndInterrupt input) (begun state) := by
      have ready' : (begun state).board.Ready (begun state).hart.core := ready
      refine Settles.bind ((execStep_settles input walkless ready' (fetches runs) ?_).mono ?_
        fun _ => id)
      · exact fun word made fetched found => accesses runs made _ ⟨word, fetched, found, rfl⟩
      · exact fun _ _ empty => meets_interrupt.spares empty
    have handled : Settles (SparesMemory translated) (fun _ after => NoTranslation after)
        (Exec.tryCatch (stepAndInterrupt input) handleFault) (begun state) := by
      refine Settles.tryCatch executes fun fault known _ => ?_
      have empty := (keepsEmpty_stepAndInterrupt input (begun state) ready.untranslated).1
      cases fault with
      | trap raised => exact (meets_handleTrap raised).spares empty
      | _ => exact Settles.throw known
    have finished : Settles (SparesMemory translated) (fun _ _ => True) (do
        let taken ← Exec.tryCatch (stepAndInterrupt input) handleFault
        finishStep
        pure taken : IssM P Taken) (begun state) := by
      refine Settles.bind (handled.mono (fun _ _ empty => ?_) fun _ => id)
      refine Settles.bind ((meets_finishStep.spares empty).mono ?_ fun _ => id)
      exact fun _ _ _ => Settles.pure trivial
    rw [Settles, runStep_of_runs input runs]
    exact finished
  · refine Settles.bind (Settles.bind (Settles.get (Settles.pure (Settles.bind ?_))))
    refine Settles.require (fun cleared => ?_) fun _ => spared _ (by simp [memoryAssertions])
    have stopped : AtBreakpoint state := not_not.mp fun running => runs ⟨cleared, running⟩
    rw [AtBreakpoint] at stopped
    simp only [if_pos stopped]
    exact Settles.bind (Settles.modify (Settles.pure trivial))

end Steps

/-! ## Runs -/

/-- The step ends in the failure of an assertion. -/
def Asserts (state : State P) (text : String) : Prop :=
  ((runStep input).run state).result = .error (.assertion text)

/-- No access of the step has its address translated; loads ask for the translation of a store. -/
structure StepBare (state : State P) : Prop where
  fetch : Runs state → Mmu.Bare state.hart.core .fetch
  data : Runs state → ∀ made middle, Accesses input state made middle → made.Issued middle →
    Mmu.Bare middle.hart.core .store

/-- What can be relied on along the way of an access. -/
structure MemoryPathHolds (state : State P) : Prop where
  locked : ¬Asserts input state lockAssertion
  untranslated : StepBare input state → ∀ text ∈ memoryAssertions, ¬Asserts input state text
  /-- A data access completes, traps, or is refused by a device. -/
  served : ∀ made middle, Accesses input state made middle →
    (made.Issued middle → Mmu.Bare middle.hart.core .store) →
    (executed input state).result = .ok () ∨
      (∃ raised, (executed input state).result = .error (.trap raised)) ∨
      made.Issued middle ∧ made.Refused input middle ∧
        ∃ fault, (executed input state).result = .error fault ∧ fault.FromDevice

/-- Along every run of the platform no atomic memory operation has lost the lock, a step without
translation fails none of the assertions, and its data access ends as it should. -/
theorem memoryPathHolds_of_reachable (clover : Clover) (world : World) (depth : Nat)
    (input : (symexPlatform clover world depth).clover.terms.Assignment)
    {state : State (symexPlatform clover world depth)} (reachable : Reachable input state) :
    MemoryPathHolds input state := by
  have ready : state.board.Ready state.hart.core :=
    ⟨owned_of_reachable input reachable, noTranslation_of_reachable input reachable⟩
  constructor
  · intro failed
    have settled : Settles (SparesMemory True) (fun _ _ => True) (runStep input) state :=
      runStep_settles input rfl ready (fun _ _ => trivial) fun _ _ _ _ _ _ => trivial
    exact (settled.of_error failed lockAssertion (by decide) rfl).2 rfl
  · intro bare text guarding failed
    have settled : Settles (SparesMemory False) (fun _ _ => True) (runStep input) state := by
      refine runStep_settles input rfl ready (fun runs needed => needed (bare.fetch runs)) ?_
      exact fun runs made middle accesses issued needed =>
        needed (bare.data runs made middle accesses issued)
    exact (settled.of_error failed text guarding rfl).1
  · rintro made _ ⟨word, fetched, found, rfl⟩ bare
    let middle := decodedState input (begun state) word
    have begins : (begun state).board.Ready (begun state).hart.core := ready
    have ready' : middle.board.Ready middle.hart.core := ready_decodedState input rfl begins fetched
    have settled : Settles (AccessThrows (made.Issued middle ∧ made.Refused input middle) False)
        (fun _ _ => True) (execute input (decodedOpcode word)) middle :=
      execute_settles input found rfl ready' (fun issued needed => needed (bare issued)) And.intro
    rw [executed, execStep_run input fetched]
    cases ended : ((execute input (decodedOpcode word)).run middle).result with
    | ok value => exact .inl rfl
    | error fault =>
        obtain ⟨raised, rfl⟩ | ⟨⟨issued, refused⟩, device⟩ | ⟨needed, -⟩ := settled.of_error ended
        · exact .inr (.inl ⟨raised, rfl⟩)
        · exact .inr (.inr ⟨issued, refused, fault, rfl, device⟩)
        · exact needed.elim

/-- A program that adds to a word in memory: its address is not translated. -/
theorem memoryPathHolds_amoadd : ∃ (state : State tryoutPlatform) (made : _) (middle : _),
    Accesses zeroInput state made middle ∧ made.Issued middle ∧
      Mmu.Bare middle.hart.core .store ∧ MemoryPathHolds zeroInput state := by
  let start := programStart [0x40000093, 0x0010a12f]
  let state := stateAfter (runStep zeroInput) 1 start
  have reached : Reaches (runStep zeroInput) start state := reaches_stateAfter (by decide +kernel)
  have fetched : FetchReturns zeroInput (begun state) 0x0010a12f := by
    unfold FetchReturns
    decide +kernel
  refine ⟨state, .amo _, _, ⟨_, fetched, rfl, rfl⟩, ⟨?_, trivial⟩, ?_, ?_⟩
  · decide +kernel
  · decide +kernel
  · exact memoryPathHolds_of_reachable Clover.reference idleWorld 2 zeroInput
      ⟨start, reset_programStart _, reached⟩

/-- A return to user mode with a translation selected fails the assertion on page tables, a load
with the privilege of an undefined mode the one on modes, and a load from an address of the
control device without a register neither completes nor traps. -/
theorem not_memoryPath :
    (∃ state : State tryoutPlatform, Reachable zeroInput state ∧ Asserts zeroInput state "mem") ∧
    (∃ state : State tryoutPlatform, Reachable zeroInput state ∧
      Asserts zeroInput state "mode == 0 || mode == 1") ∧
    ∃ (state : State tryoutPlatform) (made : _) (middle : _), Reachable zeroInput state ∧
      Accesses zeroInput state made middle ∧ (executed zeroInput state).result =
        .error (.runtimeError "SymbolicCTRL unable to route address 12") := by
  let after count words := stateAfter (runStep zeroInput) count (programStart words)
  refine ⟨?_, ?_, ?_⟩
  · let state := after 3 [0x800000b7, 0x18009073, 0x30200073]
    have reached : Reaches (runStep zeroInput) _ state := reaches_stateAfter (by decide +kernel)
    refine ⟨state, ⟨_, reset_programStart _, reached⟩, ?_⟩
    unfold Asserts
    decide +kernel
  · let state := after 4 [0x800000b7, 0x18009073, 0x00021137, 0x30011073, 0x00002183]
    have reached : Reaches (runStep zeroInput) _ state := reaches_stateAfter (by decide +kernel)
    refine ⟨state, ⟨_, reset_programStart _, reached⟩, ?_⟩
    unfold Asserts
    decide +kernel
  · let state := after 1 [0x020200b7, 0x00c0a103]
    have reached : Reaches (runStep zeroInput) _ state := reaches_stateAfter (by decide +kernel)
    have fetched : FetchReturns zeroInput (begun state) 0x00c0a103 := by
      unfold FetchReturns
      decide +kernel
    refine ⟨state, .load 4, _, ⟨_, reset_programStart _, reached⟩, ⟨_, fetched, rfl, rfl⟩, ?_⟩
    decide +kernel

end SymexVP.Iss
