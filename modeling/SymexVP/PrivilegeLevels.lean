import SymexVP.TrapHandling

/-!
# Known privilege levels

The simulator distinguishes user, supervisor and machine mode. The field that holds
the previous level of a machine-mode trap has two bits, and a write to `mstatus` can
set it to the fourth value; `MRET` then makes it the current level. As long as no
write does so, every level that occurs is a known one.
-/

namespace SymexVP.Iss

open Exec Opcode BitFields

variable {P : Platform} (input : P.clover.terms.Assignment)

/-- The current level and the one a return from machine mode would restore. -/
def KnownLevels (control : Control) : Prop :=
  isValidPrivilegeLevel control.prv ∧
    isValidPrivilegeLevel (Mstatus.mpp.get control.csrs.mstatus)

/-- The field has two bits, so that only one of its values is unknown. -/
theorem isValid_mpp {mstatus : BitVec 32} (known : Mstatus.mpp.get mstatus ≠ hypervisorMode) :
    isValidPrivilegeLevel (Mstatus.mpp.get mstatus) := by
  have field : Mstatus.mpp.get mstatus = (mstatus.extractLsb' 11 2).setWidth 32 :=
    getField_eq_extract 11 2 mstatus (by decide)
  rw [field] at known ⊢
  generalize mstatus.extractLsb' 11 2 = bits at known ⊢
  revert bits
  decide

theorem isValid_spp (mstatus : BitVec 32) : isValidPrivilegeLevel (Mstatus.spp.get mstatus) := by
  have field : Mstatus.spp.get mstatus = (mstatus.extractLsb' 8 1).setWidth 32 :=
    getField_eq_extract 8 1 mstatus (by decide)
  rw [field]
  generalize mstatus.extractLsb' 8 1 = bits
  revert bits
  decide

/-- A known level fits the field it is saved in. -/
theorem mpp_set_of_valid {level : PrivilegeLevel} (valid : isValidPrivilegeLevel level)
    (mstatus : BitVec 32) : Mstatus.mpp.get (Mstatus.mpp.set mstatus level) = level := by
  refine BitField.get_set_of_fits ?_ mstatus
  obtain rfl | rfl | rfl := mode_cases valid <;> decide

/-! ## Writes -/

/-- The step executes a CSR instruction that writes `mstatus` with the unknown level in the field
for the previous one. -/
def WritesUnknownLevel (state : State P) : Prop :=
  ¬AtBreakpoint state ∧ ∃ word value, FetchReturns input (begun state) word ∧
    (decoded word).2.csr = CsrName.mstatus.addr ∧
    csrOperand (decodedOpcode word) (decodedHart (begun state).hart word)
      (state.hart.csrs.mstatus &&& CsrMask.MSTATUS) = some value ∧
    Mstatus.mpp.get value = hypervisorMode

/-- Only a write to `mstatus` changes the previous level. -/
theorem write32_mpp {name : CsrName} {value : BitVec 32}
    (known : name.addr = CsrName.mstatus.addr → Mstatus.mpp.get value ≠ hypervisorMode)
    {csrs : CsrTable} (valid : isValidPrivilegeLevel (Mstatus.mpp.get csrs.mstatus)) :
    isValidPrivilegeLevel (Mstatus.mpp.get (csrs.write32 value name).mstatus) := by
  cases name with
  | mstatus =>
      have written : Mstatus.mpp.get (merge CsrMask.MSTATUS csrs.mstatus value) =
          Mstatus.mpp.get value := BitField.get_merge_of_subset (by decide) _ _
      have chosen := isValid_mpp (known rfl)
      rw [← written] at chosen
      exact chosen
  | sstatus =>
      have kept : Mstatus.mpp.get (merge CsrMask.SSTATUS csrs.mstatus value) =
          Mstatus.mpp.get csrs.mstatus := BitField.get_merge_of_disjoint (by decide) _ _
      rw [← kept] at valid
      exact valid
  | ustatus =>
      have kept : Mstatus.mpp.get (merge CsrMask.USTATUS csrs.mstatus value) =
          Mstatus.mpp.get csrs.mstatus := BitField.get_merge_of_disjoint (by decide) _ _
      rw [← kept] at valid
      exact valid
  | _ => exact valid

/-! ## Steps -/

/-- A return restores a known level and leaves user mode behind as the previous one. -/
theorem knownLevels_returned {state : State P} (levels : KnownLevels (control state)) :
    KnownLevels (control { state with hart := returned machineMode state.hart }) := by
  refine ⟨levels.2, ?_⟩
  show isValidPrivilegeLevel (Mstatus.mpp.get (Mstatus.mpp.set _ userMode)) = true
  rw [mpp_set_of_valid rfl]
  rfl

/-- Entering a handler saves a known level. -/
theorem knownLevels_entered {mode : PrivilegeLevel} (valid : isValidPrivilegeLevel mode)
    {hart : Hart P.clover.terms} (levels : KnownLevels ⟨hart.prv, hart.csrs.settled⟩) :
    KnownLevels ⟨(entered mode hart).prv, (entered mode hart).csrs.settled⟩ := by
  refine ⟨valid, ?_⟩
  have current : isValidPrivilegeLevel hart.prv := levels.1
  obtain rfl | rfl | rfl := mode_cases valid
  · show isValidPrivilegeLevel (Mstatus.mpp.get (Mstatus.mpp.set _ hart.prv)) = true
    rw [mpp_set_of_valid current]
    exact current
  · show isValidPrivilegeLevel
      (Mstatus.mpp.get (Mstatus.spp.set (Mstatus.sie.set (Mstatus.spie.set _ _) _) _)) = true
    rw [BitField.get_set_of_apart (by decide), BitField.get_set_of_apart (by decide),
      BitField.get_set_of_apart (by decide)]
    exact levels.2
  · show isValidPrivilegeLevel
      (Mstatus.mpp.get (Mstatus.uie.set (Mstatus.upie.set _ _) _)) = true
    rw [BitField.get_set_of_apart (by decide), BitField.get_set_of_apart (by decide)]
    exact levels.2

theorem knownLevels_executed {state : State P} (levels : KnownLevels (control state))
    (harmless : ¬WritesUnknownLevel input state) (running : ¬AtBreakpoint state) :
    KnownLevels (control (executed input state).state) := by
  refine (execChanges_execStep input (begun state)).keeps input levels ?_ ?_
  · intro word name csrVal value fetched addressed allowed operand old
    refine ⟨levels.1, write32_mpp (fun status reserved => ?_) levels.2⟩
    refine harmless ⟨running, word, value, fetched, addressed ▸ status, ?_, reserved⟩
    rw [old status] at operand
    exact operand
  · intro word fetched returns
    exact knownLevels_returned levels

theorem knownLevels_runStep {state : State P} (levels : KnownLevels (control state))
    (harmless : ¬WritesUnknownLevel input state) {taken : Taken}
    (returned : ((runStep input).run state).result = .ok taken) :
    KnownLevels (control ((runStep input).run state).state) := by
  refine (stepTakes_runStep input returned).keeps input levels
    (knownLevels_executed input levels harmless) ?_ ?_ ?_
  · intro mode hart code interrupt _ valid known
    obtain rfl | rfl | rfl := mode_cases valid <;> exact known
  · intro mode hart tval _ valid known
    obtain rfl | rfl | rfl := mode_cases valid <;> exact known
  · intro mode hart _ valid known
    exact knownLevels_entered valid known

/-! ## Runs -/

/-- Every level that plays a role in a state is a known one: the current level, the previous
one, what a return from any handler makes the current level, and the one `ECALL` reports
while an instruction of this state executes. -/
structure LevelsAreKnown (state : State P) : Prop where
  prv : isValidPrivilegeLevel state.hart.prv
  mpp : isValidPrivilegeLevel (Mstatus.mpp.get state.hart.csrs.mstatus)
  restored : ∀ mode, isValidPrivilegeLevel mode →
    isValidPrivilegeLevel ((returnFromTrapHandler mode).run state).state.hart.prv
  ecall : ∀ during : State P, during.hart.prv = state.hart.prv → ∀ level,
    ((ecall : IssM P Unit).run during).result ≠ .error (unknownPrivilegeLevel level)

theorem levelsAreKnown {state : State P} (levels : KnownLevels (control state)) :
    LevelsAreKnown state where
  prv := levels.1
  mpp := levels.2
  restored := by
    intro mode valid
    rw [returnFromTrapHandler_run valid]
    obtain rfl | rfl | rfl := mode_cases valid
    · exact levels.2
    · exact isValid_spp _
    · rfl
  ecall := by
    intro during same level thrown
    have valid : isValidPrivilegeLevel during.hart.prv := by
      rw [same]
      exact levels.1
    simp only [ecall, getHart, bind_run, get_run, pure_run, Outcome.andThen_ok] at thrown
    obtain machine | supervisor | user := mode_cases valid
    · rw [if_pos machine] at thrown
      cases thrown
    · rw [supervisor] at thrown
      cases thrown
    · rw [user] at thrown
      cases thrown

/-- In a run from reset in which no step writes the unknown level to `mstatus`, every state has
known levels only. -/
theorem levelsAreKnown_along_run {start : State P} (reset : Reset start)
    (harmless : ∀ state, Reaches (runStep input) start state → ¬WritesUnknownLevel input state)
    {state : State P} (reached : Reaches (runStep input) start state) : LevelsAreKnown state := by
  refine levelsAreKnown ?_
  induction reached with
  | start =>
      cases reset
      exact ⟨rfl, (by decide : isValidPrivilegeLevel (Mstatus.mpp.get 0) = true)⟩
  | step earlier returned inductionHypothesis =>
      exact knownLevels_runStep input inductionHypothesis (harmless _ earlier) returned

/-- A first instruction sets the machine-mode interrupt enable, a second one ends the
simulation. -/
theorem levelsAreKnown_csrrwi :
    LevelsAreKnown (stateAfter (runStep zeroInput) 1 (programStart [0x30045073, 0x10200073])) := by
  let start := programStart [0x30045073, 0x10200073]
  have stops : ((runStep zeroInput).run (stateAfter (runStep zeroInput) 1 start)).result =
      .error (.runtimeError "unknown opcode") := by decide +kernel
  refine levelsAreKnown_along_run zeroInput (reset_programStart _) (fun state reached => ?_)
    (reaches_stateAfter (by decide +kernel))
  have two : state = start ∨ state = stateAfter (runStep zeroInput) 1 start := by
    induction reached with
    | start => exact .inl rfl
    | step earlier returned inductionHypothesis =>
        obtain rfl | rfl := inductionHypothesis
        · exact .inr rfl
        · rw [stops] at returned
          cases returned
  rintro ⟨-, word, value, ⟨-, rfl⟩, addressed, operand, reserved⟩
  obtain rfl | rfl := two
  · have chosen : some value = some 8 := operand.symm.trans (by decide +kernel)
    cases chosen
    exact absurd reserved (by decide)
  · revert addressed
    decide +kernel

/-- `mstatus` is written with the unknown level as the previous one, `MRET` makes it the current
level, and `ECALL` throws. -/
theorem not_levelsAreKnown_mpp : ∃ state : State tryoutPlatform,
    Reachable zeroInput state ∧ isValidPrivilegeLevel state.hart.prv = false ∧
      ((runStep zeroInput).run state).result = .error (unknownPrivilegeLevel hypervisorMode) := by
  let start := programStart
    [0x000010b7, 0x30009073, 0x01400113, 0x34111073, 0x30200073, 0x00000073]
  have reached : Reaches (runStep zeroInput) start (stateAfter (runStep zeroInput) 5 start) :=
    reaches_stateAfter (by decide +kernel)
  refine ⟨_, ⟨start, reset_programStart _, reached⟩, ?_, ?_⟩
  · decide +kernel
  · decide +kernel

end SymexVP.Iss
