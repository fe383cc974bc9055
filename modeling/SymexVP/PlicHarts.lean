import SymexVP.PlicClaims

/-!
# Harts of the interrupt controller

Whether the harts of a controller are independent of each other. The rows of the enable
words are one word apart, a claim arbitrates for the first hart, and both callbacks take
an index of a word for the number of a hart: for the first hart these are the same.
-/

namespace SymexVP.Plic

open Exec

variable {config : Config} {plic next : State} {log : List Event} {hart id : Nat}

/-- The computation uses an index beyond an array. -/
def Leaves {α : Type} (body : PlicM α) (plic : State) : Prop :=
  (body.run plic).result = .error .outOfRange

/-- The access to a hart's claim register. -/
def claimRead (config : Config) (hart : Nat) : PlicM (List (BitVec 8)) :=
  (regsHartConfig config).process (.read (0x200000 + (8 * hart + 4)) 4)

def completionWrite (config : Config) (hart : Nat) (src : List (BitVec 8)) :
    PlicM (List (BitVec 8)) :=
  (regsHartConfig config).process (.write (0x200000 + (8 * hart + 4)) src)

/-- A claim of a hart: arbitration with its enable words, the result in its claim register. -/
structure ClaimsFor (config : Config) (hart : Nat) (plic next : State) (log : List Event) : Prop where
  arbitrates : log = [.claimed (arbitrate config plic hart false).1]
  stores : next.claimResponse hart = BitVec.ofNat 32 (arbitrate config plic hart false).1
  keeps : ∀ other, other < config.numberCores → other ≠ hart →
    next.claimResponse other = plic.claimResponse other

/-- A completion of a hart: its line, and no other, is re-evaluated. -/
structure CompletesFor (config : Config) (hart : Nat) (plic next : State) (log : List Event) :
    Prop where
  line : next.hartEip hart = hasPending config next hart
  keeps : ∀ other, other ≠ hart → next.hartEip other = plic.hartEip other
  shown : log = [if next.hartEip hart then .triggerExternalInterrupt hart
    else .clearExternalInterrupt hart]

/-- Every hart has its own enable words, claims and completions, and none leaves an array. -/
structure Independent (config : Config) : Prop where
  words : ∀ first second word word', first < config.numberCores → second < config.numberCores →
    word < config.numberInterruptEntries → word' < config.numberInterruptEntries →
    first ≠ second → enableWord first word ≠ enableWord second word'
  claims : ∀ plic hart, hart < config.numberCores → ¬Leaves (claimRead config hart) plic ∧
    ∀ data next log, Returns (claimRead config hart) plic data next log →
      ClaimsFor config hart plic next log
  completions : ∀ plic hart src, hart < config.numberCores → src.length = 4 →
    ¬Leaves (completionWrite config hart src) plic ∧
    ∀ data next log, Returns (completionWrite config hart src) plic data next log →
      CompletesFor config hart plic next log

/-! ## Leaving an array -/

theorem leaves_bind_iff {α β : Type} {first : PlicM α} {rest : α → PlicM β} :
    Leaves (first >>= rest) plic ↔ Leaves first plic ∨
      ∃ middle reached earlier, Returns first plic middle reached earlier ∧
        Leaves (rest middle) reached := by
  simp only [Leaves, bind_eq_error, Returns]
  generalize first.run plic = outcome
  obtain ⟨result, reached, earlier⟩ := outcome
  cases result with
  | error fault => simp
  | ok middle => simp

theorem leaves_require_iff {condition : Prop} [Decidable condition] {fault : RegisterFault} :
    Leaves (Exec.require condition fault : PlicM Unit) plic ↔
      ¬condition ∧ fault = .outOfRange := by
  unfold Exec.require
  split_ifs with holds <;> simp [Leaves, holds]

theorem leaves_checkIndex_iff {size index : Nat} :
    Leaves (checkIndex size index) plic ↔ ¬index < size := by
  rw [checkIndex, leaves_require_iff]
  simp

theorem not_leaves_modify (change : State → State) :
    ¬Leaves (Exec.modify change : PlicM Unit) plic := by simp [Leaves]

theorem not_leaves_emit (event : Event) : ¬Leaves (Exec.emit event : PlicM Unit) plic := by
  simp [Leaves]

theorem not_leaves_get : ¬Leaves (Exec.get : PlicM State) plic := by simp [Leaves]

theorem not_leaves_pure {α : Type} (value : α) : ¬Leaves (pure value : PlicM α) plic := by
  simp [Leaves]

theorem leaves_when_iff {condition : Prop} [Decidable condition] {body : PlicM Unit} :
    Leaves (Exec.when condition body) plic ↔ condition ∧ Leaves body plic := by
  unfold Exec.when
  split_ifs with holds
  · simp [holds]
  · simp [holds, not_leaves_pure]

theorem Looks.not_leaves {α : Type} {inside : Prop} {body : PlicM α} {value : α}
    (looks : Looks inside body plic value) (holds : inside) : ¬Leaves body plic := by
  have returned := looks.returns_of_inside holds
  rw [Returns] at returned
  simp [Leaves, returned]

/-! ## The last of several harts -/

/-- A scan that returns has been inside the enable words. -/
theorem enableWord_lt_of_scan {ids : List Nat} {best result : Nat × Nat}
    {considerThreshold : Bool}
    (returned : Returns (scan config hart considerThreshold ids best) plic result next log) :
    ∀ id ∈ ids, enableWord hart (id / 32) <
      config.numberInterruptEntries * config.numberCores := by
  induction ids generalizing best log plic with
  | nil => simp
  | cons id rest later =>
      obtain ⟨_, _, _, _, evaluated, continued, rfl⟩ := returns_bind_iff.mp returned
      obtain ⟨_, _, _, _, checked, -, rfl⟩ := returns_bind_iff.mp evaluated
      obtain ⟨inside, -, -⟩ := returns_checkIndex_iff.mp checked
      obtain ⟨_, _, _, _, -, scanned, rfl⟩ := returns_bind_iff.mp continued
      intro other member
      rcases List.mem_cons.mp member with rfl | earlier
      · exact inside
      · exact later scanned other earlier

/-! ## The accesses of a hart -/

theorem toLocal_hartConfig_add (config : Config) (offset : Nat) :
    (regsHartConfig config).toLocal (0x200000 + offset) = offset :=
  Nat.add_sub_cancel_left 0x200000 offset

/-- The claim registers are in the range, at addresses that pass its checks. -/
theorem hartConfig_checks (owns : hart < config.numberCores) :
    ((0x200000 + (8 * hart + 4)) % (regsHartConfig config).alignment = 0 ∧
        4 % (regsHartConfig config).alignment = 0) ∧
      (regsHartConfig config).contains (0x200000 + (8 * hart + 4)) = true ∧
        8 * hart + 4 + 4 ≤ (regsHartConfig config).size := by
  have alignment : (regsHartConfig config).alignment = 4 := rfl
  have size : (regsHartConfig config).size = 8 * config.numberCores := rfl
  have start : (regsHartConfig config).start = 0x200000 := rfl
  rw [RegisterRange.contains_iff, alignment, size, start]
  omega

theorem not_leaves_check {range : RegisterRange State Event} {address len : Nat} :
    ¬Leaves (range.check address len) plic := by
  simp [RegisterRange.check, leaves_bind_iff, leaves_require_iff]

theorem leaves_claimRead_iff (owns : hart < config.numberCores) :
    Leaves (claimRead config hart) plic ↔
      Leaves (preReadHartConfig config (8 * hart + 4) 4) plic := by
  obtain ⟨aligned, inside, fits⟩ := hartConfig_checks owns
  simp only [claimRead, RegisterRange.process, RegisterRange.read, leaves_bind_iff,
    leaves_require_iff, not_leaves_check, not_leaves_get, not_leaves_pure, returns_require_iff,
    RegisterRange.returns_check_iff, toLocal_hartConfig_add, reduceCtorEq, and_false, false_or,
    exists_false, or_false]
  constructor
  · rintro ⟨_, _, _, ⟨-, rfl, rfl⟩, _, _, _, ⟨-, rfl, rfl⟩, leaves⟩
    exact leaves
  · intro leaves
    exact ⟨(), _, _, ⟨aligned, rfl, rfl⟩, (), _, _, ⟨⟨inside, fits⟩, rfl, rfl⟩, leaves⟩

theorem returns_claimRead_iff (owns : hart < config.numberCores) {data : List (BitVec 8)} :
    Returns (claimRead config hart) plic data next log ↔
      Returns (preReadHartConfig config (8 * hart + 4) 4) plic () next log ∧
        next.hartConfig.read (8 * hart + 4) 4 = data := by
  obtain ⟨aligned, inside, fits⟩ := hartConfig_checks owns
  rw [claimRead, RegisterRange.returns_read_iff, toLocal_hartConfig_add]
  constructor
  · rintro ⟨-, -, called, same⟩
    exact ⟨called, same⟩
  · rintro ⟨called, same⟩
    exact ⟨aligned, ⟨inside, fits⟩, called, same⟩

/-- The state in which the callback of a completion starts. -/
def stored (plic : State) (hart : Nat) (src : List (BitVec 8)) : State :=
  { plic with hartConfig := plic.hartConfig.write (8 * hart + 4) src }

theorem leaves_completionWrite_iff (owns : hart < config.numberCores) {src : List (BitVec 8)}
    (whole : src.length = 4) : Leaves (completionWrite config hart src) plic ↔
      Leaves (postWriteHartConfig config (8 * hart + 4) 4) (stored plic hart src) := by
  obtain ⟨aligned, inside, fits⟩ := hartConfig_checks owns
  simp only [completionWrite, RegisterRange.process, RegisterRange.write, leaves_bind_iff,
    leaves_require_iff, not_leaves_check, not_leaves_modify, not_leaves_pure, returns_require_iff,
    RegisterRange.returns_check_iff, returns_modify_iff, toLocal_hartConfig_add, whole,
    reduceCtorEq, and_false, false_or, exists_false, or_false]
  constructor
  · rintro ⟨_, _, _, ⟨-, rfl, rfl⟩, _, _, _, ⟨-, rfl, rfl⟩, _, _, _, ⟨-, rfl, rfl⟩, _, _, _,
      ⟨rfl, rfl⟩, leaves⟩
    exact leaves
  · intro leaves
    exact ⟨(), _, _, ⟨aligned, rfl, rfl⟩, (), _, _, ⟨rfl, rfl, rfl⟩, (), _, _,
      ⟨⟨inside, fits⟩, rfl, rfl⟩, (), _, _, ⟨rfl, rfl⟩, leaves⟩

theorem returns_completionWrite_iff (owns : hart < config.numberCores) {src data : List (BitVec 8)}
    (whole : src.length = 4) : Returns (completionWrite config hart src) plic data next log ↔
      Returns (postWriteHartConfig config (8 * hart + 4) 4) (stored plic hart src) () next log ∧
        src = data := by
  obtain ⟨aligned, inside, fits⟩ := hartConfig_checks owns
  rw [completionWrite, RegisterRange.returns_write_iff, toLocal_hartConfig_add, whole]
  constructor
  · rintro ⟨-, -, called, same⟩
    exact ⟨called, same⟩
  · rintro ⟨called, same⟩
    exact ⟨⟨aligned, rfl⟩, ⟨inside, fits⟩, called, same⟩

/-! ## Several harts -/

/-- The claim of the last of several harts takes the index of its word for a hart. -/
theorem leaves_claim_of_several (several : 1 < config.numberCores) (plic : State) :
    Leaves (claimRead config (config.numberCores - 1)) plic := by
  rw [leaves_claimRead_iff (by omega)]
  have odd : (8 * (config.numberCores - 1) + 4) / 4 % 2 = 1 := by omega
  have beyond : ¬(8 * (config.numberCores - 1) + 4) / 4 - 1 < config.numberCores := by omega
  have aligned : (8 * (config.numberCores - 1) + 4) % 4 = 0 := by omega
  simp only [preReadHartConfig, leaves_bind_iff, leaves_require_iff, leaves_when_iff,
    returns_require_iff]
  refine .inr ⟨(), plic, [], ⟨aligned, rfl, rfl⟩, odd, .inr ⟨(), plic, [], ⟨trivial, rfl, rfl⟩, ?_⟩⟩
  -- Either the arbitration has left an array already, or the index does.
  rcases looks_next_anyway config plic 0 false with returned | ⟨-, failed⟩
  · refine .inr ⟨_, plic, [], returned, .inl ?_⟩
    exact leaves_checkIndex_iff.mpr beyond
  · exact .inl (by rw [Leaves, failed])

/-- Without a word for every interrupt the arbitration of a single hart leaves the words. -/
theorem leaves_claim_of_not_covers (single : config.numberCores = 1)
    (uncovered : ¬config.Covers) (plic : State) : Leaves (claimRead config 0) plic := by
  rw [leaves_claimRead_iff (by omega)]
  simp only [preReadHartConfig, leaves_bind_iff, leaves_require_iff, leaves_when_iff,
    returns_require_iff]
  refine .inr ⟨(), plic, [], ⟨by decide, rfl, rfl⟩, by decide,
    .inr ⟨(), plic, [], ⟨trivial, rfl, rfl⟩, .inl ?_⟩⟩
  rcases looks_next_anyway config plic 0 false with returned | ⟨-, failed⟩
  · exfalso
    obtain ⟨_, _, _, _, scanned, -, -⟩ := returns_bind_iff.mp (returned : Returns _ _ _ _ _)
    have positive := config.entriesPositive
    have member : 32 * config.numberInterruptEntries ∈
        List.range' 1 (config.numberInterrupts - 1) := by
      unfold Config.Covers at uncovered
      rw [List.mem_range'_1]
      omega
    have inside := enableWord_lt_of_scan scanned _ member
    rw [single] at inside
    unfold enableWord at inside
    omega
  · rw [Leaves, failed]

/-! ## A single hart -/

theorem not_leaves_claim (covers : config.Covers) :
    ¬Leaves (preReadHartConfig config 4 4) plic := by
  have cores := config.coresPositive
  have looks : Looks True (hartGetNextPendingInterrupt config 0 false) plic _ :=
    looks_next (fun _ => covers) (fun _ => cores)
  simp only [preReadHartConfig, clearPendingInterrupt, leaves_bind_iff, leaves_require_iff,
    leaves_when_iff, leaves_checkIndex_iff, not_leaves_modify, not_leaves_emit,
    returns_require_iff, returns_checkIndex_iff, reduceCtorEq, and_false, false_or, exists_false,
    or_false]
  rintro ⟨_, _, _, ⟨-, rfl, rfl⟩, -, _, _, _, ⟨-, rfl, rfl⟩, searched | ⟨id, _, _, found, leaves⟩⟩
  · exact looks.not_leaves trivial searched
  · obtain ⟨rfl, rfl, rfl⟩ := looks.of_returns found
    rcases leaves with beyond | ⟨_, _, _, -, _, _, _, -, _, _, _, ⟨valid, -, -⟩, beyond⟩
    · exact beyond cores
    · unfold Config.Covers at covers
      omega

theorem not_leaves_completion (covers : config.Covers) :
    ¬Leaves (postWriteHartConfig config 4 4) plic := by
  have cores := config.coresPositive
  have looks : Looks True (hartHasPendingEnabledInterrupts config (4 / 4 - 1)) plic _ :=
    looks_hasPending (fun _ => covers) (fun _ => cores)
  simp only [postWriteHartConfig, leaves_bind_iff, leaves_require_iff, leaves_when_iff,
    leaves_checkIndex_iff, not_leaves_get, returns_require_iff, reduceCtorEq, and_false, false_or]
  rintro ⟨_, _, _, ⟨-, rfl, rfl⟩, -, _, _, _, ⟨-, rfl, rfl⟩, looked | ⟨again, _, _, found, leaves⟩⟩
  · exact looks.not_leaves trivial looked
  · obtain ⟨rfl, rfl, rfl⟩ := looks.of_returns found
    rcases leaves with beyond | ⟨_, _, _, -, _, _, _, -, decided⟩
    · exact beyond cores
    · split_ifs at decided
      · simp [leaves_bind_iff, leaves_require_iff, not_leaves_emit] at decided
      · simp [leaves_bind_iff, not_leaves_modify, not_leaves_emit] at decided

theorem independent_of_single (single : config.numberCores = 1) (covers : config.Covers) :
    Independent config := by
  have cores := config.coresPositive
  refine ⟨?_, ?_, ?_⟩
  · intro first second word word' owns owns' _ _ different
    omega
  · intro plic hart owns
    obtain rfl : hart = 0 := by omega
    refine ⟨?_, ?_⟩
    · rw [leaves_claimRead_iff owns]
      exact not_leaves_claim covers
    · intro data next log returned
      obtain ⟨called, -⟩ := (returns_claimRead_iff owns).mp returned
      rcases returns_preReadHartConfig called with ⟨even, -, -⟩ | ⟨-, -, -, rfl, rfl⟩
      · omega
      · refine ⟨rfl, RegisterMemory.get_set_self 4 plic.hartConfig 1 _, ?_⟩
        intro other owns' different
        omega
  · intro plic hart src owns whole
    obtain rfl : hart = 0 := by omega
    refine ⟨?_, ?_⟩
    · rw [leaves_completionWrite_iff owns whole]
      exact not_leaves_completion covers
    · intro data next log returned
      obtain ⟨called, -⟩ := (returns_completionWrite_iff owns whole).mp returned
      rcases returns_postWriteHartConfig called with ⟨even, -, -⟩ | ⟨-, -, -, decided⟩
      · omega
      · rcases decided with ⟨some, raised, rfl, rfl⟩ | ⟨none, rfl, rfl⟩
        · refine ⟨raised.trans some.symm, fun other different => rfl, ?_⟩
          simp only [show (8 * 0 + 4) / 4 - 1 = 0 from rfl] at raised ⊢
          rw [raised]
          rfl
        · refine ⟨none.symm, ?_, rfl⟩
          intro other different
          exact if_neg different

/-- The harts of a controller are independent exactly if there is one hart and its words hold
every interrupt. -/
theorem independent_iff (config : Config) :
    Independent config ↔ config.numberCores = 1 ∧ config.Covers := by
  constructor
  · intro independent
    have cores := config.coresPositive
    have single : config.numberCores = 1 := by
      by_contra several
      have last : config.numberCores - 1 < config.numberCores := by omega
      exact (independent.claims (initial config) _ last).1
        (leaves_claim_of_several (by omega) (initial config))
    refine ⟨single, ?_⟩
    by_contra uncovered
    exact (independent.claims (initial config) 0 cores).1
      (leaves_claim_of_not_covers single uncovered (initial config))
  · rintro ⟨single, covers⟩
    exact independent_of_single single covers

/-- The board's controller with a second hart. -/
def twoHarts : Config where
  numberCores := 2
  numberInterrupts := 53
  numberInterruptEntries := 64
  maxPriority := 7
  interruptsBound := hifive.interruptsBound
  coresBound := by decide
  coresPositive := by decide
  entriesPositive := hifive.entriesPositive

/-- The claim of the second hart, and the enable words of the two. -/
theorem two_harts_dependent :
    ¬Independent twoHarts ∧ Leaves (claimRead twoHarts 1) (initial twoHarts) ∧
      enableWord 0 1 = enableWord 1 0 := by
  have leaves : Leaves (claimRead twoHarts 1) (initial twoHarts) :=
    leaves_claim_of_several (by decide) (initial twoHarts)
  refine ⟨?_, leaves, rfl⟩
  intro independent
  exact (independent.claims (initial twoHarts) 1 (by decide)).1 leaves

end SymexVP.Plic
