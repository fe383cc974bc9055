import SymexVP.PlicDelivery
import SymexVP.PlicHarts

/-!
# Completions and the line of the hart

A completion asserts that the line is up whenever there is something left to deliver. The
line is the work of the process, which follows a gateway only a cycle later: a completion
in between finds it down. So does one after a write that made a waiting interrupt
deliverable, which no notification follows at all.
-/

namespace SymexVP.Plic

open Exec

variable {config : Config} {plic next : State} {action : Action} {log events : List Event}
  {address : Nat} {src : List (BitVec 8)}

/-- The assertion of `post_write_hart_config`. -/
def eipAssertion : RegisterFault := .assertion "hart_eip[idx]"

/-- A computation in which the assertion does not fail. -/
def Spares {α : Type} (body : PlicM α) : Prop :=
  Exec.Meets (fun _ => True) (fun _ => True) (· ≠ eipAssertion) body

/-! ## What has other assertions only -/

theorem spares_require {condition : Prop} [Decidable condition] {fault : RegisterFault}
    (other : fault ≠ eipAssertion) : Spares (Exec.require condition fault) := by
  have checked : Exec.Meets (fun _ => True) (fun _ => condition) (· ≠ eipAssertion)
      (Exec.require condition fault : PlicM Unit) := Exec.Meets.require other
  exact checked.mono (fun _ _ => trivial) fun _ different => different

theorem Spares.bind {α β : Type} {first : PlicM α} {rest : α → PlicM β} (head : Spares first)
    (tail : ∀ value, Spares (rest value)) : Spares (first >>= rest) :=
  Exec.Meets.bind head fun value _ => tail value

theorem spares_checkIndex (size index : Nat) : Spares (checkIndex size index) :=
  spares_require (by decide)

theorem spares_of_looks {α : Type} {inside : Prop} {body : PlicM α} {value : State → α}
    (looks : ∀ plic, Looks inside body plic (value plic)) : Spares body := by
  intro plic _
  refine ⟨trivial, fun _ _ => trivial, ?_⟩
  intro fault failed
  rcases looks plic with returned | ⟨_, left⟩
  · rw [returned] at failed
    cases failed
  · rw [left] at failed
    cases failed
    decide

theorem spares_get : Spares (Exec.get : PlicM State) :=
  Exec.Meets.get.mono (fun _ _ => trivial) fun _ same => same

theorem spares_gateway (config : Config) (id : Nat) :
    Spares (gatewayTriggerInterrupt config id) := by
  refine (spares_require (by decide)).bind fun _ => ?_
  refine (spares_checkIndex _ _).bind fun _ => ?_
  refine Spares.bind (Exec.Meets.emit _) fun _ => ?_
  exact Spares.bind (Exec.Meets.modify fun _ _ => trivial) fun _ =>
    Exec.Meets.modify fun _ _ => trivial

theorem spares_preReadHartConfig (config : Config) (address size : Nat) :
    Spares (preReadHartConfig config address size) := by
  refine (spares_require (by decide)).bind fun _ => ?_
  refine Exec.Meets.when fun _ => ?_
  refine (spares_require (by decide)).bind fun _ => ?_
  refine (spares_of_looks fun plic => looks_next_anyway config plic 0 false).bind fun minId => ?_
  refine (spares_checkIndex _ _).bind fun _ => ?_
  refine Spares.bind (Exec.Meets.modify fun _ _ => trivial) fun _ => ?_
  refine Spares.bind ?_ fun _ => Exec.Meets.emit _
  refine (spares_require (by decide)).bind fun _ => ?_
  exact (spares_checkIndex _ _).bind fun _ => Exec.Meets.modify fun _ _ => trivial

theorem spares_raiseAll (config : Config) (harts : List Nat) : Spares (raiseAll config harts) := by
  induction harts with
  | nil => exact Exec.Meets.pure trivial
  | cons hart rest inductionHypothesis =>
      refine Spares.bind ?_ fun _ => inductionHypothesis
      refine spares_get.bind fun plic => ?_
      refine Exec.Meets.when fun _ => ?_
      refine (spares_of_looks fun plic => looks_hasPending_anyway config plic hart).bind
        fun found => ?_
      refine Exec.Meets.when fun _ => ?_
      exact Spares.bind (Exec.Meets.modify fun _ _ => trivial) fun _ => Exec.Meets.emit _

theorem spares_run (config : Config) : Spares (run config) :=
  Spares.bind (Exec.Meets.modify fun _ _ => trivial) fun _ => spares_raiseAll config _

theorem spares_read (config : Config) (address count : Nat) :
    Spares (transport config (.read address count)) := by
  unfold transport route
  split
  case h_1 => exact Exec.Meets.throw (by intro same; cases same)
  case h_2 range found =>
    have callback : Spares (range.preRead (range.toLocal address) count) := by
      have member : range ∈ registerRanges config := List.mem_of_find?_eq_some found
      simp only [registerRanges, List.mem_cons, List.not_mem_nil, or_false] at member
      rcases member with rfl | rfl | rfl | rfl
      · exact Exec.Meets.pure trivial
      · exact Exec.Meets.pure trivial
      · exact Exec.Meets.pure trivial
      · exact spares_preReadHartConfig config _ _
    refine (spares_require (by decide)).bind fun _ => ?_
    refine Spares.bind ?_ fun _ => ?_
    · exact (spares_require (by decide)).bind fun _ => spares_require (by decide)
    · refine callback.bind fun _ => ?_
      refine spares_get.bind fun _ => ?_
      exact Exec.Meets.pure trivial

/-! ## A completion that fails -/

/-- The assertion fails behind what spares it. -/
theorem Spares.later {α β : Type} {first : PlicM α} {rest : α → PlicM β} (spares : Spares first)
    (failed : ((first >>= rest).run plic).result = .error eipAssertion) :
    ∃ value reached earlier, Returns first plic value reached earlier ∧
      ((rest value).run reached).result = .error eipAssertion := by
  have head := (spares plic trivial).2.2
  rw [bind_run] at failed
  unfold Returns
  generalize first.run plic = outcome at head failed ⊢
  obtain ⟨result, reached, earlier⟩ := outcome
  cases result with
  | ok value => exact ⟨value, reached, earlier, rfl, failed⟩
  | error fault => exact absurd (Except.error.inj failed) (head fault rfl)

/-- A write in which the assertion fails has passed the checks of its range. -/
theorem process_write_eip {range : RegisterRange State Event}
    (failed : ((range.process (.write address src)).run plic).result = .error eipAssertion) :
    address % range.alignment = 0 ∧ range.contains address = true ∧
      ((range.postWrite (range.toLocal address) src.length).run
        (range.put ((range.mem plic).write (range.toLocal address) src) plic)).result =
          .error eipAssertion := by
  obtain ⟨_, _, _, divisible, failed⟩ := (spares_require (by decide)).later failed
  obtain ⟨aligned, rfl, _⟩ := returns_require_iff.mp divisible
  obtain ⟨_, _, _, writable, failed⟩ := (spares_require (by decide)).later failed
  obtain ⟨_, rfl, _⟩ := returns_require_iff.mp writable
  rcases bind_eq_error.mp failed with failed | ⟨_, _, ended⟩
  · have checks : Spares (range.check address src.length) :=
      (spares_require (by decide)).bind fun _ => spares_require (by decide)
    obtain ⟨_, _, _, checked, failed⟩ := checks.later failed
    obtain ⟨⟨inside, _⟩, rfl, _⟩ := RegisterRange.returns_check_iff.mp checked
    exact ⟨aligned.1, inside, failed⟩
  · cases ended

/-- The assertion fails at a completion with something to deliver and the line down. -/
theorem postWriteHartConfig_eip {offset size : Nat}
    (failed : ((postWriteHartConfig config offset size).run plic).result = .error eipAssertion) :
    offset / 4 % 2 = 1 ∧ hasPending config plic (offset / 4 - 1) = true ∧
      plic.hartEip (offset / 4 - 1) = false := by
  obtain ⟨_, _, _, aligned, failed⟩ := (spares_require (by decide)).later failed
  obtain ⟨_, rfl, _⟩ := returns_require_iff.mp aligned
  by_cases odd : offset / 4 % 2 = 1
  · rw [Exec.when, if_pos odd] at failed
    obtain ⟨_, _, _, whole, failed⟩ := (spares_require (by decide)).later failed
    obtain ⟨_, rfl, _⟩ := returns_require_iff.mp whole
    obtain ⟨again, _, _, looked, failed⟩ := (spares_of_looks fun plic =>
      looks_hasPending_anyway config plic (offset / 4 - 1)).later failed
    obtain ⟨rfl, rfl, _⟩ := (looks_hasPending_anyway _ _ _).of_returns looked
    obtain ⟨_, _, _, owned, failed⟩ := (spares_checkIndex _ _).later failed
    obtain ⟨_, rfl, _⟩ := returns_checkIndex_iff.mp owned
    rw [bind_run, get_run, Outcome.andThen_ok] at failed
    dsimp only at failed
    split_ifs at failed with pending
    · refine ⟨odd, pending, ?_⟩
      by_contra up
      rw [Bool.not_eq_false] at up
      rw [require_of up] at failed
      cases failed
    · cases failed
  · rw [Exec.when, if_neg odd] at failed
    cases failed

/-- What a write to the configuration of the harts stores. -/
theorem written_of_found (plic : State) (src : List (BitVec 8))
    (found : (registerRanges config).find? (·.contains address) = some (regsHartConfig config)) :
    written config plic address src = { plic with
      hartConfig := plic.hartConfig.write ((regsHartConfig config).toLocal address) src } := by
  have different : ∀ range : RegisterRange State Event, range.start ≠ 0x200000 →
      some range ≠ some (regsHartConfig config) :=
    fun range apart same => apart (congrArg RegisterRange.start (Option.some.inj same))
  simp only [registerRanges, List.find?_cons] at found
  unfold written
  split at found
  case h_1 => exact absurd found (different _ (show (0x0 : Nat) ≠ 0x200000 by decide))
  case h_2 outside =>
    rw [if_neg (Bool.eq_false_iff.mp outside)]
    split at found
    case h_1 => exact absurd found (different _ (show (0x1000 : Nat) ≠ 0x200000 by decide))
    case h_2 outside =>
      rw [if_neg (Bool.eq_false_iff.mp outside)]
      split at found
      case h_1 => exact absurd found (different _ (show (0x2000 : Nat) ≠ 0x200000 by decide))
      case h_2 outside => rw [if_neg (Bool.eq_false_iff.mp outside)]

/-- For one hart, that is a write to the claim register. -/
theorem transport_write_eip (single : config.numberCores = 1)
    (failed : ((transport config (.write address src)).run plic).result = .error eipAssertion) :
    address = 0x200004 ∧
      (registerRanges config).find? (·.contains 0x200004) = some (regsHartConfig config) ∧
      hasPending config (written config plic address src) 0 = true ∧ plic.hartEip 0 = false := by
  unfold transport route at failed
  split at failed
  case h_1 => cases failed
  case h_2 range found =>
    obtain ⟨aligned, inside, failed⟩ := process_write_eip failed
    have member : range ∈ registerRanges config := List.mem_of_find?_eq_some found
    simp only [registerRanges, List.mem_cons, List.not_mem_nil, or_false] at member
    rcases member with rfl | rfl | rfl | rfl
    · cases failed
    · cases failed
    · cases failed
    · obtain ⟨odd, pending, low⟩ := postWriteHartConfig_eip failed
      have start := toLocal_hartConfig inside
      have upper := (RegisterRange.contains_iff.mp inside).2
      have bound : address ≤ 0x200000 + 8 * 1 - 1 := single ▸ upper
      have aligned : address % 4 = 0 := aligned
      have claim : address = 0x200004 := by omega
      have hart : (regsHartConfig config).toLocal address / 4 - 1 = 0 := by omega
      rw [hart] at pending low
      have found : (registerRanges config).find? (·.contains address) =
        some (regsHartConfig config) := found
      rw [written_of_found plic src found]
      exact ⟨claim, claim ▸ found, pending, low⟩

/-! ## Runs -/

/-- While the line is down, a register write leaves nothing to deliver unless a notification of
the process is outstanding, and a completion is made with nothing to deliver or with no
notification outstanding. -/
def InStep (config : Config) (plic : State) : Action → Prop
  | .access (.write address src) =>
      plic.hartEip 0 = true ∨ hasPending config (written config plic address src) 0 = false ∨
        if address = 0x200004 then plic.eRun = false else plic.eRun = true
  | _ => True

/-- The claim register is no threshold. -/
theorem priorityThreshold_completion
    (found : (registerRanges config).find? (·.contains 0x200004) = some (regsHartConfig config)) :
    (written config plic 0x200004 src).priorityThreshold 0 = plic.priorityThreshold 0 := by
  rw [written_of_found plic src found]
  have behind : 4 * (2 * 0) + 4 ≤ (regsHartConfig config).toLocal 0x200004 :=
    Nat.le_of_eq (toLocal_hartConfig_add config 4).symm
  exact congrArg BitVec.toNat (RegisterMemory.get_write_of_disjoint (.inl behind))

/-- A completion changes nothing about what can be delivered. -/
theorem candidate_completion_iff {id : Nat}
    (found : (registerRanges config).find? (·.contains 0x200004) = some (regsHartConfig config)) :
    Candidate config (written config plic 0x200004 src) 0 true id ↔
      Candidate config plic 0 true id := by
  have threshold : (written config plic 0x200004 src).priorityThreshold 0 = _ :=
    priorityThreshold_completion found
  rw [written_of_found plic src found] at threshold ⊢
  constructor
  · rintro ⟨valid, enabled, pending, positive, above⟩
    rw [threshold] at above
    exact ⟨valid, enabled, pending, positive, above⟩
  · rintro ⟨valid, enabled, pending, positive, above⟩
    rw [← threshold] at above
    exact ⟨valid, enabled, pending, positive, above⟩

theorem hasPending_completion
    (found : (registerRanges config).find? (·.contains 0x200004) = some (regsHartConfig config)) :
    hasPending config (written config plic 0x200004 src) 0 = hasPending config plic 0 := by
  rw [Bool.eq_iff_iff, hasPending_iff, hasPending_iff]
  exact exists_congr fun id => candidate_completion_iff found

theorem uncoversNothing_of_inStep (single : config.numberCores = 1)
    (found : (registerRanges config).find? (·.contains 0x200004) = some (regsHartConfig config))
    (inStep : InStep config plic action) : UncoversNothing config plic action := by
  cases action with
  | trigger id => trivial
  | run => trivial
  | access access =>
      cases access with
      | read address count => trivial
      | write address src =>
          rcases inStep with up | nothing | order
          · refine .inr fun hart owns low => ?_
            obtain rfl : hart = 0 := by omega
            rw [up] at low
            cases low
          · refine .inr fun hart owns low id candidate => ?_
            obtain rfl : hart = 0 := by omega
            have some := hasPending_iff.mpr ⟨id, candidate⟩
            rw [nothing] at some
            cases some
          · split_ifs at order with completion
            · refine .inr fun hart owns low id candidate => ?_
              obtain rfl : hart = 0 := by omega
              rw [completion] at candidate
              exact (candidate_completion_iff found).mp candidate
            · exact .inl order

/-- Along every run whose steps are in order, the assertion of a completion holds. -/
theorem completion_never_fails {actions : List Action} (single : config.numberCores = 1)
    (inOrder : ActionRun.Meets (step config) (InStep config) (initial config) (actions ++ [action]))
    (ran : ActionRun.perform (step config) (initial config) actions = some (plic, log)) :
    ((act config action).run plic).result ≠ .error (.assertion "hart_eip[idx]") := by
  intro failed
  have failed : ((act config action).run plic).result = .error eipAssertion := failed
  obtain ⟨before, inStep⟩ := inOrder.concat ran
  cases action with
  | trigger id => exact (spares_gateway config id plic trivial).2.2 _ failed rfl
  | run =>
      have spares : Spares (act config .run) :=
        spares_get.bind fun _ =>
          Exec.Meets.when fun _ => spares_run config
      exact (spares plic trivial).2.2 _ failed rfl
  | access access =>
      cases access with
      | read address count =>
          have spares : Spares (act config (.access (.read address count))) :=
            (spares_read config address count).bind fun _ => Exec.Meets.emit _
          exact (spares plic trivial).2.2 _ failed rfl
      | write address src =>
          rcases bind_eq_error.mp failed with failed | ⟨_, _, ended⟩
          · obtain ⟨rfl, found, pending, low⟩ := transport_write_eip single failed
            have attended : Attended config ([] ++ log) plic :=
              ActionRun.perform_keeps (fun holds meets moved =>
                Attended.step holds (uncoversNothing_of_inStep single found meets) moved)
                (attended_initial config) before ran
            obtain ⟨id, candidate⟩ := hasPending_iff.mp pending
            have order : plic.eRun = false := by
              rcases inStep with up | nothing | order
              · rw [up] at low
                cases low
              · rw [nothing] at pending
                cases pending
              · rwa [if_pos rfl] at order
            rcases attended.delivers 0 (by omega)
              ⟨id, (candidate_completion_iff found).mp candidate⟩ with up | notified
            · rw [up] at low
              cases low
            · rw [notified] at order
              cases order
          · cases ended

/-! ## Runs out of order -/

theorem postWriteHartConfig_fails (covers : config.Covers)
    (pending : hasPending config plic 0 = true) (low : plic.hartEip 0 = false) :
    ((postWriteHartConfig config 4 4).run plic).result = .error eipAssertion := by
  have owns := config.coresPositive
  have looked : (hartHasPendingEnabledInterrupts config 0).run plic = ⟨.ok true, plic, []⟩ := by
    have looks : Looks True (hartHasPendingEnabledInterrupts config 0) plic _ :=
      looks_hasPending (fun _ => covers) fun _ => owns
    rw [← pending]
    exact looks.returns_of_inside trivial
  have down : ¬plic.hartEip 0 = true := by rw [low]; exact Bool.false_ne_true
  unfold postWriteHartConfig checkIndex
  dsimp only
  rw [require_of (show 4 % 4 = 0 by decide), Exec.when, if_pos (show 4 / 4 % 2 = 1 by decide),
    require_of rfl, show 4 / 4 - 1 = 0 by decide, require_of owns]
  rw [bind_run, pure_run, Outcome.andThen_ok, bind_run, pure_run, Outcome.andThen_ok, bind_run,
    looked, Outcome.andThen_ok, bind_run, pure_run, Outcome.andThen_ok, bind_run, get_run,
    Outcome.andThen_ok]
  dsimp only
  rw [if_pos rfl, require_of_not down]
  rfl

/-- A completion with something to deliver and the line down fails. -/
theorem completion_fails (covers : config.Covers)
    (found : (registerRanges config).find? (·.contains 0x200004) = some (regsHartConfig config))
    (whole : src.length = 4) (pending : hasPending config plic 0 = true)
    (low : plic.hartEip 0 = false) :
    ((act config (.access (.write 0x200004 src))).run plic).result = .error eipAssertion := by
  have pending : hasPending config (written config plic 0x200004 src) 0 = true := by
    rw [hasPending_completion found, pending]
  have offset : (regsHartConfig config).toLocal 0x200004 = 4 := toLocal_hartConfig_add config 4
  rw [written_of_found plic src found, offset] at pending
  have failed := postWriteHartConfig_fails covers pending low
  obtain ⟨aligned, inside, fits⟩ := hartConfig_checks config.coresPositive
  refine bind_eq_error.mpr (.inl ?_)
  unfold transport route
  rw [show (registerRanges config).find? (·.contains (BusAccess.write 0x200004 src).address) = _
    from found]
  dsimp only [RegisterRange.process, RegisterRange.write, RegisterRange.check]
  rw [whole, offset, require_of aligned,
    require_of (show (regsHartConfig config).readonly = false from rfl),
    require_of (show (regsHartConfig config).contains 0x200004 = true from inside),
    require_of (show 4 + 4 ≤ (regsHartConfig config).size from fits)]
  exact bind_eq_error.mpr (.inr ⟨(), rfl, bind_eq_error.mpr (.inr ⟨(), rfl, bind_eq_error.mpr (.inl
    (bind_eq_error.mpr (.inr ⟨(), rfl, bind_eq_error.mpr (.inr ⟨(), rfl, failed⟩)⟩)))⟩)⟩)

/-- A write out of order is itself a completion that fails, or makes one behind it fail. -/
theorem out_of_step_fails (single : config.numberCores = 1) (covers : config.Covers)
    (found : (registerRanges config).find? (·.contains 0x200004) = some (regsHartConfig config))
    (out : ¬InStep config plic (.access (.write address src))) :
    (address = 0x200004 → src.length = 4 →
      ((act config (.access (.write address src))).run plic).result = .error eipAssertion) ∧
    (address ≠ 0x200004 → ∀ data : List (BitVec 8), data.length = 4 →
      step config plic (.access (.write address src)) = some (next, events) →
      ((act config (.access (.write 0x200004 data))).run next).result = .error eipAssertion) := by
  simp only [InStep, not_or, Bool.not_eq_true, Bool.not_eq_false] at out
  obtain ⟨low, pending, order⟩ := out
  constructor
  · rintro rfl whole
    rw [hasPending_completion found] at pending
    exact completion_fails covers found whole pending low
  · intro other data whole moved
    obtain ⟨_, reached, earlier, later, accessed, rest, rfl⟩ :=
      returns_bind_iff.mp (returns_of_step moved)
    obtain ⟨_, rfl, rfl⟩ := returns_pure_iff.mp rest
    have line : (written config plic address src).hartEip 0 = false := by
      rw [hartEip_written, low]
    have same : reached = written config plic address src := by
      rcases returns_transport_write accessed with ⟨same, _⟩ | ⟨offset, called⟩
      · exact same
      · rcases returns_postWriteHartConfig called with ⟨_, same, _⟩ | ⟨_, _, owns, decided⟩
        · exact same
        · have hart : offset / 4 - 1 = 0 := by omega
          rw [hart] at decided
          rcases decided with ⟨_, up, _⟩ | ⟨nothing, _⟩
          · rw [line] at up
            cases up
          · rw [pending] at nothing
            cases nothing
    rw [same]
    exact completion_fails covers found whole pending line

instance (config : Config) :
    ∀ (plic : State) (action : Action), Decidable (InStep config plic action)
  | _, .access (.write _ _) => inferInstanceAs (Decidable (_ ∨ _ ∨ _))
  | _, .access (.read _ _) => isTrue trivial
  | _, .trigger _ => isTrue trivial
  | _, .run => isTrue trivial

/-- An interrupt is enabled, triggered and delivered, and a completion follows. -/
theorem completion_after_delivery :
    ∃ plic log, ActionRun.perform (step hifive) (initial hifive) earlyEnable = some (plic, log) ∧
      ((act hifive (.access (.write 0x200004 [0, 0, 0, 0]))).run plic).result ≠
        .error (.assertion "hart_eip[idx]") := by
  have inOrder : ActionRun.Meets (step hifive) (InStep hifive) (initial hifive)
      (earlyEnable ++ [.access (.write 0x200004 [0, 0, 0, 0])]) := by decide +kernel
  have possible : (ActionRun.perform (step hifive) (initial hifive) earlyEnable).isSome = true := by
    decide +kernel
  obtain ⟨⟨plic, log⟩, ran⟩ := Option.isSome_iff_exists.mp possible
  exact ⟨plic, log, ran, completion_never_fails rfl inOrder ran⟩

/-- A completion between a gateway and the process it has notified. -/
def earlyCompletion : List Action :=
  [.access (.write 0x2000 [0x08, 0, 0, 0]), .trigger 3]

theorem early_completion_fails :
    ¬∀ (config : Config) (actions : List Action) (plic : State) (log : List Event)
      (action : Action), config.numberCores = 1 →
      ActionRun.perform (step config) (initial config) actions = some (plic, log) →
      ((act config action).run plic).result ≠ .error (.assertion "hart_eip[idx]") := by
  intro claimed
  have shown : (ActionRun.perform (step hifive) (initial hifive) earlyCompletion).any
      (fun (plic, _) => ((act hifive (.access (.write 0x200004 [0, 0, 0, 0]))).run plic).result =
        .error (.assertion "hart_eip[idx]")) = true := by decide +kernel
  obtain ⟨⟨plic, log⟩, ran, failed⟩ := (Option.any_eq_true _ _).mp shown
  exact claimed hifive earlyCompletion plic log (.access (.write 0x200004 [0, 0, 0, 0])) rfl ran
    (of_decide_eq_true failed)

end SymexVP.Plic
