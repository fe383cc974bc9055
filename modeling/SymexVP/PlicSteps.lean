import SymexVP.PlicArbitration

/-!
# Steps of the interrupt controller

What an action of the controller has done if it returns. Every access goes to one of the
four ranges: a read changes nothing unless it is one of a claim register, and a write
changes its range, and the line of a hart if it is one of a claim register.
-/

namespace SymexVP.Plic

open Exec

variable {config : Config} {plic next : State} {log : List Event}

/-- What looks returns what it looks at. -/
theorem Looks.of_returns {α : Type} {inside : Prop} {body : PlicM α} {value result : α}
    (looks : Looks inside body plic value) (returned : Returns body plic result next log) :
    value = result ∧ plic = next ∧ [] = log := by
  rcases looks with same | ⟨-, failed⟩
  · rw [Returns, same] at returned
    cases returned
    exact ⟨rfl, rfl, rfl⟩
  · rw [Returns, failed] at returned
    cases returned

theorem returns_checkIndex_iff {size index : Nat} {value : Unit} :
    Returns (checkIndex size index) plic value next log ↔ index < size ∧ plic = next ∧ [] = log :=
  returns_require_iff

theorem looks_next_anyway (config : Config) (plic : State) (hart : Nat) (considerThreshold : Bool) :
    Looks False (hartGetNextPendingInterrupt config hart considerThreshold) plic
      (arbitrate config plic hart considerThreshold).1 :=
  looks_next False.elim False.elim

theorem looks_hasPending_anyway (config : Config) (plic : State) (hart : Nat) :
    Looks False (hartHasPendingEnabledInterrupts config hart) plic (hasPending config plic hart) :=
  looks_hasPending False.elim False.elim

/-! ## Gateway -/

theorem returns_gateway {id : Nat} {value : Unit}
    (returned : Returns (gatewayTriggerInterrupt config id) plic value next log) :
    (0 < id ∧ id < config.numberInterrupts) ∧ next = { setPending id plic with eRun := true } ∧
      log = [.gateway id] := by
  simp only [gatewayTriggerInterrupt, returns_bind_iff, returns_require_iff,
    returns_checkIndex_iff, returns_emit_iff, returns_modify_iff] at returned
  obtain ⟨_, _, _, _, ⟨valid, rfl, rfl⟩, ⟨_, _, _, _, ⟨-, rfl, rfl⟩, ⟨_, _, _, _, ⟨rfl, rfl⟩,
    ⟨_, _, _, _, ⟨rfl, rfl⟩, ⟨rfl, rfl⟩, rfl⟩, rfl⟩, rfl⟩, rfl⟩ := returned
  exact ⟨valid, rfl, rfl⟩

/-! ## Reads -/

/-- The state after a claim: the result is stored and its pending bit cleared. -/
def claim (config : Config) (plic : State) (idx : Nat) : State :=
  unsetPending (arbitrate config plic 0 false).1
    { plic with
      hartConfig := plic.hartConfig.set 4 (2 * idx + 1)
        (BitVec.ofNat 32 (arbitrate config plic 0 false).1) }

/-- The callback in front of a read of the configuration of a hart. -/
theorem returns_preReadHartConfig {address size : Nat} {value : Unit}
    (returned : Returns (preReadHartConfig config address size) plic value next log) :
    (address / 4 % 2 = 0 ∧ next = plic ∧ log = []) ∨
      (address / 4 % 2 = 1 ∧ size = 4 ∧ address / 4 - 1 < config.numberCores ∧
        next = claim config plic (address / 4 - 1) ∧
        log = [.claimed (arbitrate config plic 0 false).1]) := by
  simp only [preReadHartConfig, returns_bind_iff, returns_require_iff, returns_when_iff]
    at returned
  obtain ⟨_, _, _, _, ⟨-, rfl, rfl⟩, chosen, rfl⟩ := returned
  rcases chosen with ⟨odd, ⟨_, _, _, _, ⟨whole, rfl, rfl⟩, ⟨_, _, _, _, arbitrated, rest, rfl⟩,
    rfl⟩⟩ | ⟨even, rfl, rfl⟩
  · obtain ⟨rfl, rfl, rfl⟩ := (looks_next_anyway _ _ _ _).of_returns arbitrated
    simp only [returns_checkIndex_iff, returns_modify_iff, clearPendingInterrupt, returns_bind_iff,
      returns_require_iff, returns_emit_iff] at rest
    obtain ⟨_, _, _, _, ⟨owns, rfl, rfl⟩, ⟨_, _, _, _, ⟨rfl, rfl⟩, ⟨_, _, _, _,
      ⟨_, _, _, _, ⟨-, rfl, rfl⟩, ⟨_, _, _, _, ⟨-, rfl, rfl⟩, ⟨rfl, rfl⟩, rfl⟩, rfl⟩,
      ⟨rfl, rfl⟩, rfl⟩, rfl⟩, rfl⟩ := rest
    exact .inr ⟨odd, whole, owns, rfl, rfl⟩
  · exact .inl ⟨by omega, rfl, rfl⟩

/-- The local address of an access to the configuration of the harts. -/
theorem toLocal_hartConfig {address : Nat}
    (inside : (regsHartConfig config).contains address = true) :
    0x200000 + (regsHartConfig config).toLocal address = address := by
  have lower : 0x200000 ≤ address := of_decide_eq_true (Bool.and_eq_true_iff.mp inside).1
  exact Nat.add_sub_cancel' lower

/-- A read changes nothing, or it claims. -/
theorem returns_transport_read {address count : Nat} {data : List (BitVec 8)}
    (returned : Returns (transport config (.read address count)) plic data next log) :
    (next = plic ∧ log = []) ∨
      ∃ offset, 0x200000 + offset = address ∧ offset + 4 ≤ 8 * config.numberCores ∧
        offset % 4 = 0 ∧ offset / 4 % 2 = 1 ∧ count = 4 ∧ offset / 4 - 1 < config.numberCores ∧
        next = claim config plic (offset / 4 - 1) ∧
        log = [.claimed (arbitrate config plic 0 false).1] ∧
        data = next.hartConfig.read offset 4 := by
  obtain ⟨range, found, returned⟩ := returns_route_iff.mp returned
  obtain ⟨⟨aligned, -⟩, ⟨inside, fits⟩, called, rfl⟩ := RegisterRange.returns_read_iff.mp returned
  have member : range ∈ registerRanges config := List.mem_of_find?_eq_some found
  simp only [registerRanges, List.mem_cons, List.not_mem_nil, or_false] at member
  rcases member with rfl | rfl | rfl | rfl
  · obtain ⟨-, rfl, rfl⟩ := returns_pure_iff.mp called
    exact .inl ⟨rfl, rfl⟩
  · obtain ⟨-, rfl, rfl⟩ := returns_pure_iff.mp called
    exact .inl ⟨rfl, rfl⟩
  · obtain ⟨-, rfl, rfl⟩ := returns_pure_iff.mp called
    exact .inl ⟨rfl, rfl⟩
  · have start := toLocal_hartConfig inside
    generalize (regsHartConfig config).toLocal address = offset at called fits start ⊢
    rcases returns_preReadHartConfig called with ⟨-, rfl, rfl⟩ | ⟨odd, rfl, owns, rfl, rfl⟩
    · exact .inl ⟨rfl, rfl⟩
    · refine .inr ⟨offset, start, fits, ?_, odd, rfl, owns, rfl, rfl, rfl⟩
      rw [← start] at aligned
      have aligned : (0x200000 + offset) % 4 = 0 := aligned
      omega

/-! ## Writes -/

/-- The callback behind a write of the configuration of a hart. -/
theorem returns_postWriteHartConfig {address size : Nat} {value : Unit}
    (returned : Returns (postWriteHartConfig config address size) plic value next log) :
    (address / 4 % 2 = 0 ∧ next = plic ∧ log = []) ∨
      (address / 4 % 2 = 1 ∧ size = 4 ∧ address / 4 - 1 < config.numberCores ∧
        (hasPending config plic (address / 4 - 1) = true ∧
            plic.hartEip (address / 4 - 1) = true ∧ next = plic ∧
            log = [.triggerExternalInterrupt (address / 4 - 1)] ∨
          hasPending config plic (address / 4 - 1) = false ∧
            next = setEip (address / 4 - 1) false plic ∧
            log = [.clearExternalInterrupt (address / 4 - 1)])) := by
  simp only [postWriteHartConfig, returns_bind_iff, returns_require_iff, returns_when_iff]
    at returned
  obtain ⟨_, _, _, _, ⟨-, rfl, rfl⟩, chosen, rfl⟩ := returned
  rcases chosen with ⟨odd, ⟨_, _, _, _, ⟨whole, rfl, rfl⟩, ⟨_, _, _, _, evaluated, rest, rfl⟩,
    rfl⟩⟩ | ⟨even, rfl, rfl⟩
  · obtain ⟨rfl, rfl, rfl⟩ := (looks_hasPending_anyway _ _ _).of_returns evaluated
    simp only [returns_checkIndex_iff, returns_get_iff] at rest
    obtain ⟨_, _, _, _, ⟨owns, rfl, rfl⟩, ⟨_, _, _, _, ⟨rfl, rfl, rfl⟩, decided, rfl⟩, rfl⟩ := rest
    refine .inr ⟨odd, whole, owns, ?_⟩
    split_ifs at decided with again
    · simp only [returns_bind_iff, returns_require_iff, returns_emit_iff] at decided
      obtain ⟨_, _, _, _, ⟨raised, rfl, rfl⟩, ⟨rfl, rfl⟩, rfl⟩ := decided
      exact .inl ⟨again, raised, rfl, rfl⟩
    · simp only [returns_bind_iff, returns_modify_iff, returns_emit_iff] at decided
      obtain ⟨_, _, _, _, ⟨rfl, rfl⟩, ⟨rfl, rfl⟩, rfl⟩ := decided
      exact .inr ⟨by simpa using again, rfl, rfl⟩
  · exact .inl ⟨by omega, rfl, rfl⟩

/-- The priorities after a write: all but the last are at most the greatest. -/
def clampAll (config : Config) (mem : RegisterMemory) : RegisterMemory :=
  (List.range config.numberInterrupts).foldl
    (fun mem id => mem.set 4 id (clamp config (mem.get 4 id))) mem

/-- The registers a write leaves behind. -/
def written (config : Config) (plic : State) (address : Nat) (src : List (BitVec 8)) : State :=
  if (regsInterruptPriorities config).contains address then
    { plic with
      interruptPriorities := clampAll config (plic.interruptPriorities.write
        ((regsInterruptPriorities config).toLocal address) src) }
  else if (regsPendingInterrupts config).contains address then plic
  else if (regsHartEnabledInterrupts config).contains address then
    { plic with
      hartEnabledInterrupts := plic.hartEnabledInterrupts.write
        ((regsHartEnabledInterrupts config).toLocal address) src }
  else
    { plic with
      hartConfig := plic.hartConfig.write ((regsHartConfig config).toLocal address) src }

/-- A write goes to its range, and behind one to the configuration of the harts the callback
follows. -/
theorem returns_transport_write {address : Nat} {src data : List (BitVec 8)}
    (returned : Returns (transport config (.write address src)) plic data next log) :
    (next = written config plic address src ∧ log = []) ∨
      ∃ offset, Returns (postWriteHartConfig config offset src.length)
        (written config plic address src) () next log := by
  obtain ⟨range, found, returned⟩ := returns_route_iff.mp returned
  obtain ⟨⟨-, writable⟩, -, called, rfl⟩ := RegisterRange.returns_write_iff.mp returned
  simp only [registerRanges, List.find?_cons, List.find?_nil, BusAccess.address] at found
  unfold written
  split at found
  case h_1 inside =>
    cases found
    obtain ⟨rfl, rfl⟩ := returns_modify_iff.mp called
    rw [if_pos inside]
    exact .inl ⟨rfl, rfl⟩
  case h_2 outside =>
    rw [if_neg (by rw [outside]; exact Bool.false_ne_true)]
    split at found
    case h_1 inside =>
      cases found
      cases writable
    case h_2 outside =>
      rw [if_neg (by rw [outside]; exact Bool.false_ne_true)]
      split at found
      case h_1 inside =>
        cases found
        obtain ⟨-, rfl, rfl⟩ := returns_pure_iff.mp called
        rw [if_pos inside]
        exact .inl ⟨rfl, rfl⟩
      case h_2 outside =>
        rw [if_neg (by rw [outside]; exact Bool.false_ne_true)]
        split at found
        case h_1 inside =>
          cases found
          exact .inr ⟨_, called⟩
        case h_2 => cases found

theorem pendingInterrupts_written (config : Config) (plic : State) (address : Nat)
    (src : List (BitVec 8)) :
    (written config plic address src).pendingInterrupts = plic.pendingInterrupts := by
  unfold written
  split_ifs <;> rfl

theorem hartEip_written (config : Config) (plic : State) (address : Nat)
    (src : List (BitVec 8)) :
    (written config plic address src).hartEip = plic.hartEip := by
  unfold written
  split_ifs <;> rfl

theorem eRun_written (config : Config) (plic : State) (address : Nat)
    (src : List (BitVec 8)) :
    (written config plic address src).eRun = plic.eRun := by
  unfold written
  split_ifs <;> rfl

/-! ## The process -/

/-- The lines of the harts after what was done to them. -/
def levels (lines : Nat → Bool) (events : List Event) : Nat → Bool :=
  events.foldl (fun lines event =>
    match event with
    | .triggerExternalInterrupt hart => fun other => if other = hart then true else lines other
    | .clearExternalInterrupt hart => fun other => if other = hart then false else lines other
    | _ => lines) lines

theorem levels_append (lines : Nat → Bool) (earlier later : List Event) :
    levels lines (earlier ++ later) = levels (levels lines earlier) later := List.foldl_append

/-- Setting a line to what it is. -/
theorem line_self {lines : Nat → Bool} {hart : Nat} {line : Bool} (same : lines hart = line) :
    (fun other => if other = hart then line else lines other) = lines := by
  funext other
  split_ifs with equal
  · rw [equal, same]
  · rfl

theorem setEip_self {hart : Nat} {line : Bool} (same : plic.hartEip hart = line) :
    setEip hart line plic = plic := by
  simp only [setEip, line_self same]

theorem returns_raise {hart : Nat} {value : Unit}
    (returned : Returns (raise config hart) plic value next log) :
    next = setEip hart (plic.hartEip hart || hasPending config plic hart) plic ∧
      levels plic.hartEip log = next.hartEip ∧
      ∀ event ∈ log, event = .triggerExternalInterrupt hart := by
  simp only [raise, returns_bind_iff, returns_get_iff, returns_when_iff] at returned
  obtain ⟨_, _, _, _, ⟨rfl, rfl, rfl⟩, chosen, rfl⟩ := returned
  rcases chosen with ⟨low, ⟨_, _, _, _, evaluated, found, rfl⟩⟩ | ⟨high, rfl, rfl⟩
  · obtain ⟨rfl, rfl, rfl⟩ := (looks_hasPending_anyway _ _ _).of_returns evaluated
    rcases found with ⟨some, rest⟩ | ⟨none, rfl, rfl⟩
    · simp only [returns_modify_iff, returns_emit_iff] at rest
      obtain ⟨_, _, _, _, ⟨rfl, rfl⟩, ⟨rfl, rfl⟩, rfl⟩ := rest
      rw [some, Bool.or_true]
      exact ⟨rfl, rfl, fun event member => List.mem_singleton.mp (by simpa using member)⟩
    · have none : hasPending config plic hart = false := by simpa using none
      rw [none, Bool.or_false, setEip_self rfl]
      exact ⟨rfl, rfl, by simp⟩
  · have high : plic.hartEip hart = true := by simpa using high
    rw [high, Bool.true_or, setEip_self high]
    exact ⟨rfl, rfl, by simp⟩

/-- Which harts have something to deliver does not depend on the lines. -/
theorem hasPending_setEip (hart other : Nat) (line : Bool) :
    hasPending config (setEip hart line plic) other = hasPending config plic other := rfl

theorem returns_raiseAll {harts : List Nat} {value : Unit}
    (returned : Returns (raiseAll config harts) plic value next log) :
    next = { plic with
        hartEip := fun hart =>
          plic.hartEip hart || decide (hart ∈ harts) && hasPending config plic hart } ∧
      levels plic.hartEip log = next.hartEip ∧
      ∀ event ∈ log, ∃ hart ∈ harts, event = .triggerExternalInterrupt hart := by
  induction harts generalizing plic log with
  | nil =>
      obtain ⟨-, rfl, rfl⟩ := returns_pure_iff.mp returned
      simp [levels]
  | cons hart rest later =>
      obtain ⟨_, middle, earlier, more, raised, continued, rfl⟩ := returns_bind_iff.mp returned
      obtain ⟨rfl, level, shown⟩ := returns_raise raised
      obtain ⟨reached, levelLater, shownLater⟩ := later continued
      refine ⟨?_, ?_, ?_⟩
      · have lines : (fun other => (setEip hart (plic.hartEip hart || hasPending config plic hart)
              plic).hartEip other || decide (other ∈ rest) && hasPending config plic other) =
            fun other => plic.hartEip other ||
              decide (other ∈ hart :: rest) && hasPending config plic other := by
          funext other
          by_cases equal : other = hart
          · subst equal
            simp only [setEip, if_true, List.mem_cons_self, decide_true, Bool.true_and]
            cases plic.hartEip other <;> cases hasPending config plic other <;> simp
          · simp only [setEip, equal, if_false, List.mem_cons, false_or]
        rw [reached]
        simp only [hasPending_setEip, lines]
        rfl
      · rw [levels_append, level]
        exact levelLater
      · intro event member
        rcases List.mem_append.mp member with old | new
        · exact ⟨hart, List.mem_cons_self, shown event old⟩
        · obtain ⟨other, inside, same⟩ := shownLater event new
          exact ⟨other, List.mem_cons_of_mem hart inside, same⟩

/-- A round of the process raises the line of every hart with something to deliver. -/
theorem returns_run {value : Unit} (returned : Returns (run config) plic value next log) :
    next = { plic with
        eRun := false
        hartEip := fun hart => plic.hartEip hart ||
          decide (hart ∈ List.range config.numberCores) && hasPending config plic hart } ∧
      levels plic.hartEip log = next.hartEip ∧
      ∀ event ∈ log, ∃ hart, event = .triggerExternalInterrupt hart := by
  obtain ⟨_, _, _, _, cleared, raised, rfl⟩ := returns_bind_iff.mp returned
  obtain ⟨rfl, rfl⟩ := returns_modify_iff.mp cleared
  obtain ⟨rfl, level, shown⟩ := returns_raiseAll raised
  refine ⟨rfl, level, ?_⟩
  intro event member
  obtain ⟨hart, -, same⟩ := shown event member
  exact ⟨hart, same⟩

end SymexVP.Plic
