import SymexVP.CsrPermissions
import SymexVP.CsrViews

/-!
# What a written register reads as

A write replaces the bits of a register that its write mask selects, and a read shows
the bits its read mask selects. Registers that are not views of one another do not
influence each other, except that three of them decide who may access some others. The
law fails for the registers a read computes anew: what was written there is lost.
-/

namespace SymexVP

open BitFields

namespace Iss

open Exec

variable {P : Platform}

/-! ## Register numbers -/

/-- What `get_csr_value` results in. -/
def reading (state : State P) (address : BitVec 32) : Except Fault (BitVec 32) :=
  ((getCsrValue address).run state).result

/-- The current level may not read the register. -/
def Hidden (state : State P) (address : BitVec 32) : Prop :=
  CounterForbidden state.hart address ∨ TvmForbids state.hart.csrs address

/-- The value of a register that may be read. -/
def shownValue (state : State P) (address : BitVec 32) : Except Fault (BitVec 32) :=
  if isHpmCounter address then .ok 0
  else
    match CsrName.find address with
    | none => .error (.trap ⟨.illegalInstr, state.hart.instr.data.toNat⟩)
    | some name =>
        if name.refreshed then refreshedValue state name
        else .ok (name.raw state.hart.csrs state.board.mip &&& name.readMask)

theorem reading_of_hidden {state : State P} {address : BitVec 32} (hidden : Hidden state address) :
    reading state address = .error (.trap ⟨.illegalInstr, state.hart.instr.data.toNat⟩) := by
  rw [reading, getCsrValue, bind_run, validateCsrCounterReadAccessRights_run]
  by_cases forbidden : CounterForbidden state.hart address
  · rw [if_pos forbidden]
    rfl
  · obtain ⟨rfl, set⟩ := hidden.resolve_left forbidden
    have blocked : CsrName.satp.forbidden state.hart.csrs = true := set
    rw [if_neg forbidden]
    show ((readCsr .satp).run state).result = _
    rw [readCsr_run rfl, if_pos blocked]
    rfl

theorem reading_of_shown {state : State P} {address : BitVec 32} (shown : ¬Hidden state address) :
    reading state address = shownValue state address := by
  rw [reading, getCsrValue, bind_run, validateCsrCounterReadAccessRights_run,
    if_neg fun forbidden => shown (.inl forbidden), Outcome.andThen_ok, shownValue]
  by_cases counter : isHpmCounter address = true
  · rw [if_pos counter, if_pos counter]
    rfl
  rw [if_neg counter, if_neg counter]
  cases found : CsrName.find address with
  | none => rfl
  | some name =>
      by_cases computed : name.refreshed = true
      · simp only [computed, if_true]
        exact readCsr_refreshed computed state
      · have allowed : ¬name.forbidden state.hart.csrs = true := fun blocked =>
          shown (.inr ((forbidden_iff found).mp blocked))
        simp only [computed, Bool.false_eq_true, if_false]
        rw [readCsr_run (Bool.eq_false_of_not_eq_true computed), if_neg allowed]

/-- A read that returns shows the value. -/
theorem shownValue_of_ok {state : State P} {address value : BitVec 32}
    (returned : reading state address = .ok value) : shownValue state address = .ok value := by
  by_cases hidden : Hidden state address
  · rw [reading_of_hidden hidden] at returned
    cases returned
  · rw [← reading_of_shown hidden]
    exact returned

/-- The state after a write that is let through; a counter ignores it. -/
def stored (state : State P) (address value : BitVec 32) : State P :=
  if isHpmCounter address then state
  else
    match CsrName.find address with
    | none => state
    | some name => written state name value

theorem setCsrValue_of_found {address : BitVec 32} {name : CsrName}
    (found : CsrName.find address = some name) (proper : isHpmCounter address = false)
    (value : BitVec 32) (state : State P) :
    (setCsrValue address value).run state =
      if name.forbidden state.hart.csrs then illegal state
      else ⟨.ok (), written state name value, []⟩ := by
  rw [setCsrValue, proper, found]
  exact writeCsr_run name value state

theorem setCsrValue_of_none {address : BitVec 32} (missing : CsrName.find address = none)
    (proper : isHpmCounter address = false) (value : BitVec 32) (state : State P) :
    (setCsrValue address value).run state = illegal state := by
  rw [setCsrValue, proper, missing]
  rfl

/-- A write either is refused or has that effect. -/
theorem setCsrValue_of_ok {address value : BitVec 32} {state : State P}
    (accepted : ∀ raised, ((setCsrValue address value).run state).result ≠ .error (.trap raised)) :
    ((setCsrValue address value).run state).state = stored state address value := by
  rw [stored]
  by_cases counter : isHpmCounter address = true
  · rw [if_pos counter, setCsrValue, if_pos counter]
    rfl
  have proper := Bool.eq_false_of_not_eq_true counter
  rw [if_neg counter]
  cases found : CsrName.find address with
  | none =>
      rw [setCsrValue_of_none found proper] at accepted
      exact absurd rfl (accepted _)
  | some name =>
      rw [setCsrValue_of_found found proper] at accepted ⊢
      split at accepted
      · exact absurd rfl (accepted _)
      · next allowed => rw [if_neg allowed]

/-- The contents of a register number; the hardware performance counters read as zero. -/
def contents (state : State P) (address : BitVec 32) : BitVec 32 :=
  if isHpmCounter address then 0
  else ((CsrName.find address).map (CsrName.raw state.hart.csrs state.board.mip)).getD 0

def writeMask (address : BitVec 32) : BitVec 32 :=
  if isHpmCounter address then 0 else ((CsrName.find address).map CsrName.writeMask).getD 0

def readMask (address : BitVec 32) : BitVec 32 :=
  if isHpmCounter address then BitVec.allOnes 32
  else ((CsrName.find address).map CsrName.readMask).getD 0

/-- Two numbers of views of one register. -/
def SameRegister (address other : BitVec 32) : Prop :=
  ∃ name name', CsrName.find address = some name ∧ CsrName.find other = some name' ∧
    name'.register = name.register

/-- The first register decides who may access the second one. -/
def Governs (address other : BitVec 32) : Prop :=
  address = CsrName.mstatus.addr ∧ other = CsrName.satp.addr ∨
    (address = CsrName.mcounteren.addr ∨ address = CsrName.scounteren.addr) ∧
      isCounter other = true

/-- The views of lower levels. -/
def isLowerView : CsrName → Bool
  | .sstatus | .ustatus | .sie | .uie | .sip | .uip => true
  | _ => false

/-- After a write the register reads as the mask of what was there and what was written, every
other register reads as before, and a view of a lower level has changed only its own bits. -/
structure WriteIsLawful (state after : State P) (address value : BitVec 32) : Prop where
  read : reading after address =
    .ok (readMask address &&& merge (writeMask address) (contents state address) value)
  others : ∀ other, ¬SameRegister address other →
    (¬Governs address other → reading after other = reading state other) ∧
      ∀ first second, reading state other = .ok first → reading after other = .ok second →
        second = first
  view : ∀ name, CsrName.find address = some name → isLowerView name = true →
    contents after address &&& ~~~name.readMask = contents state address &&& ~~~name.readMask

/-- The law for a register number: it holds for every value whose write does not trap, if the
read after it does not trap either. -/
def StoreLaw (state : State P) (address : BitVec 32) : Prop :=
  ∀ value, (∀ raised, ((setCsrValue address value).run state).result ≠ .error (.trap raised)) →
    (∀ raised, reading ((setCsrValue address value).run state).state address ≠
      .error (.trap raised)) →
    WriteIsLawful state ((setCsrValue address value).run state).state address value

/-! ## The law -/

theorem write32_mcounteren {name : CsrName} (other : name ≠ .mcounteren) (value : BitVec 32)
    (csrs : CsrTable) : (csrs.write32 value name).mcounteren = csrs.mcounteren := by
  cases name <;> first | rfl | exact absurd rfl other

theorem write32_scounteren {name : CsrName} (other : name ≠ .scounteren) (value : BitVec 32)
    (csrs : CsrTable) : (csrs.write32 value name).scounteren = csrs.scounteren := by
  cases name <;> first | rfl | exact absurd rfl other

/-- The views of `mstatus` for lower levels leave `TVM` out. -/
theorem write32_tvm {name : CsrName} (other : name ≠ .mstatus) (value : BitVec 32)
    (csrs : CsrTable) :
    (csrs.write32 value name).mstatus.getLsbD Mstatus.tvm.lo =
      csrs.mstatus.getLsbD Mstatus.tvm.lo := by
  cases name with
  | mstatus => exact absurd rfl other
  | sstatus | ustatus => exact (getLsbD_merge _ _ _ _).trans (if_neg (by decide))
  | _ => rfl

section Write

variable {address : BitVec 32} {name : CsrName} (found : CsrName.find address = some name)
  (state : State P) (value : BitVec 32)

include found

/-- Who may access a register changes only with the registers that govern it. -/
theorem hidden_written {other : BitVec 32} (free : ¬Governs address other) :
    Hidden (written state name value) other ↔ Hidden state other := by
  have addressed := CsrName.addr_of_find found
  refine or_congr ?_ ?_
  · refine and_congr_right fun counter => ?_
    have machine : name ≠ .mcounteren := fun same =>
      free (.inr ⟨.inl (by rw [← addressed, same]), counter⟩)
    have supervisor : name ≠ .scounteren := fun same =>
      free (.inr ⟨.inr (by rw [← addressed, same]), counter⟩)
    show (_ ∧ ¬(state.hart.csrs.write32 value name).mcounteren.getLsbD _ = true ∨
      _ ∧ ¬((state.hart.csrs.write32 value name).mcounteren.getLsbD _ = true ∧
        (state.hart.csrs.write32 value name).scounteren.getLsbD _ = true)) ↔ _
    rw [write32_mcounteren machine, write32_scounteren supervisor]
    rfl
  · refine and_congr_right fun same => ?_
    have status : name ≠ .mstatus := fun equal =>
      free (.inl ⟨by rw [← addressed, equal], same⟩)
    show (state.hart.csrs.write32 value name).mstatus.getLsbD _ = true ↔ _
    rw [write32_tvm status]

/-- The value of a register that is not a view of the written one stays the same. -/
theorem shownValue_written {other : BitVec 32} (apart : ¬SameRegister address other) :
    shownValue (written state name value) other = shownValue state other := by
  rw [shownValue, shownValue]
  by_cases counter : isHpmCounter other = true
  · rw [if_pos counter, if_pos counter]
  rw [if_neg counter, if_neg counter]
  cases found' : CsrName.find other with
  | none => rfl
  | some name' =>
      have distinct : name'.register ≠ name.register := fun same =>
        apart ⟨name, name', found, found', same⟩
      have kept : name'.raw (written state name value).hart.csrs
          (written state name value).board.mip = name'.raw state.hart.csrs state.board.mip :=
        raw_of_ne state.hart.csrs state.board.mip value distinct
      simp only [kept]
      rfl

theorem reading_written {other : BitVec 32} (apart : ¬SameRegister address other) :
    (¬Governs address other → reading (written state name value) other = reading state other) ∧
      ∀ first second, reading state other = .ok first →
        reading (written state name value) other = .ok second → second = first := by
  have same := shownValue_written found state value apart
  refine ⟨fun free => ?_, fun first second before after => ?_⟩
  · by_cases hidden : Hidden state other
    · rw [reading_of_hidden hidden,
        reading_of_hidden ((hidden_written found state value free).mpr hidden)]
      rfl
    · rw [reading_of_shown hidden, reading_of_shown fun changed =>
        hidden ((hidden_written found state value free).mp changed)]
      exact same
  · have equal := (shownValue_of_ok after).symm.trans (same.trans (shownValue_of_ok before))
    exact Except.ok.inj equal

variable (proper : isHpmCounter address = false)

include proper

theorem contents_written :
    contents (written state name value) address =
      merge (writeMask address) (contents state address) value := by
  simp only [contents, writeMask, found, proper, Bool.false_eq_true, if_false, Option.map_some,
    Option.getD_some]
  exact raw_written state.hart.csrs state.board.mip value name

/-- A lower view writes exactly the bits it shows. -/
theorem view_written (lower : isLowerView name = true) :
    contents (written state name value) address &&& ~~~name.readMask =
      contents state address &&& ~~~name.readMask := by
  have masks : writeMask address = name.readMask := by
    simp only [writeMask, found, proper, Bool.false_eq_true, if_false, Option.map_some,
      Option.getD_some]
    cases name <;> first | rfl | cases lower
  rw [contents_written found state value proper, masks]
  refine merge_and_of_disjoint ?_ _ _
  cases name <;> first | (cases lower; done) | decide

end Write

/-- The register may be read, and a read computes it anew. -/
def Recomputes (state : State P) (address : BitVec 32) : Prop :=
  ∃ name, CsrName.find address = some name ∧ name.refreshed = true ∧
    ¬CounterForbidden state.hart address

/-- What holds of the registers a read computes anew. -/
theorem of_refreshed {address : BitVec 32} {name : CsrName}
    (found : CsrName.find address = some name) (computed : name.refreshed = true) :
    isHpmCounter address = false ∧ ¬Governs address address ∧ readMask address = BitVec.allOnes 32 ∧
      writeMask address = BitVec.allOnes 32 ∧ ∀ csrs, ¬TvmForbids csrs address := by
  obtain rfl := CsrName.addr_of_find found
  cases name with
  | time | timeh | mtime | mtimeh | mcycle | mcycleh =>
      refine ⟨by decide, by unfold Governs; decide, rfl, rfl, ?_⟩
      rintro csrs ⟨same, -⟩
      exact absurd same (by decide)
  | _ => cases computed

theorem stored_of_found {state : State P} {address value : BitVec 32} {name : CsrName}
    (found : CsrName.find address = some name) (proper : isHpmCounter address = false) :
    stored state address value = written state name value := by
  simp only [stored, found, proper, Bool.false_eq_true, if_false]

/-- A counter ignores writes. -/
theorem lawful_of_counter {state : State P} {address : BitVec 32} (value : BitVec 32)
    (counter : isHpmCounter address = true)
    (readable : ∀ raised, reading state address ≠ .error (.trap raised)) :
    WriteIsLawful state state address value where
  read := by
    have shown : ¬Hidden state address := fun hidden => readable _ (reading_of_hidden hidden)
    rw [reading_of_shown shown, shownValue, contents, writeMask, if_pos counter, if_pos counter,
      if_pos counter, merge_zero]
    simp
  others := by
    intro other _
    refine ⟨fun _ => rfl, fun first second before after => ?_⟩
    exact Except.ok.inj (after.symm.trans before)
  view := fun _ _ _ => rfl

/-- A register that is looked up obeys the law. -/
theorem lawful_of_found {state : State P} {address value : BitVec 32} {name : CsrName}
    (found : CsrName.find address = some name) (proper : isHpmCounter address = false)
    (kept : name.refreshed = false)
    (readable : ∀ raised, reading (written state name value) address ≠ .error (.trap raised)) :
    WriteIsLawful state (written state name value) address value where
  read := by
    have shown : ¬Hidden (written state name value) address := fun hidden =>
      readable _ (reading_of_hidden hidden)
    have now := contents_written found state value proper
    rw [reading_of_shown shown, shownValue, ← now]
    simp only [contents, readMask, found, proper, kept, Bool.false_eq_true, if_false,
      Option.map_some, Option.getD_some]
    rw [BitVec.and_comm]
  others := fun other apart => reading_written found state value apart
  view := by
    intro name' found' lower
    rw [found] at found'
    cases found'
    exact view_written found state value proper lower

/-- A register obeys the law exactly if a read does not compute it anew. -/
theorem storeLaw_iff (state : State P) (address : BitVec 32) :
    StoreLaw state address ↔ ¬Recomputes state address := by
  constructor
  · rintro law ⟨name, found, computed, visible⟩
    obtain ⟨proper, free, shows, takes, open_⟩ := of_refreshed found computed
    -- every value would have to be the one the read computes
    have every : ∀ value, refreshedValue state name = .ok value := by
      intro value
      have accepted : ∀ raised, ((setCsrValue address value).run state).result ≠
          .error (.trap raised) := by
        intro raised
        have allowed : ¬name.forbidden state.hart.csrs = true := fun blocked =>
          open_ _ ((forbidden_iff found).mp blocked)
        rw [setCsrValue_of_found found proper, if_neg allowed]
        nofun
      have after := setCsrValue_of_ok accepted
      rw [stored_of_found found proper] at after
      have shown : ¬Hidden (written state name value) address := by
        rw [hidden_written found state value free]
        exact fun hidden => hidden.elim visible (open_ _)
      have computes : reading (written state name value) address = refreshedValue state name := by
        rw [reading_of_shown shown, shownValue]
        simp only [found, proper, computed, Bool.false_eq_true, if_false, if_true]
        rfl
      have lawful := law value accepted (by
        intro raised
        rw [after, computes]
        exact refreshedValue_ne_trap _ _ _)
      have reads := lawful.read
      rw [after, computes, shows, takes, merge_allOnes, BitVec.allOnes_and] at reads
      exact reads
    have different := (every 0).symm.trans (every 1)
    cases different
  · intro looked value accepted readable
    have after := setCsrValue_of_ok accepted
    rw [after] at readable ⊢
    by_cases counter : isHpmCounter address = true
    · have same : stored state address value = state := if_pos counter
      rw [same] at readable ⊢
      exact lawful_of_counter value counter readable
    have proper := Bool.eq_false_of_not_eq_true counter
    cases found : CsrName.find address with
    | none =>
        rw [setCsrValue_of_none found proper] at accepted
        exact absurd rfl (accepted _)
    | some name =>
        rw [stored_of_found found proper] at readable ⊢
        by_cases computed : name.refreshed = true
        · obtain ⟨-, free, -, -, -⟩ := of_refreshed found computed
          have hidden : Hidden state address := .inl (not_not.mp fun visible =>
            looked ⟨name, found, computed, visible⟩)
          exact absurd (reading_of_hidden ((hidden_written found state value free).mpr hidden))
            (readable _)
        · exact lawful_of_found found proper (Bool.eq_false_of_not_eq_true computed) readable

/-- A value written to the machine cycle counter at reset is lost. -/
theorem not_storeLaw_mcycle : Reachable zeroInput (programStart []) ∧
    ((getCsrValue CsrName.mcycle.addr).run ((setCsrValue CsrName.mcycle.addr 5).run
      (programStart [])).state).result = .ok 0 ∧
    ¬StoreLaw (programStart []) CsrName.mcycle.addr := by
  refine ⟨reachable_programStart [], rfl, ?_⟩
  rw [storeLaw_iff, not_not]
  exact ⟨.mcycle, rfl, rfl, by decide⟩

end Iss

end SymexVP
