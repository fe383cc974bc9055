import SymexVP.Iss

/-!
# What a register access does

`get_csr_value` and `set_csr_value` are two long switches over the same registers. A
write is a change of the register table, or of the pending interrupts for the views of
`mip`, and fails only for `satp` under `TVM`. A read gives a value; the reads of the
time and of the machine cycle counter also refresh the table's copy of it.
-/

namespace SymexVP

open BitFields

namespace CsrTable

/-- The table after a write that is let through. A counter, a debug register and the pending
interrupts have their place elsewhere, and `misa` cannot be written. -/
def write32 (csrs : CsrTable) (value : BitVec 32) : CsrName → CsrTable
  | .satp => { csrs with satp := merge CsrMask.SATP csrs.satp value }
  | .mtvec => { csrs with mtvec := merge CsrMask.MTVEC csrs.mtvec value }
  | .stvec => { csrs with stvec := merge CsrMask.MTVEC csrs.stvec value }
  | .utvec => { csrs with utvec := merge CsrMask.MTVEC csrs.utvec value }
  | .mepc => { csrs with mepc := merge (~~~1) csrs.mepc value }
  | .sepc => { csrs with sepc := merge (~~~1) csrs.sepc value }
  | .uepc => { csrs with uepc := merge (~~~1) csrs.uepc value }
  | .mstatus => { csrs with mstatus := merge CsrMask.MSTATUS csrs.mstatus value }
  | .sstatus => { csrs with mstatus := merge CsrMask.SSTATUS csrs.mstatus value }
  | .ustatus => { csrs with mstatus := merge CsrMask.USTATUS csrs.mstatus value }
  | .mie => { csrs with mie := merge CsrMask.MIE csrs.mie value }
  | .sie => { csrs with mie := merge CsrMask.SIE csrs.mie value }
  | .uie => { csrs with mie := merge CsrMask.UIE csrs.mie value }
  | .mideleg => { csrs with mideleg := merge CsrMask.MIDELEG csrs.mideleg value }
  | .medeleg => { csrs with medeleg := merge CsrMask.MEDELEG csrs.medeleg value }
  | .sideleg => { csrs with sideleg := merge CsrMask.SIDELEG csrs.sideleg value }
  | .sedeleg => { csrs with sedeleg := merge CsrMask.SEDELEG csrs.sedeleg value }
  | .mcounteren => { csrs with mcounteren := merge CsrMask.MCOUNTEREN csrs.mcounteren value }
  | .scounteren => { csrs with scounteren := merge CsrMask.MCOUNTEREN csrs.scounteren value }
  | .mcountinhibit =>
      { csrs with mcountinhibit := merge CsrMask.MCOUNTINHIBIT csrs.mcountinhibit value }
  | .fcsr => { csrs with fcsr := merge CsrMask.FCSR csrs.fcsr value }
  | .fflags => { csrs with fcsr := Fcsr.fflags.set csrs.fcsr value }
  | .frm => { csrs with fcsr := Fcsr.frm.set csrs.fcsr value }
  | other => (csrs.defaultWrite32 value other).getD csrs

end CsrTable

/-- The bits of the pending interrupts a register can write. -/
def CsrName.mipMask : CsrName → BitVec 32
  | .mip => CsrMask.MIP_WRITE
  | .sip => CsrMask.SIP
  | .uip => CsrMask.UIP
  | _ => 0

/-- The one register whose access a control bit can forbid. -/
def CsrName.forbidden (csrs : CsrTable) : CsrName → Bool
  | .satp => csrs.mstatus.getLsbD Mstatus.tvm.lo
  | _ => false

/-- The contents of the registers other than the pending interrupts, before a read masks them.
The hardwired debug registers have fixed contents. -/
def CsrTable.raw (csrs : CsrTable) : CsrName → BitVec 32
  | .mstatus | .sstatus | .ustatus => csrs.mstatus
  | .mie | .sie | .uie => csrs.mie
  | .fflags => Fcsr.fflags.get csrs.fcsr
  | .frm => Fcsr.frm.get csrs.fcsr
  | .tselect => 1
  | other => (csrs.defaultRead32 other).getD 0

namespace CsrName

/-- The contents of a register, before a read masks them. -/
def raw (csrs : CsrTable) (mip : BitVec 32) : CsrName → BitVec 32
  | .mip | .sip | .uip => mip
  | other => csrs.raw other

/-- The bits of a register that a read shows. -/
def readMask : CsrName → BitVec 32
  | .mstatus => CsrMask.MSTATUS
  | .sstatus => CsrMask.SSTATUS
  | .ustatus => CsrMask.USTATUS
  | .mip => CsrMask.MIP_READ
  | .sip => CsrMask.SIP
  | .uip => CsrMask.UIP
  | .mie => CsrMask.MIE
  | .sie => CsrMask.SIE
  | .uie => CsrMask.UIE
  | .fcsr => CsrMask.FCSR
  | _ => BitVec.allOnes 32

/-- The registers that a read computes anew instead of looking them up. -/
def refreshed : CsrName → Bool
  | .time | .timeh | .mtime | .mtimeh | .mcycle | .mcycleh => true
  | _ => false

end CsrName

namespace Iss

open Exec

variable {P : Platform}

theorem pcAlignmentMask_eq {terms : Terms} (hart : Hart terms) :
    hart.pcAlignmentMask = ~~~1 := by
  rw [Hart.pcAlignmentMask, Misa.has_C, if_pos rfl]

/-- The state after a write that is let through. -/
def written (state : State P) (name : CsrName) (value : BitVec 32) : State P :=
  ⟨{ state.hart with csrs := state.hart.csrs.write32 value name },
    { state.board with mip := merge name.mipMask state.board.mip value }⟩

/-- A write that is not let through raises a trap and changes nothing. -/
def illegal (state : State P) {α : Type} : Outcome Fault (State P) (Event P.clover.terms) α :=
  ⟨.error (.trap ⟨.illegalInstr, state.hart.instr.data.toNat⟩), state, []⟩

theorem merge_zero {width : Nat} (old value : BitVec width) : merge 0 old value = old := by
  apply BitVec.eq_of_getLsbD_eq
  intro index _
  simp [getLsbD_merge]

/-- A register that does not stand for pending interrupts leaves the board alone. -/
theorem written_eq {state : State P} {name : CsrName} (elsewhere : name.mipMask = 0)
    (value : BitVec 32) :
    written state name value =
      { state with hart := { state.hart with csrs := state.hart.csrs.write32 value name } } := by
  rw [written, elsewhere, merge_zero]

theorem writeCsr_run (name : CsrName) (value : BitVec 32) (state : State P) :
    (writeCsr name value).run state =
      if name.forbidden state.hart.csrs then illegal state
      else ⟨.ok (), written state name value, []⟩ := by
  cases name with
  | satp =>
      rw [written_eq rfl]
      simp only [writeCsr, bind_run, getHart, get_run, pure_run, Outcome.andThen_ok]
      by_cases blocked : CsrName.satp.forbidden state.hart.csrs = true
      · rw [if_pos blocked, if_pos (show state.hart.csrs.mstatus.getLsbD _ = true from blocked)]
        rfl
      · rw [if_neg blocked, if_neg (show ¬ state.hart.csrs.mstatus.getLsbD _ = true from blocked)]
        rfl
  | mepc | sepc | uepc =>
      rw [written_eq rfl]
      simp only [writeCsr, bind_run, getHart, get_run, pure_run, Outcome.andThen_ok,
        pcAlignmentMask_eq]
      rfl
  | mip | sip | uip => rfl
  | _ =>
      rw [written_eq rfl]
      rfl

/-- A write leaves everything of the hart alone but the table. -/
theorem writeCsr_hart (name : CsrName) (value : BitVec 32) (state : State P) :
    ((writeCsr name value).run state).state.hart = state.hart ∨
      ((writeCsr name value).run state).state.hart =
        { state.hart with csrs := state.hart.csrs.write32 value name } := by
  rw [writeCsr_run]
  split
  · exact .inl rfl
  · exact .inr rfl

/-! ## Reads -/

/-- What a read of such a register returns: a half of the CLINT's time, or of the cycle counter
if that is a whole number of cycles. -/
def refreshedValue (state : State P) (name : CsrName) : Except Fault (BitVec 32) :=
  let time := (P.world.updateAndGetMtime state.board.world).1
  let cycles := BitVec.ofNat 64 (state.hart.cycleCounter / 10)
  let counted (half : BitVec 32) : Except Fault (BitVec 32) :=
    if state.hart.cycleCounter % 10 = 0 then .ok half
    else .error (.assertion "cycle_counter % cycle_time == SC_ZERO_TIME")
  match name with
  | .time | .mtime => .ok (CsrTable.low time)
  | .timeh | .mtimeh => .ok (CsrTable.high time)
  | .mcycle => counted (CsrTable.low cycles)
  | .mcycleh => counted (CsrTable.high cycles)
  | _ => .ok 0

theorem readCsr_run {name : CsrName} (stored : name.refreshed = false) (state : State P) :
    (readCsr name).run state =
      if name.forbidden state.hart.csrs then illegal state
      else ⟨.ok (name.raw state.hart.csrs state.board.mip &&& name.readMask), state, []⟩ := by
  cases name with
  | time | timeh | mtime | mtimeh | mcycle | mcycleh => cases stored
  | satp =>
      have full : state.hart.csrs.satp &&& BitVec.allOnes 32 = state.hart.csrs.satp :=
        BitVec.and_allOnes
      simp only [readCsr, bind_run, get_run, Outcome.andThen_ok]
      by_cases blocked : CsrName.satp.forbidden state.hart.csrs = true
      · rw [if_pos blocked, if_pos (show state.hart.csrs.mstatus.getLsbD _ = true from blocked)]
        rfl
      · rw [if_neg blocked, if_neg (show ¬ state.hart.csrs.mstatus.getLsbD _ = true from blocked)]
        simp only [CsrName.raw, CsrTable.raw, CsrTable.defaultRead32, Option.getD_some,
          CsrName.readMask, full]
        rfl
  | mstatus | sstatus | ustatus | mip | sip | uip | mie | sie | uie | fcsr => rfl
  | _ =>
      simp only [CsrName.readMask, BitVec.and_allOnes]
      rfl

theorem readCsr_refreshed {name : CsrName} (computed : name.refreshed = true) (state : State P) :
    ((readCsr name).run state).result = refreshedValue state name := by
  cases name with
  | time | timeh | mtime | mtimeh => rfl
  | mcycle | mcycleh =>
      simp only [readCsr, updateCycle, computeAndGetCurrentCycles, getHart, bind_run, get_run,
        pure_run, Outcome.andThen_ok, refreshedValue]
      by_cases whole : state.hart.cycleCounter % 10 = 0
      · rw [require_of whole, if_pos whole]
        rfl
      · rw [require_of_not whole, if_neg whole]
        rfl
  | _ => cases computed

/-- Such a read never traps. -/
theorem refreshedValue_ne_trap (state : State P) (name : CsrName) (raised : SimulationTrap) :
    refreshedValue state name ≠ .error (.trap raised) := by
  intro thrown
  unfold refreshedValue at thrown
  cases name with
  | mcycle | mcycleh =>
      dsimp only at thrown
      split at thrown <;> cases thrown
  | _ => cases thrown

/-- The unprivileged counters, which lower levels may read only with permission. -/
def isCounter (address : BitVec 32) : Bool :=
  (0xC00 ≤ address && address ≤ 0xC1F) || (0xC80 ≤ address && address ≤ 0xC9F)

/-- The counter is not shown to the current level. -/
def CounterForbidden {terms : Terms} (hart : Hart terms) (address : BitVec 32) : Prop :=
  let cnt := (address &&& 0x1F).toNat
  isCounter address ∧
    (hart.prv = supervisorMode ∧ ¬hart.csrs.mcounteren.getLsbD cnt ∨
      hart.prv = userMode ∧ ¬(hart.csrs.mcounteren.getLsbD cnt ∧ hart.csrs.scounteren.getLsbD cnt))

instance {terms : Terms} (hart : Hart terms) (address : BitVec 32) :
    Decidable (CounterForbidden hart address) := by
  unfold CounterForbidden
  infer_instance

theorem validateCsrCounterReadAccessRights_run (address : BitVec 32) (state : State P) :
    (validateCsrCounterReadAccessRights address).run state =
      if CounterForbidden state.hart address then illegal state else ⟨.ok (), state, []⟩ := by
  simp only [validateCsrCounterReadAccessRights, getHart, bind_run, get_run, pure_run,
    Outcome.andThen_ok]
  have counter : ((0xC00 ≤ address ∧ address ≤ 0xC1F) ∨ (0xC80 ≤ address ∧ address ≤ 0xC9F)) ↔
      isCounter address = true := by
    simp [isCounter]
  by_cases counted : isCounter address = true
  · rw [if_pos (counter.mpr counted)]
    simp only [CounterForbidden, counted, true_and, Hart.sMode, Hart.uMode, beq_iff_eq]
    split_ifs <;> first | rfl | (exfalso; tauto)
  · rw [if_neg fun range => counted (counter.mp range), if_neg fun forbidden => counted forbidden.1]
    rfl

end Iss

end SymexVP
