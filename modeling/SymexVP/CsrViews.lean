import SymexVP.CsrAccess

/-!
# Views of one register

Several names of the register table are views of one register: a status register has a
view for each level, the counters have shadows, the floating-point flags are fields. A
write through a name replaces the bits of its register that the name's write mask
selects, and leaves every register alone that the name is not a view of.
-/

namespace SymexVP

open BitFields

namespace CsrName

/-- The register a name is a view of. -/
def register : CsrName → CsrName
  | .sstatus | .ustatus => .mstatus
  | .sie | .uie => .mie
  | .sip | .uip => .mip
  | .fflags | .frm => .fcsr
  | .cycle => .mcycle
  | .cycleh => .mcycleh
  | .time => .mtime
  | .timeh => .mtimeh
  | .instret => .minstret
  | .instreth => .minstreth
  | other => other

/-- The bits of a register that a write changes. -/
def writeMask : CsrName → BitVec 32
  | .misa | .tselect | .tdata1 | .tdata2 | .tdata3 | .dcsr | .dpc | .dscratch0 | .dscratch1 => 0
  | .satp => CsrMask.SATP
  | .mtvec | .stvec | .utvec => CsrMask.MTVEC
  | .mepc | .sepc | .uepc => ~~~1
  | .mstatus => CsrMask.MSTATUS
  | .sstatus => CsrMask.SSTATUS
  | .ustatus => CsrMask.USTATUS
  | .mip => CsrMask.MIP_WRITE
  | .sip => CsrMask.SIP
  | .uip => CsrMask.UIP
  | .mie => CsrMask.MIE
  | .sie => CsrMask.SIE
  | .uie => CsrMask.UIE
  | .mideleg => CsrMask.MIDELEG
  | .medeleg => CsrMask.MEDELEG
  | .sideleg => CsrMask.SIDELEG
  | .sedeleg => CsrMask.SEDELEG
  | .mcounteren | .scounteren => CsrMask.MCOUNTEREN
  | .mcountinhibit => CsrMask.MCOUNTINHIBIT
  | .fcsr => CsrMask.FCSR
  | .fflags => 0b11111
  | .frm => 0b111
  | _ => BitVec.allOnes 32

end CsrName

/-! ## The table -/

theorem low_setLow (counter : BitVec 64) (value : BitVec 32) :
    CsrTable.low (CsrTable.setLow counter value) = value :=
  BitVec.extractLsb'_append_eq_right

theorem high_setHigh (counter : BitVec 64) (value : BitVec 32) :
    CsrTable.high (CsrTable.setHigh counter value) = value :=
  BitVec.extractLsb'_append_eq_left

theorem low_setHigh (counter : BitVec 64) (value : BitVec 32) :
    CsrTable.low (CsrTable.setHigh counter value) = CsrTable.low counter :=
  BitVec.extractLsb'_append_eq_right

theorem high_setLow (counter : BitVec 64) (value : BitVec 32) :
    CsrTable.high (CsrTable.setLow counter value) = CsrTable.high counter :=
  BitVec.extractLsb'_append_eq_left

theorem merge_allOnes {width : Nat} (old value : BitVec width) :
    merge (BitVec.allOnes width) old value = value := by
  simp [merge]

/-- A field that starts at bit zero of its own view. -/
theorem get_set_eq_merge (field : BitField 32) (word value : BitVec 32) :
    field.get (field.set word value) =
      merge (fieldMask 32 0 field.len) (field.get word) value := by
  have fits := field.fits
  apply BitVec.eq_of_getLsbD_eq
  intro index _
  rw [BitField.get_set_self, getLsbD_merge, getLsbD_fieldMask _ _ _ (by omega),
    BitField.getLsbD_get]
  by_cases low : index < field.len
  · simp [low]
  · simp [low]

/-- A written register contains what was written under its mask. -/
theorem raw_written (csrs : CsrTable) (mip value : BitVec 32) (name : CsrName) :
    name.raw (csrs.write32 value name) (merge name.mipMask mip value) =
      merge name.writeMask (name.raw csrs mip) value := by
  cases name with
  | cycle | mcycle | time | mtime | instret | minstret =>
      exact (low_setLow _ _).trans (merge_allOnes _ _).symm
  | cycleh | mcycleh | timeh | mtimeh | instreth | minstreth =>
      exact (high_setHigh _ _).trans (merge_allOnes _ _).symm
  | fflags => exact get_set_eq_merge Fcsr.fflags _ _
  | frm => exact get_set_eq_merge Fcsr.frm _ _
  | misa | tselect | tdata1 | tdata2 | tdata3 | dcsr | dpc | dscratch0 | dscratch1 =>
      exact (Iss.merge_zero _ _).symm
  | pmpaddr index =>
      exact (Function.update_self index value csrs.pmpaddr).trans (merge_allOnes _ _).symm
  | pmpcfg index =>
      exact (Function.update_self index value csrs.pmpcfg).trans (merge_allOnes _ _).symm
  | mvendorid | marchid | mimpid | mhartid | mscratch | mcause | mtval | sscratch | scause | stval
  | uscratch | ucause | utval => exact (merge_allOnes _ _).symm
  | _ => rfl

/-- Every other register of the table contains what it did. -/
theorem raw_write32_of_ne (csrs : CsrTable) (value : BitVec 32) {name other : CsrName}
    (apart : other.register ≠ name.register) :
    (csrs.write32 value name).raw other = csrs.raw other := by
  cases name with
  | cycle | mcycle | time | mtime | instret | minstret =>
      cases other <;> first | rfl | exact absurd rfl apart | exact high_setLow _ _
  | cycleh | mcycleh | timeh | mtimeh | instreth | minstreth =>
      cases other <;> first | rfl | exact absurd rfl apart | exact low_setHigh _ _
  | pmpaddr index =>
      cases other with
      | pmpaddr other =>
          have distinct : other ≠ index := fun same => apart (by rw [same])
          exact Function.update_of_ne distinct value csrs.pmpaddr
      | _ => rfl
  | pmpcfg index =>
      cases other with
      | pmpcfg other =>
          have distinct : other ≠ index := fun same => apart (by rw [same])
          exact Function.update_of_ne distinct value csrs.pmpcfg
      | _ => rfl
  | mip | sip | uip | misa | tselect | tdata1 | tdata2 | tdata3 | dcsr | dpc | dscratch0
  | dscratch1 => rfl
  | _ => cases other <;> first | rfl | exact absurd rfl apart

theorem raw_of_ne (csrs : CsrTable) (mip value : BitVec 32) {name other : CsrName}
    (apart : other.register ≠ name.register) :
    other.raw (csrs.write32 value name) (merge name.mipMask mip value) = other.raw csrs mip := by
  have kept := raw_write32_of_ne csrs value apart
  cases other with
  | mip | sip | uip =>
      have elsewhere : name.mipMask = 0 := by cases name <;> first | rfl | exact absurd rfl apart
      rw [elsewhere, Iss.merge_zero]
      rfl
  | _ => exact kept

end SymexVP
