import SymexVP.StepContracts
import SymexVP.ControlState

/-!
# The assertions of a step

The hart checks the alignment of its program counter when it fetches and when it jumps,
the zero register when a step begins, and the count of a reservation when it counts it
down. The checks pass because every source of a program counter is even: immediates of
jumps and branches, handler addresses, and the registers that a return reads. They stay
even because trap entries save an even program counter and writes go through a mask.
-/

namespace SymexVP.Iss

open Exec Opcode BitFields

variable {P : Platform} (input : P.clover.terms.Assignment)

/-! ## Even words -/

/-- A word whose lowest bit is clear. -/
def IsEven (word : BitVec 32) : Prop := word.getLsbD 0 = false

theorem isEven_iff {word : BitVec 32} : IsEven word ↔ word.toNat % 2 = 0 := by
  rw [IsEven, BitVec.getLsbD, Nat.testBit_zero, decide_eq_false_iff_not]
  omega

/-- The check of the source on the lowest bits of an even word. -/
theorem isEven_iff_and {word : BitVec 32} : IsEven word ↔ word &&& 1 = 0 := by
  rw [isEven_iff, ← BitVec.toNat_inj, BitVec.toNat_and]
  exact ⟨fun even => (Nat.and_one_is_mod _).trans even, fun masked =>
    (Nat.and_one_is_mod _).symm.trans masked⟩

theorem IsEven.add {first second : BitVec 32} (one : IsEven first) (other : IsEven second) :
    IsEven (first + second) := by
  rw [isEven_iff] at one other ⊢
  rw [BitVec.toNat_add]
  omega

theorem isEven_shiftLeft (word : BitVec 32) (count : Nat) (positive : 0 < count) :
    IsEven (word <<< count) := by
  rw [IsEven, BitVec.getLsbD_shiftLeft]
  simp [positive]

theorem isEven_mask (word : BitVec 32) : IsEven (word &&& ~~~1) := by
  rw [IsEven, BitVec.getLsbD_and]
  simp

/-- A word is as even as what a masked write leaves of its lowest bit. -/
theorem isEven_merge {old value : BitVec 32} (even : IsEven old) :
    IsEven (merge (~~~1) old value) := by
  unfold IsEven at even ⊢
  rw [getLsbD_merge, even]
  simp

theorem IsEven.or {first second : BitVec 32} (one : IsEven first) (other : IsEven second) :
    IsEven (first ||| second) := by
  rw [IsEven, BitVec.getLsbD_or, one, other]
  rfl

/-- A range that is not moved all the way down leaves the lowest bit clear. -/
theorem isEven_bitRange {upper lower shift : Nat} (word : BitVec 32) (above : shift < lower)
    (ordered : lower ≤ upper) (inside : upper < 32) :
    IsEven ((bitRange word upper lower).sshiftRight shift) := by
  have outside : ¬(lower ≤ shift ∧ shift ≤ upper) := by omega
  rw [IsEven, BitVec.getLsbD_sshiftRight, Nat.add_zero,
    getLsbD_bitRange _ _ _ _ ordered inside, decide_eq_false outside]
  simp [show shift < 32 by omega]

theorem isEven_bitSingle {position shift : Nat} (word : BitVec 32) (above : shift < position)
    (inside : position < 32) : IsEven ((bitSingle word position).sshiftRight shift) := by
  rw [bitSingle_eq_bitRange]
  exact isEven_bitRange word above le_rfl inside

theorem isEven_bImm (word : Instruction) : IsEven word.bImm := by
  refine ((IsEven.or ?_ ?_).or ?_).or ?_
  · exact isEven_bitSingle word (by decide) (by decide)
  · exact isEven_shiftLeft _ 4 (by decide)
  · exact isEven_bitRange word (by decide) (by decide) (by decide)
  · exact isEven_bitRange word (by decide) (by decide) (by decide)

theorem isEven_jImm (word : Instruction) : IsEven word.jImm := by
  have middle : IsEven ((bitRange word 19 12).sshiftRight 0) :=
    isEven_bitRange word (by decide) (by decide) (by decide)
  rw [BitVec.sshiftRight_zero] at middle
  refine ((IsEven.or ?_ middle).or ?_).or ?_
  · exact isEven_bitSingle word (by decide) (by decide)
  · exact isEven_bitSingle word (by decide) (by decide)
  · exact isEven_bitRange word (by decide) (by decide) (by decide)

theorem isEven_handlerAddress (xtvec xcause : BitVec 32) :
    IsEven (handlerAddress xtvec xcause) := by
  have base : IsEven (Mtvec.getBaseAddress xtvec) := isEven_shiftLeft _ 2 (by decide)
  unfold handlerAddress
  split
  · have four : (4 : BitVec 32).toNat = 4 := rfl
    refine base.add ?_
    rw [isEven_iff, BitVec.toNat_mul, four]
    omega
  · exact base

/-! ## What a step keeps -/

/-- The parts of the hart that the assertions are about. -/
structure Checked where
  pc : BitVec 32
  lastPc : BitVec 32
  mepc : BitVec 32
  sepc : BitVec 32
  uepc : BitVec 32
  mtvec : BitVec 32
  stvec : BitVec 32
  utvec : BitVec 32
  lrScCounter : Int

/-- Program counters are even, handlers are direct or vectored, and a reservation counts down
from seventeen. -/
structure Checked.Sound (checked : Checked) : Prop where
  pc : IsEven checked.pc
  lastPc : IsEven checked.lastPc
  mepc : IsEven checked.mepc
  sepc : IsEven checked.sepc
  uepc : IsEven checked.uepc
  mtvec : checked.mtvec.getLsbD 1 = false
  stvec : checked.stvec.getLsbD 1 = false
  utvec : checked.utvec.getLsbD 1 = false
  counting : 0 ≤ checked.lrScCounter ∧ checked.lrScCounter ≤ 17

def checked {terms : Terms} (hart : Hart terms) : Checked where
  pc := hart.pc
  lastPc := hart.lastPc
  mepc := hart.csrs.mepc
  sepc := hart.csrs.sepc
  uepc := hart.csrs.uepc
  mtvec := hart.csrs.mtvec
  stvec := hart.csrs.stvec
  utvec := hart.csrs.utvec
  lrScCounter := hart.lrScCounter

def Sound {terms : Terms} (hart : Hart terms) : Prop := (checked hart).Sound

/-- The assertions of the hart about itself. -/
def stepAssertions : List String :=
  ["misaligned instruction", "!(pc & 0x1)", "regs.read(0) == 0", "lr_sc_counter >= 0"]

/-- Any fault but the failure of one of these. -/
def Fault.Other : Fault → Prop
  | .assertion text => text ∉ stepAssertions
  | _ => True

theorem other_fromBoard {fault : Fault} (known : fault.FromBoard P) : Fault.Other fault := by
  cases fault with
  | assertion text =>
      have apart : ∀ text ∈ boardAssertions, text ∉ stepAssertions := by
        simp [boardAssertions, stepAssertions]
      exact apart text known
  | _ => trivial

def SoundState (state : State P) : Prop := NoTranslation state ∧ Sound state.hart

/-- The contract of a function of the hart. -/
abbrev KeepsSound {α : Type} (returns : α → Prop) (body : IssM P α) : Prop :=
  Meets SoundState returns Fault.Other body

theorem sound_getHart : KeepsSound Sound (getHart : IssM P (Hart P.clover.terms)) :=
  Meets.bind Meets.get fun _ holds => Meets.pure holds.2

theorem sound_changeHart {change : Hart P.clover.terms → Hart P.clover.terms}
    (keeps : ∀ hart, Sound hart → Sound (change hart)) :
    KeepsSound (fun _ => True) (modifyHart change : IssM P Unit) :=
  Meets.modify fun state holds => ⟨holds.1, keeps state.hart holds.2⟩

theorem sound_modifyHart {change : Hart P.clover.terms → Hart P.clover.terms}
    (same : ∀ hart, checked (change hart) = checked hart) :
    KeepsSound (fun _ => True) (modifyHart change : IssM P Unit) := by
  refine sound_changeHart fun hart sound => ?_
  rw [Sound, same]
  exact sound

theorem checked_write (hart : Hart P.clover.terms) (index : BitVec 5)
    (data : Concolic P.clover.terms) : checked (hart.write index data) = checked hart := by
  unfold Hart.write
  split
  · rfl
  · split <;> rfl

theorem sound_write (index : Hart P.clover.terms → BitVec 5)
    (data : Hart P.clover.terms → Concolic P.clover.terms) :
    KeepsSound (fun _ => True)
      (modifyHart fun hart => hart.write (index hart) (data hart) : IssM P Unit) :=
  sound_modifyHart fun hart => checked_write hart _ _

/-- The memory interface leaves the hart alone. -/
theorem sound_memory {α : Type} {body : Core → MemM P α}
    (meets : ∀ core, BoardMeets (fun _ => True) (body core)) :
    KeepsSound (fun _ => True) (memory body) := by
  rintro state ⟨empty, sound⟩
  have frame : Steps (Unchanged fun state : State P => checked state.hart) (memory body) :=
    steps_memory (fun _ _ => rfl) body
  have same : checked ((memory body).run state).state.hart = checked state.hart := frame state
  obtain ⟨kept, -, thrown⟩ := meets_memory meets state empty
  refine ⟨⟨kept, ?_⟩, fun _ _ => trivial, fun fault faulted => ?_⟩
  · rw [Sound, same]
    exact sound
  · exact other_fromBoard (thrown fault faulted)

theorem sound_raiseIllegalInstruction {α : Type} {returns : α → Prop} :
    KeepsSound returns (raiseIllegalInstruction : IssM P α) :=
  Meets.bind sound_getHart fun _ _ => Meets.throw trivial

theorem sound_requireIsa (extension : BitVec 32) :
    KeepsSound (fun _ => True) (requireIsa extension : IssM P Unit) :=
  Meets.bind sound_getHart fun _ _ => Meets.when fun _ => sound_raiseIllegalInstruction

theorem sound_getValue {width : Nat} (use : Use) (value : ConcolicValue P.clover.terms width) :
    KeepsSound (fun _ => True) (getValue use value) :=
  Meets.bind (Meets.emit _) fun _ _ => Meets.pure trivial

theorem sound_trackAndTraceBranch (cond : Bool) (expr : ConcolicValue P.clover.terms 1) :
    KeepsSound (fun _ => True) (trackAndTraceBranch cond expr) := by
  refine Meets.bind sound_getHart fun hart _ => ?_
  split
  · exact Meets.emit _
  · exact Meets.pure trivial

theorem sound_trapCheckAddrAlignment (alignment : Nat) (isLoad : Bool)
    (addr : ConcolicValue P.clover.terms 32) :
    KeepsSound (fun _ => True) (trapCheckAddrAlignment alignment isLoad addr) :=
  Meets.bind (sound_getValue _ _) fun _ _ => Meets.when fun _ => Meets.throw trivial

theorem sound_releaseLrScReservation :
    KeepsSound (fun _ => True) (releaseLrScReservation : IssM P Unit) := by
  refine Meets.bind (sound_changeHart fun hart sound => ?_) fun _ _ =>
    sound_memory fun _ => Board.meets_unlock _
  exact { sound with counting := ⟨le_rfl, (by decide : (0 : Int) ≤ 17)⟩ }

/-! ## Jumps -/

theorem sound_jumpTo {target : BitVec 32} (even : IsEven target) :
    KeepsSound (fun _ => True) (jumpTo target : IssM P Unit) := by
  refine Meets.bind (sound_changeHart fun hart sound => ?_) fun _ _ =>
    Meets.bind sound_getHart fun hart sound => ?_
  · exact { sound with pc := even }
  · refine Meets.bind (Meets.passes (isEven_iff_and.mp sound.pc)) fun _ _ => ?_
    exact Meets.when fun _ => Meets.throw trivial

theorem sound_jal : KeepsSound (fun _ => True) (jal : IssM P Unit) := by
  refine Meets.bind sound_getHart fun hart sound => ?_
  exact Meets.bind (sound_jumpTo (sound.lastPc.add (isEven_jImm _))) fun _ _ => sound_write _ _

theorem sound_jalr : KeepsSound (fun _ => True) (jalr : IssM P Unit) := by
  refine Meets.bind sound_getHart fun hart _ => Meets.bind (sound_getValue _ _) fun rs1 _ => ?_
  exact Meets.bind (sound_jumpTo (isEven_mask _)) fun _ _ => sound_write _ _

theorem sound_branch (operation : CompareOp) :
    KeepsSound (fun _ => True) (branch operation : IssM P Unit) := by
  refine Meets.bind sound_getHart fun hart sound => ?_
  refine Meets.bind (Meets.when fun _ => ?_) fun _ _ => sound_trackAndTraceBranch _ _
  exact sound_jumpTo (sound.lastPc.add (isEven_bImm _))

/-! ## Memory accesses -/

section Accesses

variable {check : ConcolicValue P.clover.terms 32 → IssM P Unit}
  (checks : ∀ addr, KeepsSound (fun _ => True) (check addr)) (numBytes : Nat)

include checks

theorem sound_store : KeepsSound (fun _ => True) (store input check numBytes) := by
  refine Meets.bind sound_getHart fun hart _ => Meets.bind (checks _) fun _ _ => ?_
  exact sound_memory fun core => meets_storeBytes (known_bus core input) core _ _ _

theorem sound_load : KeepsSound (fun _ => True) (load input check numBytes) := by
  refine Meets.bind sound_getHart fun hart _ => Meets.bind (checks _) fun _ _ => ?_
  refine Meets.bind (sound_memory fun core => ?_) fun _ _ => sound_write _ _
  exact meets_loadSigned (known_bus core input) core _ _

theorem sound_loadUnsigned : KeepsSound (fun _ => True) (loadUnsigned input check numBytes) := by
  refine Meets.bind sound_getHart fun hart _ => Meets.bind (checks _) fun _ _ => ?_
  refine Meets.bind (sound_memory fun core => ?_) fun _ _ => sound_write _ _
  exact meets_loadUnsigned (known_bus core input) core _ _

end Accesses

theorem sound_lrW : KeepsSound (fun _ => True) (lrW input) := by
  refine Meets.bind (sound_requireIsa _) fun _ _ => Meets.bind sound_getHart fun hart _ => ?_
  refine Meets.bind (sound_trapCheckAddrAlignment _ _ _) fun _ _ => ?_
  refine Meets.bind (sound_memory fun core => ?_) fun value _ => ?_
  · exact meets_atomicLoadReservedWord (known_bus core input) core _ _
  refine Meets.bind (sound_write _ _) fun _ _ => sound_changeHart fun hart sound => ?_
  refine { sound with counting := ?_ }
  have counting : 0 ≤ hart.lrScCounter ∧ hart.lrScCounter ≤ 17 := sound.counting
  simp only [checked]
  split
  · decide
  · exact counting

theorem sound_scW : KeepsSound (fun _ => True) (scW input) := by
  refine Meets.bind (sound_requireIsa _) fun _ _ => Meets.bind sound_getHart fun hart _ => ?_
  refine Meets.bind (sound_trapCheckAddrAlignment _ _ _) fun _ _ => ?_
  refine Meets.bind (sound_write _ _) fun _ _ => ?_
  refine Meets.bind (sound_memory fun core => ?_) fun stored _ => ?_
  · exact meets_atomicStoreConditionalWord (known_bus core input) core _ _ _
  refine Meets.bind (sound_write _ _) fun _ _ => sound_changeHart fun hart sound => ?_
  exact { sound with counting := ⟨le_rfl, (by decide : (0 : Int) ≤ 17)⟩ }

theorem sound_executeAmo (operation : ConcolicValue P.clover.terms 32 →
    ConcolicValue P.clover.terms 32 → ConcolicValue P.clover.terms 32) :
    KeepsSound (fun _ => True) (executeAmo input operation) := by
  refine Meets.bind (sound_requireIsa _) fun _ _ => Meets.bind sound_getHart fun hart _ => ?_
  refine Meets.bind (sound_trapCheckAddrAlignment _ _ _) fun _ _ => ?_
  refine Meets.bind (Meets.tryCatch (sound_memory fun core => ?_) fun fault known => ?_)
    fun data _ => ?_
  · exact meets_atomicLoadWord (known_bus core input) core _
  · split
    · exact Meets.throw trivial
    · exact Meets.throw known
  · refine Meets.bind (sound_memory fun core => ?_) fun _ _ => sound_write _ _
    exact meets_atomicStoreWord (known_bus core input) core _ _

/-! ## Control and status registers -/

theorem sound_ecall : KeepsSound (fun _ => True) (ecall : IssM P Unit) := by
  refine Meets.bind sound_getHart fun hart _ => ?_
  refine Meets.ite (fun _ => Meets.throw trivial) fun _ => ?_
  refine Meets.ite (fun _ => Meets.throw trivial) fun _ => ?_
  exact Meets.ite (fun _ => Meets.throw trivial) fun _ => Meets.throw trivial

theorem sound_isInvalidCsrAccess (address : BitVec 32) (isWrite : Bool) :
    KeepsSound (fun _ => True) (isInvalidCsrAccess address isWrite : IssM P Bool) := by
  refine Meets.bind (Meets.when fun _ => sound_requireIsa _) fun _ _ => ?_
  exact Meets.bind sound_getHart fun _ _ => Meets.pure trivial

theorem sound_updateTime : KeepsSound (fun _ => True) (updateTime : IssM P (BitVec 64)) := by
  refine Meets.bind (sound_memory fun _ => ?_) fun _ _ => ?_
  · refine Meets.bind Meets.get fun _ _ => ?_
    exact Meets.bind (Meets.modify fun _ holds => holds) fun _ _ => Meets.pure trivial
  · exact Meets.bind (sound_modifyHart fun _ => rfl) fun _ _ => Meets.pure trivial

theorem sound_computeAndGetCurrentCycles :
    KeepsSound (fun _ => True) (computeAndGetCurrentCycles : IssM P (BitVec 64)) := by
  refine Meets.bind sound_getHart fun hart _ => ?_
  refine Meets.bind (Meets.require ?_) fun _ _ => Meets.pure trivial
  simp [Fault.Other, stepAssertions]

theorem sound_updateCycle : KeepsSound (fun _ => True) (updateCycle : IssM P (BitVec 64)) := by
  refine Meets.bind sound_computeAndGetCurrentCycles fun _ _ => ?_
  exact Meets.bind (sound_modifyHart fun _ => rfl) fun _ _ => Meets.pure trivial

theorem sound_readCsr (name : CsrName) :
    KeepsSound (fun _ => True) (readCsr name : IssM P (BitVec 32)) := by
  refine Meets.bind Meets.get fun state _ => ?_
  cases name with
  | time | mtime | timeh | mtimeh =>
      exact Meets.bind sound_updateTime fun _ _ => Meets.pure trivial
  | mcycle | mcycleh => exact Meets.bind sound_updateCycle fun _ _ => Meets.pure trivial
  | satp => exact Meets.ite (fun _ => sound_raiseIllegalInstruction) fun _ => Meets.pure trivial
  | _ => exact Meets.pure trivial

theorem sound_validateCsrCounterReadAccessRights (address : BitVec 32) :
    KeepsSound (fun _ => True) (validateCsrCounterReadAccessRights address : IssM P Unit) := by
  refine Meets.bind sound_getHart fun hart _ => ?_
  refine Meets.ite (fun _ => ?_) fun _ => Meets.pure trivial
  refine Meets.ite (fun _ => sound_raiseIllegalInstruction) fun _ => ?_
  exact Meets.ite (fun _ => sound_raiseIllegalInstruction) fun _ => Meets.pure trivial

theorem sound_getCsrValue (address : BitVec 32) :
    KeepsSound (fun _ => True) (getCsrValue address : IssM P (BitVec 32)) := by
  refine Meets.bind (sound_validateCsrCounterReadAccessRights _) fun _ _ => ?_
  refine Meets.ite (fun _ => Meets.pure trivial) fun _ => ?_
  split
  · exact sound_readCsr _
  · exact sound_raiseIllegalInstruction

/-- A write through the mask of a handler's base keeps the reserved bit of its mode clear. -/
theorem mode_merge {old value : BitVec 32} (direct : old.getLsbD 1 = false) :
    (merge CsrMask.MTVEC old value).getLsbD 1 = false := by
  rw [getLsbD_merge, direct]
  simp [CsrMask.MTVEC]

theorem sound_write32 {hart : Hart P.clover.terms} (name : CsrName) (value : BitVec 32)
    (sound : Sound hart) : Sound { hart with csrs := hart.csrs.write32 value name } := by
  cases name with
  | mepc => exact { sound with mepc := isEven_merge sound.mepc }
  | sepc => exact { sound with sepc := isEven_merge sound.sepc }
  | uepc => exact { sound with uepc := isEven_merge sound.uepc }
  | mtvec => exact { sound with mtvec := mode_merge sound.mtvec }
  | stvec => exact { sound with stvec := mode_merge sound.stvec }
  | utvec => exact { sound with utvec := mode_merge sound.utvec }
  | _ => exact sound

theorem sound_writeCsr (name : CsrName) (value : BitVec 32) :
    KeepsSound (fun _ => True) (writeCsr name value : IssM P Unit) := by
  rintro state ⟨empty, sound⟩
  obtain ⟨kept, -, -⟩ := meets_writeCsr name value state empty
  refine ⟨⟨kept, ?_⟩, fun _ _ => trivial, fun fault thrown => ?_⟩
  · obtain same | changed := writeCsr_hart name value state
    · rw [same]
      exact sound
    · rw [changed]
      exact sound_write32 name value sound
  · rw [writeCsr_run] at thrown
    split at thrown
    · cases thrown
      trivial
    · cases thrown

theorem sound_setCsrValue (address value : BitVec 32) :
    KeepsSound (fun _ => True) (setCsrValue address value : IssM P Unit) := by
  refine Meets.ite (fun _ => Meets.pure trivial) fun _ => ?_
  split
  · exact sound_writeCsr _ _
  · exact sound_raiseIllegalInstruction

theorem sound_csrWrite {source : Hart P.clover.terms → IssM P (BitVec 32)}
    (keeps : ∀ hart, KeepsSound (fun _ => True) (source hart)) :
    KeepsSound (fun _ => True) (csrWrite source) := by
  refine Meets.bind sound_getHart fun hart _ => ?_
  refine Meets.bind (sound_isInvalidCsrAccess _ _) fun invalid _ => ?_
  refine Meets.ite (fun _ => sound_raiseIllegalInstruction) fun _ => ?_
  refine Meets.bind (Meets.when fun _ => ?_) fun _ _ => ?_
  · exact Meets.bind (sound_getCsrValue _) fun _ _ => sound_write _ _
  · exact Meets.bind (keeps hart) fun _ _ => sound_setCsrValue _ _

theorem sound_csrModify {α : Type} {writes : Hart P.clover.terms → Bool}
    {prepare : Hart P.clover.terms → IssM P α} {update : α → BitVec 32 → IssM P (BitVec 32)}
    (before : ∀ hart, KeepsSound (fun _ => True) (prepare hart))
    (after : ∀ operand csrVal, KeepsSound (fun _ => True) (update operand csrVal)) :
    KeepsSound (fun _ => True) (csrModify writes prepare update) := by
  refine Meets.bind sound_getHart fun hart _ => ?_
  refine Meets.bind (sound_isInvalidCsrAccess _ _) fun invalid _ => ?_
  refine Meets.ite (fun _ => sound_raiseIllegalInstruction) fun _ => ?_
  refine Meets.bind (before hart) fun operand _ => ?_
  refine Meets.bind (sound_getCsrValue _) fun csrVal _ => ?_
  refine Meets.bind (Meets.when fun _ => sound_write _ _) fun _ _ => Meets.when fun _ => ?_
  exact Meets.bind (after operand csrVal) fun _ _ => sound_setCsrValue _ _

theorem sound_wfi : KeepsSound (fun _ => True) (wfi : IssM P Unit) := by
  refine Meets.bind sound_releaseLrScReservation fun _ _ => Meets.bind Meets.get fun state _ => ?_
  refine Meets.ite (fun _ => sound_raiseIllegalInstruction) fun _ => ?_
  refine Meets.ite (fun _ => sound_raiseIllegalInstruction) fun _ => ?_
  refine Meets.ite (fun _ => sound_memory fun _ => Board.meets_waitFor trivial _) fun _ => ?_
  exact Meets.pure trivial

/-- A return goes to where a trap was taken or software said. -/
theorem sound_returnFromTrapHandler (returnMode : PrivilegeLevel) :
    KeepsSound (fun _ => True) (returnFromTrapHandler returnMode : IssM P Unit) := by
  refine Meets.ite (fun _ => sound_changeHart fun hart sound => ?_) fun _ => ?_
  · exact { sound with pc := sound.mepc }
  refine Meets.ite (fun _ => sound_changeHart fun hart sound => ?_) fun _ => ?_
  · exact { sound with pc := sound.sepc }
  refine Meets.ite (fun _ => sound_changeHart fun hart sound => ?_) fun _ => Meets.throw trivial
  exact { sound with pc := sound.uepc }

/-! ## The switch -/

theorem sound_compute (value : Hart P.clover.terms → Concolic P.clover.terms) :
    KeepsSound (fun _ => True) (compute value : IssM P Unit) := sound_write _ _

theorem sound_arithmetic (operation : BinaryOp)
    (operand : Hart P.clover.terms → ConcolicValue P.clover.terms 32) :
    KeepsSound (fun _ => True) (arithmetic operation operand : IssM P Unit) := sound_compute _

theorem sound_comparison (operation : CompareOp)
    (operand : Hart P.clover.terms → ConcolicValue P.clover.terms 32) :
    KeepsSound (fun _ => True) (comparison operation operand : IssM P Unit) := sound_compute _

theorem sound_multiply
    (extend₁ extend₂ : ConcolicValue P.clover.terms 32 → ConcolicValue P.clover.terms 64)
    (offset : Nat) : KeepsSound (fun _ => True) (multiply extend₁ extend₂ offset : IssM P Unit) :=
  Meets.bind (sound_requireIsa _) fun _ _ => sound_compute _

theorem sound_divide {onZero : Hart P.clover.terms → Hart P.clover.terms}
    (same : ∀ hart, checked (onZero hart) = checked hart)
    (result : Hart P.clover.terms → ConcolicValue P.clover.terms 32) :
    KeepsSound (fun _ => True) (divide onZero result) := by
  refine Meets.bind (sound_requireIsa _) fun _ _ => Meets.bind sound_getHart fun hart _ => ?_
  refine Meets.bind (Meets.ite (fun _ => sound_modifyHart same) fun _ => sound_compute _)
    fun _ _ => ?_
  exact sound_trackAndTraceBranch _ _

theorem checked_copyRs1 (hart : Hart P.clover.terms) : checked (copyRs1 hart) = checked hart := rfl

theorem sound_implemented {op : Mapping} (implemented : unimplemented op = false) :
    KeepsSound (fun _ => True) (execute input op) := by
  have unchecked : ∀ addr, KeepsSound (fun _ => True) (Iss.unchecked addr : IssM P Unit) :=
    fun _ => Meets.pure trivial
  cases op with
  | undefined => exact sound_raiseIllegalInstruction
  | lui | auipc => exact sound_compute _
  | slti | sltiu | slt | sltu => exact sound_comparison _ _
  | addi | xori | ori | andi | add | sub | sll | srl | sra | xor | or | and | slli | srli | srai =>
      exact sound_arithmetic _ _
  | jal => exact sound_jal
  | jalr => exact sound_jalr
  | beq | bne | blt | bge | bltu | bgeu => exact sound_branch _
  | sb => exact sound_store input unchecked 1
  | sh | sw => exact sound_store input (sound_trapCheckAddrAlignment _ _) _
  | lb => exact sound_load input unchecked 1
  | lh | lw => exact sound_load input (sound_trapCheckAddrAlignment _ _) _
  | lbu => exact sound_loadUnsigned input unchecked 1
  | lhu => exact sound_loadUnsigned input (sound_trapCheckAddrAlignment _ _) _
  | fence | fenceI => exact Meets.pure trivial
  | ecall => exact sound_ecall
  | ebreak => exact sound_modifyHart fun _ => rfl
  | csrrw => exact sound_csrWrite fun _ => sound_getValue _ _
  | csrrwi => exact sound_csrWrite fun _ => Meets.pure trivial
  | csrrs =>
      exact sound_csrModify (fun _ => Meets.pure trivial) fun _ _ =>
        Meets.bind (sound_getValue _ _) fun _ _ => Meets.pure trivial
  | csrrc => exact sound_csrModify (fun _ => sound_getValue _ _) fun _ _ => Meets.pure trivial
  | csrrsi | csrrci =>
      exact sound_csrModify (fun _ => Meets.pure trivial) fun _ _ => Meets.pure trivial
  | mul | mulh | mulhu | mulhsu => exact sound_multiply _ _ _
  | div | divu => exact sound_divide (fun hart => checked_write hart _ _) _
  | rem | remu => exact sound_divide checked_copyRs1 _
  | lrW => exact sound_lrW input
  | scW => exact sound_scW input
  | amoswapW => exact sound_executeAmo input fun _ b => b
  | amoaddW | amoxorW | amoandW | amoorW | amominW | amominuW | amomaxW | amomaxuW =>
      exact sound_executeAmo input _
  | wfi => exact sound_wfi
  | mret => exact sound_returnFromTrapHandler _
  | _ => exact absurd implemented Bool.noConfusion

theorem sound_execute (op : Mapping) : KeepsSound (fun _ => True) (execute input op) := by
  by_cases missing : unimplemented op = true
  · rw [execute_of_unimplemented input missing]
    exact Meets.throw trivial
  · exact sound_implemented input (Bool.eq_false_of_not_eq_true missing)

end SymexVP.Iss
