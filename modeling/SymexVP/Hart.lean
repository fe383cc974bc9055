import SymexVP.Devices
import SymexVP.DecodeNormal
import SymexVP.DecodeCompressed

/-!
# The hart: registers, control and status registers, traps

The state of `rv32::ISS` and the functions that act on it between two memory
accesses: the register file, reading and writing control and status registers,
routing traps and interrupts to a privilege level, entering and leaving a handler.

A register holds a pointer to a concolic value. Which object it points to matters
for store-conditional, so that every value a register is given carries the number of
the object it lives in; a write of a new value takes the next unused number.
-/

namespace SymexVP

open BitFields

/-- A pointer to a concolic register value: the object's number and its contents. -/
structure RegValue (terms : Terms) where
  object : Nat
  value : ConcolicValue terms 32

inductive CoreExecStatus
  | runnable
  | hitBreakpoint
  | terminated
  deriving DecidableEq, Repr

/-- The fields of `rv32::ISS` that only the hart itself writes. -/
structure Hart (terms : Terms) where
  regs : BitVec 5 → RegValue terms
  /-- The number of the next object. -/
  nextObject : Nat
  pc : BitVec 32
  lastPc : BitVec 32
  csrs : CsrTable
  prv : PrivilegeLevel
  lrScCounter : Int
  instr : Instruction
  op : Opcode.Mapping
  status : CoreExecStatus
  debugMode : Bool
  breakpoints : List (BitVec 32)
  ignoreWfi : Bool
  /-- `cycle_counter` in nanoseconds. -/
  cycleCounter : Nat

/-- A hart and the board it is connected to. -/
structure State (P : Platform) where
  hart : Hart P.clover.terms
  board : Board P

/-- Computations of the simulator. -/
abbrev IssM (P : Platform) (α : Type) := Exec Fault (State P) (Event P.clover.terms) α

namespace Hart

variable {terms : Terms}

/-- Point a register at an object. -/
def assign (hart : Hart terms) (index : BitVec 5) (value : RegValue terms) : Hart terms :=
  { hart with regs := Function.update hart.regs index value }

/-- Point a register at a new object. -/
def assignNew (hart : Hart terms) (index : BitVec 5) (value : ConcolicValue terms 32) :
    Hart terms :=
  { hart.assign index ⟨hart.nextObject, value⟩ with nextObject := hart.nextObject + 1 }

/-- `RegFile::write` of a new value: a narrow value is zero-extended, a wide one dropped. The
accessors of an instruction yield register numbers of five bits, so the assertion on the
index cannot fail. -/
def write {P : Platform} (hart : Hart P.clover.terms) (index : BitVec 5)
    (data : Concolic P.clover.terms) : Hart P.clover.terms :=
  if data.width < 32 then hart.assignNew index (P.clover.zext 32 data.value)
  else if wide : data.width = 32 then hart.assignNew index (wide ▸ data.value)
  else hart

/-- `RD`, `RS1` and `RS2`. -/
def rd (hart : Hart terms) : BitVec 5 := hart.instr.rd.setWidth 5
def rs1 (hart : Hart terms) : BitVec 5 := hart.instr.rs1.setWidth 5
def rs2 (hart : Hart terms) : BitVec 5 := hart.instr.rs2.setWidth 5

/-- `regs[RS1]` and `regs[RS2]`. -/
def rs1Value (hart : Hart terms) : ConcolicValue terms 32 := (hart.regs hart.rs1).value
def rs2Value (hart : Hart terms) : ConcolicValue terms 32 := (hart.regs hart.rs2).value

/-- `regs.shamt(RS2)`. -/
def rs2Shamt {P : Platform} (hart : Hart P.clover.terms) : ConcolicValue P.clover.terms 32 :=
  P.clover.zext 32 (P.clover.extract 0 5 hart.rs2Value)

/-- `I_IMM`, `S_IMM`, `U_IMM` and `SHAMT`. -/
def iImm {P : Platform} (hart : Hart P.clover.terms) : ConcolicValue P.clover.terms 32 :=
  P.clover.sext 32 (.BVC hart.instr.iImm : ConcolicValue P.clover.terms 32)

def sImm {P : Platform} (hart : Hart P.clover.terms) : ConcolicValue P.clover.terms 32 :=
  P.clover.sext 32 (.BVC hart.instr.sImm : ConcolicValue P.clover.terms 32)

def uImm (hart : Hart terms) : ConcolicValue terms 32 := .BVC hart.instr.uImm
def shamt (hart : Hart terms) : ConcolicValue terms 32 := .BVC hart.instr.shamt

/-- What the memory interface sees of the hart. -/
def core (hart : Hart terms) : Core :=
  ⟨hart.csrs.satp, hart.csrs.mstatus, hart.prv, hart.csrs.mhartid⟩

def mMode (hart : Hart terms) : Bool := hart.prv == machineMode
def sMode (hart : Hart terms) : Bool := hart.prv == supervisorMode
def uMode (hart : Hart terms) : Bool := hart.prv == userMode

/-- `pc_alignment_mask`. -/
def pcAlignmentMask (hart : Hart terms) : BitVec 32 :=
  if hart.csrs.misa.has Misa.C then ~~~1 else ~~~3

end Hart

namespace Iss

variable {P : Platform}

def getHart : IssM P (Hart P.clover.terms) := do
  let state ← Exec.get
  pure state.hart

def modifyHart (change : Hart P.clover.terms → Hart P.clover.terms) : IssM P Unit :=
  Exec.modify fun state => { state with hart := change state.hart }

def modifyCsrs (change : CsrTable → CsrTable) : IssM P Unit :=
  modifyHart fun hart => { hart with csrs := change hart.csrs }

/-- Call into the memory interface. -/
def memory {α : Type} (body : Core → MemM P α) : IssM P α := do
  let hart ← getHart
  Exec.focus State.board (fun board state => { state with board := board }) (body hart.core)

/-- `RAISE_ILLEGAL_INSTRUCTION`. -/
def raiseIllegalInstruction {α : Type} : IssM P α := do
  let hart ← getHart
  raiseTrap .illegalInstr hart.instr.data.toNat

/-- `REQUIRE_ISA`. -/
def requireIsa (extension : BitVec 32) : IssM P Unit := do
  let hart ← getHart
  Exec.when (¬hart.csrs.misa.has extension) raiseIllegalInstruction

/-! ## Control and status registers -/

/-- The privilege level encoded in a register number, and whether it is read-only. -/
def csrPrv (address : BitVec 32) : PrivilegeLevel := (0x300 &&& address) >>> 8
def csrReadonly (address : BitVec 32) : Bool := (0xC00 &&& address) >>> 10 == 3

/-- `is_invalid_csr_access`. -/
def isInvalidCsrAccess (address : BitVec 32) (isWrite : Bool) : IssM P Bool := do
  Exec.when (address = CsrName.fflags.addr ∨ address = CsrName.frm.addr ∨
    address = CsrName.fcsr.addr) (requireIsa Misa.F)
  let hart ← getHart
  let sInvalid := csrPrv address == supervisorMode && !hart.csrs.misa.has Misa.S
  let uInvalid := csrPrv address == userMode && !hart.csrs.misa.has Misa.U
  pure ((isWrite && csrReadonly address) || decide (hart.prv < csrPrv address) || sInvalid ||
    uInvalid)

/-- `validate_csr_counter_read_access_rights`. -/
def validateCsrCounterReadAccessRights (address : BitVec 32) : IssM P Unit := do
  let hart ← getHart
  if (0xC00 ≤ address ∧ address ≤ 0xC1F) ∨ (0xC80 ≤ address ∧ address ≤ 0xC9F) then
    let cnt := (address &&& 0x1F).toNat
    let machine := hart.csrs.mcounteren.getLsbD cnt
    let supervisor := hart.csrs.scounteren.getLsbD cnt
    if hart.sMode ∧ ¬machine then raiseIllegalInstruction
    else if hart.uMode ∧ (¬machine ∨ ¬supervisor) then raiseIllegalInstruction
    else pure ()
  else pure ()

/-- `_compute_and_get_current_cycles`, for a cycle time of 10 ns. -/
def computeAndGetCurrentCycles : IssM P (BitVec 64) := do
  let hart ← getHart
  Exec.require (hart.cycleCounter % 10 = 0)
    (.assertion "cycle_counter % cycle_time == SC_ZERO_TIME")
  pure (BitVec.ofNat 64 (hart.cycleCounter / 10))

/-- Refresh `csrs.time` from the CLINT. -/
def updateTime : IssM P (BitVec 64) := do
  let mtime ← memory fun _ => do
    let board ← Exec.get
    let (mtime, world) := P.world.updateAndGetMtime board.world
    Exec.modify fun board => { board with world := world }
    pure mtime
  modifyCsrs fun csrs => { csrs with time := mtime }
  pure mtime

/-- Refresh `csrs.cycle` from the cycle counter. -/
def updateCycle : IssM P (BitVec 64) := do
  let cycles ← computeAndGetCurrentCycles
  modifyCsrs fun csrs => { csrs with cycle := cycles }
  pure cycles

/-- The case of `get_csr_value` for a named register; the last line is the common path behind
the switch. -/
def readCsr (name : CsrName) : IssM P (BitVec 32) := do
  let state ← Exec.get
  let csrs := state.hart.csrs
  match name with
  | .time | .mtime => do
      let mtime ← updateTime
      pure (CsrTable.low mtime)
  | .timeh | .mtimeh => do
      let mtime ← updateTime
      pure (CsrTable.high mtime)
  | .mcycle => do
      let cycles ← updateCycle
      pure (CsrTable.low cycles)
  | .mcycleh => do
      let cycles ← updateCycle
      pure (CsrTable.high cycles)
  | .minstret => pure (CsrTable.low csrs.instret)
  | .minstreth => pure (CsrTable.high csrs.instret)
  | .mstatus => pure (csrs.mstatus &&& CsrMask.MSTATUS)
  | .sstatus => pure (csrs.mstatus &&& CsrMask.SSTATUS)
  | .ustatus => pure (csrs.mstatus &&& CsrMask.USTATUS)
  | .mip => pure (state.board.mip &&& CsrMask.MIP_READ)
  | .sip => pure (state.board.mip &&& CsrMask.SIP)
  | .uip => pure (state.board.mip &&& CsrMask.UIP)
  | .mie => pure (csrs.mie &&& CsrMask.MIE)
  | .sie => pure (csrs.mie &&& CsrMask.SIE)
  | .uie => pure (csrs.mie &&& CsrMask.UIE)
  | .satp => if csrs.mstatus.getLsbD Mstatus.tvm.lo then raiseIllegalInstruction else pure csrs.satp
  | .fcsr => pure (csrs.fcsr &&& CsrMask.FCSR)
  | .fflags => pure (Fcsr.fflags.get csrs.fcsr)
  | .frm => pure (Fcsr.frm.get csrs.fcsr)
  | .tselect => pure 1
  | .tdata1 | .tdata2 | .tdata3 | .dcsr | .dpc | .dscratch0 | .dscratch1 => pure 0
  | other =>
      match csrs.defaultRead32 other with
      | some value => pure value
      | none => raiseIllegalInstruction

/-- `get_csr_value`. -/
def getCsrValue (address : BitVec 32) : IssM P (BitVec 32) := do
  validateCsrCounterReadAccessRights address
  if isHpmCounter address then pure 0
  else
    match CsrName.find address with
    | some name => readCsr name
    | none => raiseIllegalInstruction

/-- The case of `set_csr_value` for a named register. A masked write keeps the bits outside
the mask. -/
def writeCsr (name : CsrName) (value : BitVec 32) : IssM P Unit := do
  let hart ← getHart
  let csrs := hart.csrs
  match name with
  | .misa => pure ()
  | .satp =>
      if csrs.mstatus.getLsbD Mstatus.tvm.lo then raiseIllegalInstruction
      else modifyCsrs fun csrs => { csrs with satp := merge CsrMask.SATP csrs.satp value }
  | .mtvec => modifyCsrs fun csrs => { csrs with mtvec := merge CsrMask.MTVEC csrs.mtvec value }
  | .stvec => modifyCsrs fun csrs => { csrs with stvec := merge CsrMask.MTVEC csrs.stvec value }
  | .utvec => modifyCsrs fun csrs => { csrs with utvec := merge CsrMask.MTVEC csrs.utvec value }
  | .mepc => modifyCsrs fun csrs => { csrs with mepc := merge hart.pcAlignmentMask csrs.mepc value }
  | .sepc => modifyCsrs fun csrs => { csrs with sepc := merge hart.pcAlignmentMask csrs.sepc value }
  | .uepc => modifyCsrs fun csrs => { csrs with uepc := merge hart.pcAlignmentMask csrs.uepc value }
  | .mstatus =>
      modifyCsrs fun csrs => { csrs with mstatus := merge CsrMask.MSTATUS csrs.mstatus value }
  | .sstatus =>
      modifyCsrs fun csrs => { csrs with mstatus := merge CsrMask.SSTATUS csrs.mstatus value }
  | .ustatus =>
      modifyCsrs fun csrs => { csrs with mstatus := merge CsrMask.USTATUS csrs.mstatus value }
  | .mip => setMip CsrMask.MIP_WRITE
  | .sip => setMip CsrMask.SIP
  | .uip => setMip CsrMask.UIP
  | .mie => modifyCsrs fun csrs => { csrs with mie := merge CsrMask.MIE csrs.mie value }
  | .sie => modifyCsrs fun csrs => { csrs with mie := merge CsrMask.SIE csrs.mie value }
  | .uie => modifyCsrs fun csrs => { csrs with mie := merge CsrMask.UIE csrs.mie value }
  | .mideleg =>
      modifyCsrs fun csrs => { csrs with mideleg := merge CsrMask.MIDELEG csrs.mideleg value }
  | .medeleg =>
      modifyCsrs fun csrs => { csrs with medeleg := merge CsrMask.MEDELEG csrs.medeleg value }
  | .sideleg =>
      modifyCsrs fun csrs => { csrs with sideleg := merge CsrMask.SIDELEG csrs.sideleg value }
  | .sedeleg =>
      modifyCsrs fun csrs => { csrs with sedeleg := merge CsrMask.SEDELEG csrs.sedeleg value }
  | .mcounteren =>
      modifyCsrs fun csrs =>
        { csrs with mcounteren := merge CsrMask.MCOUNTEREN csrs.mcounteren value }
  | .scounteren =>
      modifyCsrs fun csrs =>
        { csrs with scounteren := merge CsrMask.MCOUNTEREN csrs.scounteren value }
  | .mcountinhibit =>
      modifyCsrs fun csrs =>
        { csrs with mcountinhibit := merge CsrMask.MCOUNTINHIBIT csrs.mcountinhibit value }
  | .fcsr => modifyCsrs fun csrs => { csrs with fcsr := merge CsrMask.FCSR csrs.fcsr value }
  | .fflags => modifyCsrs fun csrs => { csrs with fcsr := Fcsr.fflags.set csrs.fcsr value }
  | .frm => modifyCsrs fun csrs => { csrs with fcsr := Fcsr.frm.set csrs.fcsr value }
  | .tselect | .tdata1 | .tdata2 | .tdata3 | .dcsr | .dpc | .dscratch0 | .dscratch1 => pure ()
  | other =>
      match csrs.defaultWrite32 value other with
      | some changed => modifyCsrs fun _ => changed
      | none => raiseIllegalInstruction
where
  /-- A masked write to the pending interrupts. -/
  setMip (mask : BitVec 32) : IssM P Unit :=
    memory fun _ => Exec.modify fun board => { board with mip := merge mask board.mip value }

/-- `set_csr_value`. -/
def setCsrValue (address value : BitVec 32) : IssM P Unit :=
  if isHpmCounter address then pure ()
  else
    match CsrName.find address with
    | some name => writeCsr name value
    | none => raiseIllegalInstruction

/-! ## Traps and interrupts -/

/-- `PendingInterrupts`. -/
structure PendingInterrupts where
  targetMode : PrivilegeLevel
  pending : BitVec 32
  deriving DecidableEq

/-- `compute_pending_interrupts`. -/
def computePendingInterrupts (state : State P) : PendingInterrupts :=
  let hart := state.hart
  let csrs := hart.csrs
  let pending := csrs.mie &&& state.board.mip
  let mPending := pending &&& ~~~csrs.mideleg
  let delegated := pending &&& csrs.mideleg
  let sPending := delegated &&& ~~~csrs.sideleg
  let uPending := delegated &&& csrs.sideleg
  if pending = 0 then ⟨noneMode, 0⟩
  else if mPending ≠ 0 ∧ (hart.prv < machineMode ∨
      (hart.prv = machineMode ∧ csrs.mstatus.getLsbD Mstatus.mie.lo)) then
    ⟨machineMode, mPending⟩
  else if sPending ≠ 0 ∧ (hart.prv < supervisorMode ∨
      (hart.prv = supervisorMode ∧ csrs.mstatus.getLsbD Mstatus.sie.lo)) then
    ⟨supervisorMode, sPending⟩
  else if uPending ≠ 0 ∧ hart.prv = userMode ∧ csrs.mstatus.getLsbD Mstatus.uie.lo then
    ⟨userMode, uPending⟩
  else ⟨noneMode, 0⟩

/-- Record the cause of a trap or interrupt. -/
def cause (reg code interrupt : BitVec 32) : BitVec 32 :=
  Mcause.exceptionCode.set (Mcause.interrupt.set reg interrupt) code

/-- `boost::lexical_cast<uint32_t>` of an unsigned number. -/
def lexicalCast (value : Nat) : IssM P (BitVec 32) := do
  Exec.require (value < 2 ^ 32) .badLexicalCast
  pure (BitVec.ofNat 32 value)

/-- `prepare_trap`. The cause register is written before the cast of `mtval` can throw. -/
def prepareTrap (trap : SimulationTrap) : IssM P PrivilegeLevel := do
  modifyHart fun hart => { hart with pc := hart.lastPc }
  let hart ← getHart
  let excBit := 1#32 <<< trap.reason.code
  let code := trap.reason.code
  if hart.prv = machineMode ∨ excBit &&& hart.csrs.medeleg = 0 then do
    modifyCsrs fun csrs => { csrs with mcause := cause csrs.mcause code 0 }
    let mtval ← lexicalCast trap.mtval
    modifyCsrs fun csrs => { csrs with mtval := mtval }
    pure machineMode
  else if hart.prv = supervisorMode ∨ excBit &&& hart.csrs.sedeleg = 0 then do
    modifyCsrs fun csrs => { csrs with scause := cause csrs.scause code 0 }
    let stval ← lexicalCast trap.mtval
    modifyCsrs fun csrs => { csrs with stval := stval }
    pure supervisorMode
  else do
    Exec.require (hart.prv = userMode) (.assertion
      "prv == UserMode && (exc_bit & csrs.medeleg.reg) && (exc_bit & csrs.sedeleg.reg)")
    modifyCsrs fun csrs => { csrs with ucause := cause csrs.ucause code 0 }
    let utval ← lexicalCast trap.mtval
    modifyCsrs fun csrs => { csrs with utval := utval }
    pure userMode

/-- The first of the nine interrupts, in the order `prepare_interrupt` tests them, that is in
the pending set. -/
def highestPriority (pending : BitVec 32) : Option Interrupt :=
  Interrupt.byPriority.find? fun interrupt => pending.getLsbD interrupt.code

/-- `std::runtime_error("unknown privilege level " + …)`. -/
def unknownPrivilegeLevel (level : PrivilegeLevel) : Fault :=
  .runtimeError ("unknown privilege level " ++ toString level.toNat)

/-- `prepare_interrupt`. -/
def prepareInterrupt (interrupts : PendingInterrupts) : IssM P Unit :=
  match highestPriority interrupts.pending with
  | none => Exec.throw (.runtimeError "some pending interrupt must be available here")
  | some interrupt =>
      let code := BitVec.ofNat 32 interrupt.code
      if interrupts.targetMode = machineMode then
        modifyCsrs fun csrs => { csrs with mcause := cause csrs.mcause code 1 }
      else if interrupts.targetMode = supervisorMode then
        modifyCsrs fun csrs => { csrs with scause := cause csrs.scause code 1 }
      else if interrupts.targetMode = userMode then
        modifyCsrs fun csrs => { csrs with ucause := cause csrs.ucause code 1 }
      else Exec.throw (unknownPrivilegeLevel interrupts.targetMode)

/-- `release_lr_sc_reservation`. -/
def releaseLrScReservation : IssM P Unit := do
  modifyHart fun hart => { hart with lrScCounter := 0 }
  memory fun core => Board.unlock core.hartId

/-- The address of a handler: the base of `xtvec`, and behind it a table indexed by the cause
of an interrupt in vectored mode. -/
def handlerAddress (xtvec xcause : BitVec 32) : BitVec 32 :=
  if Mcause.interrupt.get xcause = 1 ∧ Mtvec.mode.get xtvec = Mtvec.vectored then
    Mtvec.getBaseAddress xtvec + 4 * Mcause.exceptionCode.get xcause
  else Mtvec.getBaseAddress xtvec

/-- `switch_to_trap_handler`. The assertions on `prv` test it after it was set to the target
mode and cannot fail. -/
def switchToTrapHandler (targetMode : PrivilegeLevel) : IssM P Unit := do
  releaseLrScReservation
  let before ← getHart
  let pp := before.prv
  modifyHart fun hart => { hart with prv := targetMode }
  if targetMode = machineMode then
    modifyHart fun hart =>
      let mstatus := Mstatus.mpie.set hart.csrs.mstatus (Mstatus.mie.get hart.csrs.mstatus)
      let csrs := { hart.csrs with
        mepc := hart.pc
        mstatus := Mstatus.mpp.set (Mstatus.mie.set mstatus 0) pp }
      { hart with csrs := csrs, pc := handlerAddress csrs.mtvec csrs.mcause }
  else if targetMode = supervisorMode then
    modifyHart fun hart =>
      let mstatus := Mstatus.spie.set hart.csrs.mstatus (Mstatus.sie.get hart.csrs.mstatus)
      let csrs := { hart.csrs with
        sepc := hart.pc
        mstatus := Mstatus.spp.set (Mstatus.sie.set mstatus 0) pp }
      { hart with csrs := csrs, pc := handlerAddress csrs.stvec csrs.scause }
  else if targetMode = userMode then
    modifyHart fun hart =>
      let mstatus := Mstatus.upie.set hart.csrs.mstatus (Mstatus.uie.get hart.csrs.mstatus)
      let csrs := { hart.csrs with
        uepc := hart.pc
        mstatus := Mstatus.uie.set mstatus 0 }
      { hart with csrs := csrs, pc := handlerAddress csrs.utvec csrs.ucause }
  else Exec.throw (unknownPrivilegeLevel targetMode)

/-- `return_from_trap_handler`. -/
def returnFromTrapHandler (returnMode : PrivilegeLevel) : IssM P Unit :=
  if returnMode = machineMode then
    modifyHart fun hart =>
      let mstatus := hart.csrs.mstatus
      let restored := Mstatus.mpie.set (Mstatus.mie.set mstatus (Mstatus.mpie.get mstatus)) 1
      let previous := if hart.csrs.misa.has Misa.U then userMode else machineMode
      { hart with
        prv := Mstatus.mpp.get mstatus
        pc := hart.csrs.mepc
        csrs := { hart.csrs with mstatus := Mstatus.mpp.set restored previous } }
  else if returnMode = supervisorMode then
    modifyHart fun hart =>
      let mstatus := hart.csrs.mstatus
      let restored := Mstatus.spie.set (Mstatus.sie.set mstatus (Mstatus.spie.get mstatus)) 1
      let previous := if hart.csrs.misa.has Misa.U then userMode else supervisorMode
      { hart with
        prv := Mstatus.spp.get mstatus
        pc := hart.csrs.sepc
        csrs := { hart.csrs with mstatus := Mstatus.spp.set restored previous } }
  else if returnMode = userMode then
    modifyHart fun hart =>
      let mstatus := hart.csrs.mstatus
      { hart with
        prv := userMode
        pc := hart.csrs.uepc
        csrs := { hart.csrs with
          mstatus := Mstatus.upie.set (Mstatus.uie.set mstatus (Mstatus.upie.get mstatus)) 1 } }
  else Exec.throw (unknownPrivilegeLevel returnMode)

end Iss

end SymexVP
