import SymexVP.Hart

/-!
# Executing instructions

`ISS::exec_step`, `ISS::run_step` and the loop around them. Each case of the switch
over opcodes is written with the operation it applies; the cases that share a shape
share a definition, with the immediate, the operation or the width as parameters.

The memory and the devices see the concrete input of the run through `input`, the
assignment of the symbolic variables.
-/

namespace SymexVP.Iss

open Opcode

variable {P : Platform} (input : P.clover.terms.Assignment)

/-! ## Building blocks -/

/-- `regs.write(RD, value)` for a value computed from the registers. -/
def compute (value : Hart P.clover.terms → Concolic P.clover.terms) : IssM P Unit :=
  modifyHart fun hart => hart.write hart.rd (value hart)

/-- A 32-bit operation on `rs1` and a second operand. -/
def arithmetic (operation : BinaryOp)
    (operand : Hart P.clover.terms → ConcolicValue P.clover.terms 32) : IssM P Unit :=
  compute fun hart => ⟨32, P.clover.binary operation hart.rs1Value (operand hart)⟩

/-- A comparison of `rs1` with a second operand; the single bit is written to `rd`. -/
def comparison (operation : CompareOp)
    (operand : Hart P.clover.terms → ConcolicValue P.clover.terms 32) : IssM P Unit :=
  compute fun hart => ⟨1, P.clover.compare operation hart.rs1Value (operand hart)⟩

/-- `solver.getValue` of the concrete part of a value. -/
def getValue {width : Nat} (use : Use) (value : ConcolicValue P.clover.terms width) :
    IssM P (BitVec width) := do
  Exec.emit (.concretized use value.isSymbolic)
  pure value.concrete

/-- `trap_check_pc_alignment`. -/
def trapCheckPcAlignment : IssM P Unit := do
  let hart ← getHart
  Exec.require (hart.pc &&& 1 = 0) (.assertion "!(pc & 0x1)")
  Exec.when (hart.pc &&& 3 ≠ 0 ∧ ¬hart.csrs.misa.has Misa.C)
    (raiseTrap .instrAddrMisaligned hart.pc.toNat)

/-- Set the program counter and check its alignment. -/
def jumpTo (target : BitVec 32) : IssM P Unit := do
  modifyHart fun hart => { hart with pc := target }
  trapCheckPcAlignment

/-- `track_and_trace_branch`. -/
def trackAndTraceBranch (cond : Bool) (expr : ConcolicValue P.clover.terms 1) : IssM P Unit := do
  let hart ← getHart
  match expr.symbolic with
  | some expression => Exec.emit (.branch cond expression hart.lastPc)
  | none => pure ()

/-- `trap_check_addr_alignment`. -/
def trapCheckAddrAlignment (alignment : Nat) (isLoad : Bool)
    (addr : ConcolicValue P.clover.terms 32) : IssM P Unit := do
  let caddr ← getValue .address addr
  Exec.when (caddr.toNat % alignment ≠ 0)
    (raiseTrap (if isLoad then .loadAddrMisaligned else .storeAmoAddrMisaligned) caddr.toNat)

/-- Byte accesses are not checked. -/
def unchecked (_ : ConcolicValue P.clover.terms 32) : IssM P Unit := pure ()

/-! ## Control transfer -/

def jal : IssM P Unit := do
  let hart ← getHart
  jumpTo (hart.lastPc + hart.instr.jImm)
  modifyHart fun after => after.write hart.rd ⟨32, .BVC hart.pc⟩

def jalr : IssM P Unit := do
  let hart ← getHart
  let rs1 ← getValue .jumpBase hart.rs1Value
  jumpTo ((rs1 + hart.instr.iImm) &&& ~~~1)
  modifyHart fun after => after.write hart.rd ⟨32, .BVC hart.pc⟩

/-- `BEQ` to `BGEU`: the branch is recorded after it was taken. -/
def branch (operation : CompareOp) : IssM P Unit := do
  let hart ← getHart
  let res := P.clover.compare operation hart.rs1Value hart.rs2Value
  let cond := res.concrete == 1
  Exec.when cond (jumpTo (hart.lastPc + hart.instr.bImm))
  trackAndTraceBranch cond res

/-! ## Loads and stores -/

/-- `SB`, `SH` and `SW`. -/
def store (check : ConcolicValue P.clover.terms 32 → IssM P Unit) (numBytes : Nat) :
    IssM P Unit := do
  let hart ← getHart
  let addr := P.clover.binary .add hart.rs1Value hart.sImm
  check addr
  memory fun core => MemoryInterface.storeBytes (bus core input) core addr hart.rs2Value numBytes

/-- `LB`, `LH` and `LW`. -/
def load (check : ConcolicValue P.clover.terms 32 → IssM P Unit) (numBytes : Nat) :
    IssM P Unit := do
  let hart ← getHart
  let addr := P.clover.binary .add hart.rs1Value hart.iImm
  check addr
  let value ← memory fun core => MemoryInterface.loadSigned (bus core input) core addr numBytes
  modifyHart fun after => after.write hart.rd ⟨32, value⟩

/-- `LBU` and `LHU`. -/
def loadUnsigned (check : ConcolicValue P.clover.terms 32 → IssM P Unit) (numBytes : Nat) :
    IssM P Unit := do
  let hart ← getHart
  let addr := P.clover.binary .add hart.rs1Value hart.iImm
  check addr
  let value ← memory fun core => MemoryInterface.loadUnsigned (bus core input) core addr numBytes
  modifyHart fun after => after.write hart.rd value

/-! ## System instructions -/

def ecall : IssM P Unit := do
  let hart ← getHart
  if hart.prv = machineMode then raiseTrap .ecallMMode hart.lastPc.toNat
  else if hart.prv = supervisorMode then raiseTrap .ecallSMode hart.lastPc.toNat
  else if hart.prv = userMode then raiseTrap .ecallUMode hart.lastPc.toNat
  else Exec.throw (unknownPrivilegeLevel hart.prv)

def ebreak : IssM P Unit := modifyHart fun hart => { hart with status := .hitBreakpoint }

/-- `CSRRW` and `CSRRWI`: the register is read only if `rd` is not `x0`. -/
def csrWrite (source : Hart P.clover.terms → IssM P (BitVec 32)) : IssM P Unit := do
  let hart ← getHart
  let addr := hart.instr.csr
  let invalid ← isInvalidCsrAccess addr true
  if invalid then raiseIllegalInstruction
  else do
    Exec.when (hart.rd ≠ 0) do
      let value ← getCsrValue addr
      modifyHart fun after => after.write hart.rd ⟨32, .BVC value⟩
    let value ← source hart
    setCsrValue addr value

/-- `CSRRS`, `CSRRC` and their immediate forms: the register is always read, and written only
if the operand's field is not zero. `prepare` is what happens before the read. -/
def csrModify {α : Type} (writes : Hart P.clover.terms → Bool)
    (prepare : Hart P.clover.terms → IssM P α)
    (update : α → BitVec 32 → IssM P (BitVec 32)) : IssM P Unit := do
  let hart ← getHart
  let addr := hart.instr.csr
  let invalid ← isInvalidCsrAccess addr (writes hart)
  if invalid then raiseIllegalInstruction
  else do
    let operand ← prepare hart
    let csrVal ← getCsrValue addr
    Exec.when (hart.rd ≠ 0) (modifyHart fun after => after.write hart.rd ⟨32, .BVC csrVal⟩)
    Exec.when (writes hart) do
      let value ← update operand csrVal
      setCsrValue addr value

def csrrw : IssM P Unit := csrWrite fun hart => getValue .csrSource hart.rs1Value

def csrrs : IssM P Unit :=
  csrModify (fun hart => hart.rs1 != 0) (fun hart => pure hart.rs1Value) fun rs1 csrVal => do
    let value ← getValue .csrSource rs1
    pure (csrVal ||| value)

/-- Unlike `CSRRS`, it takes the operand's concrete part before it reads the register. -/
def csrrc : IssM P Unit :=
  csrModify (fun hart => hart.rs1 != 0) (fun hart => getValue .csrSource hart.rs1Value)
    fun rs1 csrVal => pure (csrVal &&& ~~~rs1)

def csrrwi : IssM P Unit := csrWrite fun hart => pure hart.instr.zimm

def csrrsi : IssM P Unit :=
  csrModify (fun hart => hart.instr.zimm != 0) (fun hart => pure hart.instr.zimm)
    fun zimm csrVal => pure (csrVal ||| zimm)

def csrrci : IssM P Unit :=
  csrModify (fun hart => hart.instr.zimm != 0) (fun hart => pure hart.instr.zimm)
    fun zimm csrVal => pure (csrVal &&& ~~~zimm)

/-- `WFI`. -/
def wfi : IssM P Unit := do
  releaseLrScReservation
  let state ← Exec.get
  let hart := state.hart
  if hart.sMode ∧ hart.csrs.mstatus.getLsbD Mstatus.tw.lo then raiseIllegalInstruction
  else if hart.uMode ∧ hart.csrs.misa.has Misa.S then raiseIllegalInstruction
  else if ¬hart.ignoreWfi ∧ hart.csrs.mie &&& state.board.mip = 0 then
    memory fun _ => Board.waitFor P.world.waitWfi
  else pure ()

/-! ## Multiplication and division -/

/-- `MUL`, `MULH`, `MULHU` and `MULHSU`: half of the product of the extended operands. -/
def multiply (extend₁ extend₂ : ConcolicValue P.clover.terms 32 → ConcolicValue P.clover.terms 64)
    (offset : Nat) : IssM P Unit := do
  requireIsa Misa.M
  compute fun hart =>
    ⟨32, P.clover.extract offset 32
      (P.clover.binary .mul (extend₁ hart.rs1Value) (extend₂ hart.rs2Value))⟩

/-- `DIV`, `DIVU`, `REM` and `REMU`: the test of the divisor is recorded as a branch. -/
def divide (onZero : Hart P.clover.terms → Hart P.clover.terms)
    (result : Hart P.clover.terms → ConcolicValue P.clover.terms 32) : IssM P Unit := do
  requireIsa Misa.M
  let hart ← getHart
  let exprZero := P.clover.compare .eq hart.rs2Value (.BVC 0)
  let condIsRs2Zero := exprZero.concrete == 1
  (if condIsRs2Zero then modifyHart onZero else compute fun hart => ⟨32, result hart⟩)
  trackAndTraceBranch condIsRs2Zero exprZero

/-- `regs.write(RD, REG_UINT32_MAX)`. -/
def allOnes (hart : Hart P.clover.terms) : Hart P.clover.terms :=
  hart.write hart.rd ⟨32, .BVC 0xffffffff⟩

/-- `regs.write(RD, rs1)`: `rd` now points to the object of `rs1`. -/
def copyRs1 (hart : Hart P.clover.terms) : Hart P.clover.terms :=
  hart.assign hart.rd (hart.regs hart.rs1)

/-- Whether the signed division overflows: the least number divided by minus one. -/
def overflow (hart : Hart P.clover.terms) : ConcolicValue P.clover.terms 1 :=
  P.clover.binary .band (P.clover.compare .eq hart.rs1Value (.BVC 0x80000000))
    (P.clover.compare .eq hart.rs2Value (.BVC 0xffffffff))

def div : IssM P Unit :=
  divide allOnes fun hart =>
    P.clover.select (overflow hart) hart.rs1Value
      (P.clover.binary .sdiv hart.rs1Value hart.rs2Value)

def divu : IssM P Unit :=
  divide allOnes fun hart => P.clover.binary .udiv hart.rs1Value hart.rs2Value

def rem : IssM P Unit :=
  divide copyRs1 fun hart =>
    P.clover.select (overflow hart) (.BVC 0)
      (P.clover.binary .srem hart.rs1Value hart.rs2Value)

def remu : IssM P Unit :=
  divide copyRs1 fun hart => P.clover.binary .urem hart.rs1Value hart.rs2Value

/-! ## Atomic instructions -/

def lrW : IssM P Unit := do
  requireIsa Misa.A
  let hart ← getHart
  trapCheckAddrAlignment 4 true hart.rs1Value
  let value ← memory fun core =>
    MemoryInterface.atomicLoadReservedWord (bus core input) core (hart.regs hart.rs1).object
      hart.rs1Value
  modifyHart fun after => after.write hart.rd ⟨32, value⟩
  modifyHart fun after =>
    { after with lrScCounter := if after.lrScCounter = 0 then 17 else after.lrScCounter }

/-- The result register is set to failure first, in case the store traps. -/
def scW : IssM P Unit := do
  requireIsa Misa.A
  let hart ← getHart
  trapCheckAddrAlignment 4 false hart.rs1Value
  modifyHart fun after => after.write hart.rd ⟨32, .BVC 1⟩
  let stored ← memory fun core =>
    MemoryInterface.atomicStoreConditionalWord (bus core input) core (hart.regs hart.rs1).object
      hart.rs1Value hart.rs2Value
  modifyHart fun after => after.write hart.rd ⟨32, .BVC (if stored then 0 else 1)⟩
  modifyHart fun after => { after with lrScCounter := 0 }

/-- `execute_amo`; a load access fault is reported as a store access fault. -/
def executeAmo (operation : ConcolicValue P.clover.terms 32 → ConcolicValue P.clover.terms 32 →
    ConcolicValue P.clover.terms 32) : IssM P Unit := do
  requireIsa Misa.A
  let hart ← getHart
  trapCheckAddrAlignment 4 false hart.rs1Value
  let data ← Exec.tryCatch
    (memory fun core => MemoryInterface.atomicLoadWord (bus core input) core hart.rs1Value)
    fun fault =>
      match fault with
      | .trap ⟨.loadAccessFault, mtval⟩ => raiseTrap .storeAmoAccessFault mtval
      | other => Exec.throw other
  let value := operation data hart.rs2Value
  memory fun core => MemoryInterface.atomicStoreWord (bus core input) core hart.rs1Value value
  modifyHart fun after => after.write hart.rd ⟨32, data⟩

/-- The minimum and maximum of the atomic instructions: a comparison chooses an operand. -/
def chooseByComparison (operation : CompareOp) (whenTrue whenFalse : Bool)
    (a b : ConcolicValue P.clover.terms 32) : ConcolicValue P.clover.terms 32 :=
  P.clover.select (P.clover.compare operation a b) (if whenTrue then a else b)
    (if whenFalse then a else b)

/-! ## The switch over opcodes -/

/-- The switch of `exec_step`. -/
def execute : Mapping → IssM P Unit
  | .undefined => raiseIllegalInstruction
  | .addi => arithmetic .add Hart.iImm
  | .slti => comparison .slt Hart.iImm
  | .sltiu => comparison .ult Hart.iImm
  | .xori => arithmetic .bxor Hart.iImm
  | .ori => arithmetic .bor Hart.iImm
  | .andi => arithmetic .band Hart.iImm
  | .add => arithmetic .add Hart.rs2Value
  | .sub => arithmetic .sub Hart.rs2Value
  | .sll => arithmetic .lshl Hart.rs2Shamt
  | .slt => comparison .slt Hart.rs2Value
  | .sltu => comparison .ult Hart.rs2Value
  | .srl => arithmetic .lshr Hart.rs2Shamt
  | .sra => arithmetic .ashr Hart.rs2Shamt
  | .xor => arithmetic .bxor Hart.rs2Value
  | .or => arithmetic .bor Hart.rs2Value
  | .and => arithmetic .band Hart.rs2Value
  | .slli => arithmetic .lshl Hart.shamt
  | .srli => arithmetic .lshr Hart.shamt
  | .srai => arithmetic .ashr Hart.shamt
  | .lui => compute fun hart => ⟨32, hart.uImm⟩
  | .auipc => compute fun hart => ⟨32, P.clover.binary .add (.BVC hart.lastPc) hart.uImm⟩
  | .jal => jal
  | .jalr => jalr
  | .sb => store input unchecked 1
  | .sh => store input (trapCheckAddrAlignment 2 false) 2
  | .sw => store input (trapCheckAddrAlignment 4 false) 4
  | .lb => load input unchecked 1
  | .lh => load input (trapCheckAddrAlignment 2 true) 2
  | .lw => load input (trapCheckAddrAlignment 4 true) 4
  | .lbu => loadUnsigned input unchecked 1
  | .lhu => loadUnsigned input (trapCheckAddrAlignment 2 true) 2
  | .beq => branch .eq
  | .bne => branch .ne
  | .blt => branch .slt
  | .bge => branch .sge
  | .bltu => branch .ult
  | .bgeu => branch .uge
  | .fence | .fenceI => pure ()
  | .ecall => ecall
  | .ebreak => ebreak
  | .csrrw => csrrw
  | .csrrs => csrrs
  | .csrrc => csrrc
  | .csrrwi => csrrwi
  | .csrrsi => csrrsi
  | .csrrci => csrrci
  | .mul => multiply (P.clover.sext 64) (P.clover.sext 64) 0
  | .mulh => multiply (P.clover.sext 64) (P.clover.sext 64) 32
  | .mulhu => multiply (P.clover.zext 64) (P.clover.zext 64) 32
  | .mulhsu => multiply (P.clover.sext 64) (P.clover.zext 64) 32
  | .div => div
  | .divu => divu
  | .rem => rem
  | .remu => remu
  | .lrW => lrW input
  | .scW => scW input
  | .amoswapW => executeAmo input fun _ b => b
  | .amoaddW => executeAmo input fun a b => P.clover.binary .add a b
  | .amoxorW => executeAmo input fun a b => P.clover.binary .bxor a b
  | .amoandW => executeAmo input fun a b => P.clover.binary .band a b
  | .amoorW => executeAmo input fun a b => P.clover.binary .bor a b
  | .amominW => executeAmo input (chooseByComparison .sge false true)
  | .amominuW => executeAmo input (chooseByComparison .uge false true)
  | .amomaxW => executeAmo input (chooseByComparison .sge true false)
  | .amomaxuW => executeAmo input (chooseByComparison .uge true false)
  | .wfi => wfi
  | .mret => returnFromTrapHandler machineMode
  | _ => Exec.throw (.runtimeError "unknown opcode")

/-! ## Steps -/

/-- The guarded load of an instruction word: a trap leaves the hart without a decoded
instruction. -/
def loadWord : IssM P Unit :=
  Exec.tryCatch
    (do
      let hart ← getHart
      let memWord ← memory fun core => MemoryInterface.loadInstr (bus core input) core hart.pc
      modifyHart fun hart => { hart with instr := memWord })
    fun fault =>
      match fault with
      | .trap trap => do
          modifyHart fun hart => { hart with op := .undefined, instr := 0 }
          Exec.throw (.trap trap)
      | other => Exec.throw other

/-- Decode the fetched word and move the program counter past it. A compressed instruction is
replaced by its expansion. -/
def decode : IssM P Unit := do
  let hart ← getHart
  if hart.instr.isCompressed then
    match hart.instr.decodeAndExpandCompressed .rv32 with
    | .error message => Exec.throw (.runtimeError message)
    | .ok (op, instr) => do
        modifyHart fun hart => { hart with op := op, instr := instr, pc := hart.pc + 2 }
        Exec.when (op ≠ .undefined) (requireIsa Misa.C)
  else
    modifyHart fun hart => { hart with op := hart.instr.decodeNormal .rv32, pc := hart.pc + 4 }

/-- The part of `exec_step` up to the decoding. -/
def fetch : IssM P Unit := do
  let hart ← getHart
  Exec.require (hart.pc &&& ~~~hart.pcAlignmentMask = 0) (.assertion "misaligned instruction")
  loadWord input

/-- `exec_step`. -/
def execStep : IssM P Unit := do
  fetch input
  decode
  let decoded ← getHart
  execute input decoded.op

/-- `instr_cycles`, in nanoseconds. -/
def instrCycles : Mapping → Nat
  | .lb | .lbu | .lh | .lhu | .lw | .sb | .sh | .sw => 40
  | .mul | .mulh | .mulhu | .mulhsu | .div | .divu | .rem | .remu => 80
  | _ => 10

/-- `performance_and_sync_update`; time is only synchronised outside of a reservation. -/
def performanceAndSyncUpdate (executedOp : Mapping) : IssM P Unit := do
  modifyCsrs fun csrs =>
    if CounterBits.IR.get csrs.mcountinhibit = 0 then { csrs with instret := csrs.instret + 1 }
    else csrs
  let hart ← getHart
  Exec.when (hart.lrScCounter ≠ 0) do
    modifyHart fun hart => { hart with lrScCounter := hart.lrScCounter - 1 }
    let counted ← getHart
    Exec.require (0 ≤ counted.lrScCounter) (.assertion "lr_sc_counter >= 0")
    Exec.when (counted.lrScCounter = 0) releaseLrScReservation
  let newCycles := instrCycles executedOp
  modifyHart fun hart =>
    if CounterBits.CY.get hart.csrs.mcountinhibit = 0 then
      { hart with cycleCounter := hart.cycleCounter + newCycles }
    else hart
  let hart ← getHart
  memory fun _ => do
    Board.inc newCycles
    let board ← Exec.get
    Exec.when (P.world.needSync board.world board.localTime ∧ hart.lrScCounter = 0)
      Board.synchronise

/-- What a step did besides executing an instruction. -/
inductive Taken
  | nothing
  | breakpoint
  | trap (mode : PrivilegeLevel)
  | interrupt (mode : PrivilegeLevel)
  deriving DecidableEq

/-- Execute one instruction, then take a pending interrupt. -/
def stepAndInterrupt : IssM P Taken := do
  execStep input
  let state ← Exec.get
  let pending := computePendingInterrupts state
  if pending.targetMode ≠ noneMode then do
    prepareInterrupt pending
    Exec.emit (.interrupt pending.targetMode)
    switchToTrapHandler pending.targetMode
    pure (.interrupt pending.targetMode)
  else pure .nothing

/-- The handler of `SimulationTrap` in `run_step`; other exceptions pass. -/
def handleFault (fault : Fault) : IssM P Taken :=
  match fault with
  | .trap trap => do
      let targetMode ← prepareTrap trap
      switchToTrapHandler targetMode
      pure (.trap targetMode)
  | other => Exec.throw other

/-- What `run_step` does after the instruction: `x0` is cleared, a requested exit ends the run,
and the counters advance. -/
def finishStep : IssM P Unit := do
  modifyHart fun hart => hart.write 0 ⟨32, .BVC 0⟩
  let state ← Exec.get
  Exec.when state.board.shallExit (modifyHart fun hart => { hart with status := .terminated })
  let hart ← getHart
  performanceAndSyncUpdate hart.op

/-- `run_step`. -/
def runStep : IssM P Taken := do
  let hart ← getHart
  Exec.require ((hart.regs 0).value.concrete = 0) (.assertion "regs.read(0) == 0")
  if hart.debugMode ∧ hart.pc ∈ hart.breakpoints then do
    modifyHart fun hart => { hart with status := .hitBreakpoint }
    pure .breakpoint
  else do
    modifyHart fun hart => { hart with lastPc := hart.pc }
    let taken ← Exec.tryCatch (stepAndInterrupt input) handleFault
    finishStep
    pure taken

/-- `run`, for at most `fuel` steps; the program counters of the executed instructions. -/
def run : (fuel : Nat) → IssM P (List (BitVec 32))
  | 0 => pure []
  | fuel + 1 => do
      let _ ← runStep input
      let hart ← getHart
      if hart.status = .runnable then do
        let rest ← run fuel
        pure (hart.lastPc :: rest)
      else do
        memory fun _ => Board.synchronise
        pure [hart.lastPc]

/-! ## Reset -/

/-- The hart after its constructor and `init`. -/
def initialHart (misa : Misa) (hartId entrypoint sp : BitVec 32) : Hart P.clover.terms :=
  { regs := fun index =>
      if index = 2 then ⟨32, .BVC sp⟩ else ⟨index.toNat, .BVC 0⟩
    nextObject := 33
    pc := entrypoint
    lastPc := 0
    csrs := CsrTable.initial misa hartId
    prv := machineMode
    lrScCounter := 0
    instr := 0
    op := .undefined
    status := .runnable
    debugMode := false
    breakpoints := []
    ignoreWfi := false
    cycleCounter := 0 }

/-- The board before the first instruction: a loaded memory, the bytes the UART was given, and
devices in their initial state. -/
def initialBoard (memory : P.clover.Memory) (rxFifo : List (ConcolicValue P.clover.terms 8))
    (world : P.world.State) : Board P :=
  { memory := memory
    ctrl := ⟨0, 0, 0⟩
    sensor := ⟨0, 0, 0⟩
    uart := ⟨0, 0, 0, 0, 0, 0, 0, rxFifo⟩
    lock := none
    lrAddr := none
    tlb := fun _ _ _ => ⟨-1, -1⟩
    mip := 0
    shallExit := false
    localTime := 0
    world := world }

/-- A state a simulation can start in: any base instruction set, hart number, entry point,
stack pointer, loaded memory, input of the UART and outside world. -/
inductive Reset : State P → Prop
  | intro (misa : Misa) (hartId entrypoint sp : BitVec 32) (memory : P.clover.Memory)
      (rxFifo : List (ConcolicValue P.clover.terms 8)) (world : P.world.State) :
      Reset ⟨initialHart misa hartId entrypoint sp, initialBoard memory rxFifo world⟩

/-- A state some run from reset passes through between two steps. -/
def Reachable (state : State P) : Prop :=
  ∃ start, Reset start ∧ Exec.Reaches (runStep input) start state

/-! ## A board to try programs on

The platform of the simulator on the reference concolic library, with a CLINT that
answers every access with zeros and never interrupts. -/

/-- A world in which nothing happens. -/
def idleWorld : World where
  State := Unit
  needSync _ _ := false
  sync world _ := (world, [])
  waitWfi _ := none
  waitUnlocked _ := none
  updateAndGetMtime world := (0, world)
  notifyUart world _ _ := world
  transport _ world _ _ bytes delay := some ((.ok, bytes.map fun _ => 0, delay), world, [])

def tryoutPlatform : Platform := symexPlatform Clover.reference idleWorld 2

/-- A memory that holds the given words from address zero on, and zeros behind them. -/
def programMemory (words : List (BitVec 32)) : tryoutPlatform.clover.Memory :=
  fun address => .BVC (Clover.byteOf (address % 4) (words.getD (address / 4) 0))

/-- The state in which a program at address zero starts. -/
def programStart (words : List (BitVec 32)) : State tryoutPlatform :=
  ⟨initialHart ⟨false⟩ 0 0 0, initialBoard (programMemory words) [] ()⟩

/-- Every symbolic variable is zero. -/
def zeroInput : tryoutPlatform.clover.terms.Assignment := fun _ => 0

theorem reset_programStart (words : List (BitVec 32)) : Reset (programStart words) :=
  .intro _ _ _ _ _ _ _

theorem reachable_programStart (words : List (BitVec 32)) :
    Reachable zeroInput (programStart words) :=
  ⟨_, reset_programStart words, .start⟩

end SymexVP.Iss
