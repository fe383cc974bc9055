import SymexVP.BitFields

/-!
# Privilege levels, traps and the control and status registers

The registers of `csr.h` with their field layouts, write masks and addresses. A
register number is first looked up in the table of named registers; what a read
or write then does is decided by the simulator. The interrupt-pending register is
not part of the table kept here, because devices write it through the interrupt
interfaces; it is part of the board the hart is connected to.
-/

namespace SymexVP

open BitFields

/-- `typedef uint32_t PrivilegeLevel`. -/
abbrev PrivilegeLevel := BitVec 32

def machineMode : PrivilegeLevel := 0b11
def hypervisorMode : PrivilegeLevel := 0b10
def supervisorMode : PrivilegeLevel := 0b01
def userMode : PrivilegeLevel := 0b00
/-- `-1`, an invalid sentinel. -/
def noneMode : PrivilegeLevel := 0xffffffff

/-- `is_valid_privilege_level`; no caller uses it. -/
def isValidPrivilegeLevel (mode : PrivilegeLevel) : Bool :=
  mode == machineMode || mode == supervisorMode || mode == userMode

/-- The synchronous exceptions of `ExceptionCode`. -/
inductive ExceptionCode
  | instrAddrMisaligned
  | instrAccessFault
  | illegalInstr
  | breakpoint
  | loadAddrMisaligned
  | loadAccessFault
  | storeAmoAddrMisaligned
  | storeAmoAccessFault
  | ecallUMode
  | ecallSMode
  | ecallMMode
  | instrPageFault
  | loadPageFault
  | storeAmoPageFault
  deriving DecidableEq, Repr

def ExceptionCode.code : ExceptionCode → BitVec 32
  | .instrAddrMisaligned => 0
  | .instrAccessFault => 1
  | .illegalInstr => 2
  | .breakpoint => 3
  | .loadAddrMisaligned => 4
  | .loadAccessFault => 5
  | .storeAmoAddrMisaligned => 6
  | .storeAmoAccessFault => 7
  | .ecallUMode => 8
  | .ecallSMode => 9
  | .ecallMMode => 11
  | .instrPageFault => 12
  | .loadPageFault => 13
  | .storeAmoPageFault => 15

/-- The interrupts of `ExceptionCode`, in the order `prepare_interrupt` tests them. -/
inductive Interrupt
  | machineExternal
  | machineSoftware
  | machineTimer
  | supervisorExternal
  | supervisorSoftware
  | supervisorTimer
  | userExternal
  | userSoftware
  | userTimer
  deriving DecidableEq, Repr

/-- The exception code of an interrupt; it is also its bit in `mip` and `mie`. -/
def Interrupt.code : Interrupt → Nat
  | .machineExternal => 11
  | .machineSoftware => 3
  | .machineTimer => 7
  | .supervisorExternal => 9
  | .supervisorSoftware => 1
  | .supervisorTimer => 5
  | .userExternal => 8
  | .userSoftware => 0
  | .userTimer => 4

/-- The interrupts by priority, highest first. -/
def Interrupt.byPriority : List Interrupt :=
  [.machineExternal, .machineSoftware, .machineTimer, .supervisorExternal, .supervisorSoftware,
    .supervisorTimer, .userExternal, .userSoftware, .userTimer]

/-- `SimulationTrap`; `mtval` is an `unsigned long`. -/
structure SimulationTrap where
  reason : ExceptionCode
  mtval : Nat
  deriving DecidableEq, Repr

/-! ## Field layouts -/

namespace Mstatus

def uie : BitField 32 := ⟨0, 1, by decide⟩
def sie : BitField 32 := ⟨1, 1, by decide⟩
def mie : BitField 32 := ⟨3, 1, by decide⟩
def upie : BitField 32 := ⟨4, 1, by decide⟩
def spie : BitField 32 := ⟨5, 1, by decide⟩
def mpie : BitField 32 := ⟨7, 1, by decide⟩
def spp : BitField 32 := ⟨8, 1, by decide⟩
def mpp : BitField 32 := ⟨11, 2, by decide⟩
def mprv : BitField 32 := ⟨17, 1, by decide⟩
def sum : BitField 32 := ⟨18, 1, by decide⟩
def mxr : BitField 32 := ⟨19, 1, by decide⟩
def tvm : BitField 32 := ⟨20, 1, by decide⟩
def tw : BitField 32 := ⟨21, 1, by decide⟩
def tsr : BitField 32 := ⟨22, 1, by decide⟩

end Mstatus

namespace Mip

def msip : BitField 32 := ⟨3, 1, by decide⟩
def mtip : BitField 32 := ⟨7, 1, by decide⟩
def ueip : BitField 32 := ⟨8, 1, by decide⟩
def seip : BitField 32 := ⟨9, 1, by decide⟩
def meip : BitField 32 := ⟨11, 1, by decide⟩

end Mip

namespace Mcause

def exceptionCode : BitField 32 := ⟨0, 31, by decide⟩
def interrupt : BitField 32 := ⟨31, 1, by decide⟩

end Mcause

namespace Mtvec

def mode : BitField 32 := ⟨0, 2, by decide⟩
def base : BitField 32 := ⟨2, 30, by decide⟩

def vectored : BitVec 32 := 1

/-- `get_base_address`. -/
def getBaseAddress (reg : BitVec 32) : BitVec 32 := base.get reg <<< 2

end Mtvec

namespace Satp

def ppn : BitField 32 := ⟨0, 22, by decide⟩
def mode : BitField 32 := ⟨31, 1, by decide⟩

end Satp

namespace Fcsr

def fflags : BitField 32 := ⟨0, 5, by decide⟩
def frm : BitField 32 := ⟨5, 3, by decide⟩

end Fcsr

namespace CounterBits

/-- Cycle counter bit of `mcounteren` and `mcountinhibit`. -/
def CY : BitField 32 := ⟨0, 1, by decide⟩
/-- Retired-instruction counter bit. -/
def IR : BitField 32 := ⟨2, 1, by decide⟩

end CounterBits

/-! ## Write masks -/

namespace CsrMask

def MIE : BitVec 32 := 0b101110111011
def SIE : BitVec 32 := 0b001100110011
def UIE : BitVec 32 := 0b000100010001
def MIP_WRITE : BitVec 32 := 0b001100110011
def MIP_READ : BitVec 32 := MIE
def SIP : BitVec 32 := 0b11
def UIP : BitVec 32 := 0b1
def MEDELEG : BitVec 32 := 0b1011101111111111
def MIDELEG : BitVec 32 := MIE
def MTVEC : BitVec 32 := ~~~2
def MCOUNTEREN : BitVec 32 := 0b111
def MCOUNTINHIBIT : BitVec 32 := 0b101
def SEDELEG : BitVec 32 := 0b1011000111111111
def SIDELEG : BitVec 32 := MIDELEG
def MSTATUS : BitVec 32 := 0b10000000011111111111100110111011
def SSTATUS : BitVec 32 := 0b10000000000011011110000100110011
def USTATUS : BitVec 32 := 0b00000000000000000000000000010001
def SATP : BitVec 32 := 0b10000000001111111111111111111111
def FCSR : BitVec 32 := 0b11111111

end CsrMask

/-! ## The instruction set register -/

/-- `csr_misa`. Its only freedom is the base instruction set chosen at construction;
nothing writes it afterwards. -/
structure Misa where
  eBase : Bool
  deriving DecidableEq, Repr

namespace Misa

def A : BitVec 32 := 1
def C : BitVec 32 := 1 <<< 2
def E : BitVec 32 := 1 <<< 4
def F : BitVec 32 := 1 <<< 5
def I : BitVec 32 := 1 <<< 8
def M : BitVec 32 := 1 <<< 12
def N : BitVec 32 := 1 <<< 13
def S : BitVec 32 := 1 <<< 18
def U : BitVec 32 := 1 <<< 20

/-- The extensions of `init`, after `select_E_base_isa` if that was asked for. -/
def extensions (misa : Misa) : BitVec 32 :=
  let initial := I ||| M ||| A ||| F ||| C ||| N ||| U ||| S
  if misa.eBase then (initial &&& ~~~I) ||| E else initial

/-- The register, with `mxl = 1` for RV32. -/
def reg (misa : Misa) : BitVec 32 := misa.extensions ||| (1 <<< 30)

/-- Whether one of the given extensions is present. -/
def has (misa : Misa) (extension : BitVec 32) : Bool := misa.reg &&& extension != 0

@[simp] theorem has_A (misa : Misa) : misa.has A = true := by
  obtain ⟨eBase⟩ := misa
  cases eBase <;> rfl

@[simp] theorem has_C (misa : Misa) : misa.has C = true := by
  obtain ⟨eBase⟩ := misa
  cases eBase <;> rfl

@[simp] theorem has_F (misa : Misa) : misa.has F = true := by
  obtain ⟨eBase⟩ := misa
  cases eBase <;> rfl

@[simp] theorem has_M (misa : Misa) : misa.has M = true := by
  obtain ⟨eBase⟩ := misa
  cases eBase <;> rfl

@[simp] theorem has_S (misa : Misa) : misa.has S = true := by
  obtain ⟨eBase⟩ := misa
  cases eBase <;> rfl

@[simp] theorem has_U (misa : Misa) : misa.has U = true := by
  obtain ⟨eBase⟩ := misa
  cases eBase <;> rfl

end Misa

/-! ## Register numbers -/

/-- The registers `csr.h` gives an address, apart from the hardware performance counters. -/
inductive CsrName
  | cycle | cycleh | time | timeh | instret | instreth
  | mcycle | mcycleh | mtime | mtimeh | minstret | minstreth
  | tselect | tdata1 | tdata2 | tdata3 | dcsr | dpc | dscratch0 | dscratch1
  | mvendorid | marchid | mimpid | mhartid
  | mstatus | misa | medeleg | mideleg | mie | mtvec | mcounteren | mcountinhibit
  | mscratch | mepc | mcause | mtval | mip
  | pmpcfg (index : Fin 4) | pmpaddr (index : Fin 16)
  | sstatus | sedeleg | sideleg | sie | stvec | scounteren
  | sscratch | sepc | scause | stval | sip | satp
  | ustatus | uie | utvec | uscratch | uepc | ucause | utval | uip
  | fflags | frm | fcsr

namespace CsrName

def addr : CsrName → BitVec 32
  | .cycle => 0xC00
  | .cycleh => 0xC80
  | .time => 0xC01
  | .timeh => 0xC81
  | .instret => 0xC02
  | .instreth => 0xC82
  | .mcycle => 0xB00
  | .mcycleh => 0xB80
  | .mtime => 0xB01
  | .mtimeh => 0xB81
  | .minstret => 0xB02
  | .minstreth => 0xB82
  | .tselect => 0x7A0
  | .tdata1 => 0x7A1
  | .tdata2 => 0x7A2
  | .tdata3 => 0x7A3
  | .dcsr => 0x7B0
  | .dpc => 0x7B1
  | .dscratch0 => 0x7B2
  | .dscratch1 => 0x7B3
  | .mvendorid => 0xF11
  | .marchid => 0xF12
  | .mimpid => 0xF13
  | .mhartid => 0xF14
  | .mstatus => 0x300
  | .misa => 0x301
  | .medeleg => 0x302
  | .mideleg => 0x303
  | .mie => 0x304
  | .mtvec => 0x305
  | .mcounteren => 0x306
  | .mcountinhibit => 0x320
  | .mscratch => 0x340
  | .mepc => 0x341
  | .mcause => 0x342
  | .mtval => 0x343
  | .mip => 0x344
  | .pmpcfg index => 0x3A0 + BitVec.ofNat 32 index
  | .pmpaddr index => 0x3B0 + BitVec.ofNat 32 index
  | .sstatus => 0x100
  | .sedeleg => 0x102
  | .sideleg => 0x103
  | .sie => 0x104
  | .stvec => 0x105
  | .scounteren => 0x106
  | .sscratch => 0x140
  | .sepc => 0x141
  | .scause => 0x142
  | .stval => 0x143
  | .sip => 0x144
  | .satp => 0x180
  | .ustatus => 0x000
  | .uie => 0x004
  | .utvec => 0x005
  | .uscratch => 0x040
  | .uepc => 0x041
  | .ucause => 0x042
  | .utval => 0x043
  | .uip => 0x044
  | .fflags => 0x001
  | .frm => 0x002
  | .fcsr => 0x003

/-- The registers that stand alone. -/
def single : List CsrName :=
  [.cycle, .cycleh, .time, .timeh, .instret, .instreth, .mcycle, .mcycleh, .mtime, .mtimeh,
    .minstret, .minstreth, .tselect, .tdata1, .tdata2, .tdata3, .dcsr, .dpc, .dscratch0,
    .dscratch1, .mvendorid, .marchid, .mimpid, .mhartid, .mstatus, .misa, .medeleg, .mideleg,
    .mie, .mtvec, .mcounteren, .mcountinhibit, .mscratch, .mepc, .mcause, .mtval, .mip, .sstatus,
    .sedeleg, .sideleg, .sie, .stvec, .scounteren, .sscratch, .sepc, .scause, .stval, .sip,
    .satp, .ustatus, .uie, .utvec, .uscratch, .uepc, .ucause, .utval, .uip, .fflags, .frm,
    .fcsr]

/-- Every named register. -/
def all : List CsrName :=
  single ++ (List.finRange 4).map pmpcfg ++ (List.finRange 16).map pmpaddr

/-- The register with a given number, if one has it. -/
def find (address : BitVec 32) : Option CsrName := all.find? fun name => name.addr == address

/-- Only the register with that number is found. -/
theorem addr_of_find {address : BitVec 32} {name : CsrName} (found : find address = some name) :
    name.addr = address := by
  have matched := List.find?_some found
  exact eq_of_beq matched

end CsrName

/-- `SWITCH_CASE_MATCH_ANY_HPMCOUNTER_RV32`: the counters 3 to 31, their upper halves, the
machine versions of both, and the event selectors. -/
def isHpmCounter (address : BitVec 32) : Bool :=
  (0xC03 ≤ address && address ≤ 0xC1F) || (0xC83 ≤ address && address ≤ 0xC9F) ||
    (0xB03 ≤ address && address ≤ 0xB1F) || (0xB83 ≤ address && address ≤ 0xB9F) ||
    (0x323 ≤ address && address ≤ 0x33F)

/-! ## The register table -/

/-- `csr_table` without `mip`. -/
structure CsrTable where
  cycle : BitVec 64
  time : BitVec 64
  instret : BitVec 64
  mvendorid : BitVec 32
  marchid : BitVec 32
  mimpid : BitVec 32
  mhartid : BitVec 32
  mstatus : BitVec 32
  misa : Misa
  medeleg : BitVec 32
  mideleg : BitVec 32
  mie : BitVec 32
  mtvec : BitVec 32
  mcounteren : BitVec 32
  mcountinhibit : BitVec 32
  mscratch : BitVec 32
  mepc : BitVec 32
  mcause : BitVec 32
  mtval : BitVec 32
  pmpaddr : Fin 16 → BitVec 32
  pmpcfg : Fin 4 → BitVec 32
  sedeleg : BitVec 32
  sideleg : BitVec 32
  stvec : BitVec 32
  scounteren : BitVec 32
  sscratch : BitVec 32
  sepc : BitVec 32
  scause : BitVec 32
  stval : BitVec 32
  satp : BitVec 32
  utvec : BitVec 32
  uscratch : BitVec 32
  uepc : BitVec 32
  ucause : BitVec 32
  utval : BitVec 32
  fcsr : BitVec 32

namespace CsrTable

/-- All registers zero, except the instruction set and the hart number. -/
def initial (misa : Misa) (hartId : BitVec 32) : CsrTable where
  cycle := 0
  time := 0
  instret := 0
  mvendorid := 0
  marchid := 0
  mimpid := 0
  mhartid := hartId
  mstatus := 0
  misa := misa
  medeleg := 0
  mideleg := 0
  mie := 0
  mtvec := 0
  mcounteren := 0
  mcountinhibit := 0
  mscratch := 0
  mepc := 0
  mcause := 0
  mtval := 0
  pmpaddr := fun _ => 0
  pmpcfg := fun _ => 0
  sedeleg := 0
  sideleg := 0
  stvec := 0
  scounteren := 0
  sscratch := 0
  sepc := 0
  scause := 0
  stval := 0
  satp := 0
  utvec := 0
  uscratch := 0
  uepc := 0
  ucause := 0
  utval := 0
  fcsr := 0

/-- The halves of a 64-bit counter. -/
def low (counter : BitVec 64) : BitVec 32 := counter.extractLsb' 0 32
def high (counter : BitVec 64) : BitVec 32 := counter.extractLsb' 32 32

def setLow (counter : BitVec 64) (value : BitVec 32) : BitVec 64 := high counter ++ value
def setHigh (counter : BitVec 64) (value : BitVec 32) : BitVec 64 := value ++ low counter

/-- `default_read32` where `is_valid_csr32_addr` holds. The views of other registers and the
hardwired debug registers have no entry of their own, and `mip` is not kept here; the
simulator handles all of these before it comes to the table. -/
def defaultRead32 (csrs : CsrTable) : CsrName → Option (BitVec 32)
  | .cycle | .mcycle => some (low csrs.cycle)
  | .cycleh | .mcycleh => some (high csrs.cycle)
  | .time | .mtime => some (low csrs.time)
  | .timeh | .mtimeh => some (high csrs.time)
  | .instret | .minstret => some (low csrs.instret)
  | .instreth | .minstreth => some (high csrs.instret)
  | .mvendorid => some csrs.mvendorid
  | .marchid => some csrs.marchid
  | .mimpid => some csrs.mimpid
  | .mhartid => some csrs.mhartid
  | .mstatus => some csrs.mstatus
  | .misa => some csrs.misa.reg
  | .medeleg => some csrs.medeleg
  | .mideleg => some csrs.mideleg
  | .mie => some csrs.mie
  | .mtvec => some csrs.mtvec
  | .mcounteren => some csrs.mcounteren
  | .mcountinhibit => some csrs.mcountinhibit
  | .mscratch => some csrs.mscratch
  | .mepc => some csrs.mepc
  | .mcause => some csrs.mcause
  | .mtval => some csrs.mtval
  | .pmpaddr index => some (csrs.pmpaddr index)
  | .pmpcfg index => some (csrs.pmpcfg index)
  | .sedeleg => some csrs.sedeleg
  | .sideleg => some csrs.sideleg
  | .stvec => some csrs.stvec
  | .scounteren => some csrs.scounteren
  | .sscratch => some csrs.sscratch
  | .sepc => some csrs.sepc
  | .scause => some csrs.scause
  | .stval => some csrs.stval
  | .satp => some csrs.satp
  | .utvec => some csrs.utvec
  | .uscratch => some csrs.uscratch
  | .uepc => some csrs.uepc
  | .ucause => some csrs.ucause
  | .utval => some csrs.utval
  | .fcsr => some csrs.fcsr
  | .tselect | .tdata1 | .tdata2 | .tdata3 | .dcsr | .dpc | .dscratch0 | .dscratch1 | .mip
  | .sstatus | .sie | .sip | .ustatus | .uie | .uip | .fflags | .frm => none

/-- `default_write32` where `is_valid_csr32_addr` holds. `set_csr_value` comes here only for
the registers below; the ones with a mask or a view have their own case there. -/
def defaultWrite32 (csrs : CsrTable) (value : BitVec 32) : CsrName → Option CsrTable
  | .cycle | .mcycle => some { csrs with cycle := setLow csrs.cycle value }
  | .cycleh | .mcycleh => some { csrs with cycle := setHigh csrs.cycle value }
  | .time | .mtime => some { csrs with time := setLow csrs.time value }
  | .timeh | .mtimeh => some { csrs with time := setHigh csrs.time value }
  | .instret | .minstret => some { csrs with instret := setLow csrs.instret value }
  | .instreth | .minstreth => some { csrs with instret := setHigh csrs.instret value }
  | .mvendorid => some { csrs with mvendorid := value }
  | .marchid => some { csrs with marchid := value }
  | .mimpid => some { csrs with mimpid := value }
  | .mhartid => some { csrs with mhartid := value }
  | .mscratch => some { csrs with mscratch := value }
  | .mcause => some { csrs with mcause := value }
  | .mtval => some { csrs with mtval := value }
  | .pmpaddr index => some { csrs with pmpaddr := Function.update csrs.pmpaddr index value }
  | .pmpcfg index => some { csrs with pmpcfg := Function.update csrs.pmpcfg index value }
  | .sscratch => some { csrs with sscratch := value }
  | .scause => some { csrs with scause := value }
  | .stval => some { csrs with stval := value }
  | .uscratch => some { csrs with uscratch := value }
  | .ucause => some { csrs with ucause := value }
  | .utval => some { csrs with utval := value }
  | _ => none

end CsrTable

end SymexVP
