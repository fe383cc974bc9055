import SymexVP.BitFields
import SymexVP.Opcode
import SymexVP.Instruction
import SymexVP.DecodeNormal
import SymexVP.MaskTable
import SymexVP.DecodeCompressed
import SymexVP.DecoderAgreement
import SymexVP.Specification
import SymexVP.ByteMemory
import SymexVP.SpecificationDecoder
import SymexVP.SpecificationResults
import SymexVP.SpecificationFields
import SymexVP.EncoderLayout
import SymexVP.CompressedExpansion
import SymexVP.EncoderFields
import SymexVP.Exec
import SymexVP.Clover
import SymexVP.Csr
import SymexVP.Board
import SymexVP.MemoryInterface
import SymexVP.Devices
import SymexVP.SensorBounds
import SymexVP.Hart
import SymexVP.Iss
import SymexVP.FaultOrigins
import SymexVP.OpcodeCoverage
import SymexVP.Dispatch
import SymexVP.ControlState
import SymexVP.TrapHandling
import SymexVP.PrivilegeIsolation
import SymexVP.PrivilegeLevels
import SymexVP.TrapRouting
import SymexVP.TrapRoundTrip
import SymexVP.CsrPermissions
import SymexVP.CsrStoreLaw
import SymexVP.GdbFraming
import SymexVP.BoardSteps
import SymexVP.StateSteps
import SymexVP.BitStrings
import SymexVP.SymbolicFormat
import SymexVP.FormatFields
import SymexVP.FreshInputs
import SymexVP.LoadAgreement
import SymexVP.PreciseTraps
import SymexVP.AccessFaults
import SymexVP.MemoryTraps
import SymexVP.FaultAddresses
import SymexVP.BacktrackingParser
import SymexVP.GdbCommands
import SymexVP.Slip
import SymexVP.GdbArguments
import SymexVP.GdbRunLength
import SymexVP.GdbDecoderAborts
import SymexVP.GdbParserAborts
import SymexVP.AbstractUart
import SymexVP.GdbServer
import SymexVP.UartQueues
import SymexVP.SerialLines
import SymexVP.SlipLine
import SymexVP.Terminal
import SymexVP.GdbHandover
import SymexVP.Plic
import SymexVP.FirstMaximum
import SymexVP.PlicArbitration
import SymexVP.PlicSteps
import SymexVP.PlicClaims
import SymexVP.PlicDelivery
import SymexVP.Clint
import SymexVP.PlicHarts
import SymexVP.ClintSteps
import SymexVP.ClintTime
import SymexVP.ClintTimer
import SymexVP.ClintDelays
import SymexVP.StepAssertions
import SymexVP.ReplayedMemory
import SymexVP.ReplayedHart
import SymexVP.ReplayedInstructions
import SymexVP.AssertionRuns
import SymexVP.ReplayedRuns
import SymexVP.Outcomes
import SymexVP.AccessOutcomes
import SymexVP.BusLock
import SymexVP.EventLogs
import SymexVP.LockDiscipline
import SymexVP.MemoryAssertions
import SymexVP.AtomicAccesses
import SymexVP.CounterShadows
import SymexVP.Sv32
import SymexVP.PageTables
import SymexVP.PageWalks
import SymexVP.TranslationCache
import SymexVP.LoadPermissions
import SymexVP.InstructionFetch
import SymexVP.BoardFrames
import SymexVP.ReservationWindow
import SymexVP.StoreConditional
import SymexVP.CanController
import SymexVP.CanBounds
import SymexVP.CanIdentifiers
import SymexVP.CanRegisters
import SymexVP.CanSteps
import SymexVP.CanRecovery
import SymexVP.Arrivals
import SymexVP.UnseenParts
import SymexVP.CanArrivals
import SymexVP.CanMailboxes
import SymexVP.Oled
import SymexVP.GdbHandlers
import SymexVP.GdbReplies
import SymexVP.DebugMemory
import SymexVP.GdbSessions
import SymexVP.FirstMatch
import SymexVP.GdbVcont
import SymexVP.GdbThreadList
import SymexVP.RealClint
import SymexVP.RealClintTicks
import SymexVP.RealClintTimers
import SymexVP.ElfLoader
import SymexVP.ProgramLoading
import SymexVP.PlicCompletions
import SymexVP.ArrayView
import SymexVP.PlicPriorities
import SymexVP.Gpio
import SymexVP.GpioInterrupts
import SymexVP.GpioServer
import SymexVP.GpioSessions
import SymexVP.UartWatermarks
import SymexVP.RegisterMapping
import SymexVP.RoutedSystems
import SymexVP.Spi
import SymexVP.SpiTransfers
import SymexVP.SpiDevices
import SymexVP.InstructionRefinement
import SymexVP.AccessRefinement
import SymexVP.StepRefinement
import SymexVP.ServedAccesses
import SymexVP.ProgramRuns
import SymexVP.OutsideWorld
import SymexVP.WorldRuns
import SymexVP.InterruptLines
import SymexVP.ExternalInterrupts
import SymexVP.LocalInterrupts
