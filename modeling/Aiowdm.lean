import Aiowdm.Lib.Prog
import Aiowdm.Lib.System
import Aiowdm.Lib.Simulation
import Aiowdm.Lib.Atomic
import Aiowdm.Lib.Ledger
import Aiowdm.Lib.Bytes
import Aiowdm.Lib.CString
import Aiowdm.Lib.CommandLine
import Aiowdm.Driver.Bus
import Aiowdm.Driver.IrqWait
import Aiowdm.Driver.WaitQueue
import Aiowdm.Driver.InterruptStyles
import Aiowdm.Driver.DeviceTable
import Aiowdm.Driver.RegisterActions
import Aiowdm.Driver.DeviceContext
import Aiowdm.Driver.Kernel
import Aiowdm.Driver.Probe
import Aiowdm.Driver.ModuleRuns
import Aiowdm.Driver.ProbeInterrupts
import Aiowdm.Driver.RegisterIo
import Aiowdm.Driver.StatusRegister
import Aiowdm.Driver.RequestBytes
import Aiowdm.Driver.DescriptorGet
import Aiowdm.Driver.DescriptorBytes
import Aiowdm.Driver.Handles
import Aiowdm.Driver.Ioctls
import Aiowdm.Driver.CardThreads
import Aiowdm.Driver.DeviceNodes
import Aiowdm.Library.Registers
import Aiowdm.Library.Cards
import Aiowdm.Library.CardInfo
import Aiowdm.Library.OnDriver
import Aiowdm.Library.RegisterThreads
import Aiowdm.Programs.IrqTest
import Aiowdm.Programs.RegisterIo
import Aiowdm.Proofs.IrqSlot
import Aiowdm.Proofs.WaitOutcome
import Aiowdm.Proofs.WakeUps
import Aiowdm.Proofs.IrqDelivery
import Aiowdm.Proofs.TestMoments
import Aiowdm.Proofs.TestOutcomes
import Aiowdm.Proofs.SectionPlaces
import Aiowdm.Proofs.LockSections
import Aiowdm.Proofs.LockProgress
import Aiowdm.Proofs.ProbeStatus
import Aiowdm.Proofs.SetupCalls
import Aiowdm.Proofs.Ownership
import Aiowdm.Proofs.Unwinding
import Aiowdm.Proofs.ProbeEffect
import Aiowdm.Proofs.Teardown
import Aiowdm.Proofs.RegisterBounds
import Aiowdm.Proofs.HandleLifetime
import Aiowdm.Proofs.IsrStages
import Aiowdm.Proofs.IsrLifetime
import Aiowdm.Proofs.MinorNumbers
import Aiowdm.Proofs.NodeNames
import Aiowdm.Proofs.EntryAttempts
import Aiowdm.Proofs.CardNumbers
import Aiowdm.Proofs.CardScan
import Aiowdm.Proofs.CardDiscovery
import Aiowdm.Proofs.CardStack
import Aiowdm.Proofs.ByteMemories
import Aiowdm.Proofs.RegisterCommands
import Aiowdm.Proofs.Linearization
import Aiowdm.Proofs.Transcription
import Aiowdm.Proofs.CardFrame
import Aiowdm.Proofs.EventDelivery
import Aiowdm.Proofs.EventCounts
import Aiowdm.Proofs.EnableBits
import Aiowdm.Proofs.BuiltContexts
import Aiowdm.Proofs.DefaultBar
import Aiowdm.Proofs.SharedRegister
import Aiowdm.Proofs.TableCheck
import Aiowdm.Proofs.RequestFrame
import Aiowdm.Proofs.RequestRefinement
import Aiowdm.Proofs.DescriptorLeak
import Aiowdm.Proofs.NameBuffer
import Aiowdm.Proofs.QueryOutputs
