import Sipahi.GuardedExecution
import Sipahi.RiscvHart
import Sipahi.KernelTypes
import Sipahi.KernelPolicy
import Sipahi.KernelBlackbox
import Sipahi.KernelIpcChannel
import Sipahi.KernelCapability
import Sipahi.KernelPmp
import Sipahi.KernelState
import Sipahi.KernelTrapFrame
import Sipahi.FirstMinimum
import Sipahi.KernelScheduler
import Sipahi.KernelSyscall
import Sipahi.KernelTrap
import Sipahi.KernelReference
import Sipahi.KernelHandlers
import Sipahi.KernelEvolution
import Sipahi.KernelSelection
import Sipahi.KernelBoot
import Sipahi.KernelTaskInvariants
import Sipahi.KernelRunningTask
import Sipahi.KernelDegradation
import Sipahi.KernelRecovery
import Sipahi.KernelBudgets
import Sipahi.KernelRevocation
import Sipahi.KernelResume
import Sipahi.KernelContextSwitch
import Sipahi.KernelRestart
import Sipahi.LabelledRefinement
import Sipahi.BoundedFifo
import Sipahi.KernelIpcLinearization
import Sipahi.KernelIpcSyscalls
import Sipahi.ShiftRegister
import Sipahi.KernelCrc
import Sipahi.SlidingWindow
import Sipahi.KernelRecorder
import Sipahi.KernelProvenance
import Sipahi.RiscvPmp
import Sipahi.KernelPmpReload
import Sipahi.KeyedScan
import Sipahi.SntmManifest
import Sipahi.RustLexer
import Sipahi.RustReader
import Sipahi.SntmCodegen
import Sipahi.SntmAcceptance
import Sipahi.KernelLoader
import Sipahi.SntmIsolation
import Sipahi.SntmProfiles
import Sipahi.KernelPmpAgreement
import Sipahi.SntmCapFile
import Sipahi.SntmCapTable
import Sipahi.SntmBootChannels
import Sipahi.SntmRealisation
import Sipahi.SntmStackGate
import Sipahi.SntmDemoWaivers
import Sipahi.BinVerifyOpcodes
import Sipahi.SntmStackAnalysis
import Sipahi.SntmStackReport
import Sipahi.SntmImageFormat
import Sipahi.SntmImageSign
import Sipahi.TaskLintWaivers
import Sipahi.KernelSelectors
import Sipahi.KernelCreation
import Sipahi.KernelPolicyLadder
import Sipahi.KernelPolicyCalls
import Sipahi.KernelLocalCap
import Sipahi.KernelFrame
import Sipahi.RunHistory
import Sipahi.KernelPolicyEvents
import Sipahi.KernelCapEscalation
import Sipahi.KernelAccounting
import Sipahi.KernelBudgetPeriod
import Sipahi.KernelWatchdog
import Sipahi.KernelRateLimit
import Sipahi.KernelTokenCache
import Sipahi.ByteMemory
import Sipahi.KernelLoading
import Sipahi.KernelClock
import Sipahi.StructLayout
import Sipahi.SipahiApi
import Sipahi.SipahiApiMessages
import Sipahi.SntmChannelFile
import Sipahi.SntmChannelTypes
import Sipahi.SntmRecursion
import Sipahi.RiscvListing
import Sipahi.SntmTransferScan
import Sipahi.BinVerifyAgreement
import Sipahi.BinVerifyRegions
import Sipahi.SntmWrapperNames
import Sipahi.Uleb128
import Sipahi.SntmStackSizes
import Sipahi.Base64
import Sipahi.Occurrence
import Sipahi.SntmCertGen
import Sipahi.SntmPemRoundTrip
import Sipahi.SntmToolPanics
import Sipahi.KernelStatics
import Sipahi.KernelSpatial
import Sipahi.KernelHalts
import Sipahi.KernelIsolation
import Sipahi.KernelMessages
import Sipahi.KernelIntegrity
import Sipahi.TlaSntm
import Sipahi.KernelSntm
import Sipahi.KernelSupply
import Sipahi.KernelCode
import Sipahi.RelatedRuns
import Sipahi.KernelConfidentiality
import Sipahi.TemporalLogic
import Sipahi.TlaIpc
import Sipahi.PlainRecord
import Sipahi.SntmCertificate
import Sipahi.KernelAudit
import Sipahi.KernelResponse
