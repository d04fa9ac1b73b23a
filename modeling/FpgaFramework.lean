import FpgaFramework.Framing
import FpgaFramework.Driver
import FpgaFramework.FpgaManager
import FpgaFramework.FpgaImage
import FpgaFramework.FpgaStream
import FpgaFramework.FpgaSequence
import FpgaFramework.FpgaConfigure
import FpgaFramework.FpgaRuns
import FpgaFramework.FpgaNode
import FpgaFramework.Buffer
import FpgaFramework.PieceCopy
import FpgaFramework.Message
import FpgaFramework.Connection
import FpgaFramework.FrameStream
import FpgaFramework.MessageConfig
import FpgaFramework.MessageData
import FpgaFramework.MessageInspect
import FpgaFramework.MessageMemory
import FpgaFramework.BenchNode
import FpgaFramework.BenchUser
import FpgaFramework.ConnectionId
import FpgaFramework.Machine
import FpgaFramework.SharedStream
import FpgaFramework.AsyncPool
import FpgaFramework.Counter
import FpgaFramework.CounterWaits
import FpgaFramework.Session
import FpgaFramework.SessionStep
import FpgaFramework.SessionStream
import FpgaFramework.SessionNodes
import FpgaFramework.SessionMessages
import FpgaFramework.SessionCounters
import FpgaFramework.SessionLoops
import FpgaFramework.SessionInputs
import FpgaFramework.SessionDivision
import FpgaFramework.SessionTeardown
import FpgaFramework.SessionReconfigure
import FpgaFramework.SessionBarrier
import FpgaFramework.SessionUser
import FpgaFramework.SessionDrain
import FpgaFramework.SessionConfigurations
import FpgaFramework.SessionStop
import FpgaFramework.SessionWaits
import FpgaFramework.SessionOwners
import FpgaFramework.SessionVariants
import FpgaFramework.Server
import FpgaFramework.SessionReader
import FpgaFramework.BenchSession
import FpgaFramework.BenchCluster
import FpgaFramework.BenchFlow
import FpgaFramework.BenchParties
import FpgaFramework.BenchSafety
import FpgaFramework.BenchEnd
import FpgaFramework.BenchProgress
import FpgaFramework.Block
import FpgaFramework.BlockWork
import FpgaFramework.BlockQueues
import FpgaFramework.BlockCopies
import FpgaFramework.BlockStop
import FpgaFramework.BlockPorts
import FpgaFramework.BlockRange
import FpgaFramework.BlockResults
import FpgaFramework.AddressSpace
import FpgaFramework.BlockMemory
import FpgaFramework.BlockBench
import FpgaFramework.BlockProgress
