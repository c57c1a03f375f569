import RemoteMonitoring.Client.Client
import RemoteMonitoring.Client.ClientLogger
import RemoteMonitoring.Client.LogQueue
import RemoteMonitoring.Common.Config
import RemoteMonitoring.Common.LogEntry
import RemoteMonitoring.Common.Message
import RemoteMonitoring.Common.NetworkEvent
import RemoteMonitoring.Common.Serializable
import RemoteMonitoring.Common.Util
import RemoteMonitoring.Lib.ByteText
import RemoteMonitoring.Lib.CumulativeAck
import RemoteMonitoring.Lib.File
import RemoteMonitoring.Lib.IStream
import RemoteMonitoring.Lib.Interleave
import RemoteMonitoring.Lib.OFStream
import RemoteMonitoring.Lib.Scaling
import RemoteMonitoring.Lib.WordBytes
import RemoteMonitoring.Proofs.AckDurability
import RemoteMonitoring.Proofs.Configuration
import RemoteMonitoring.Proofs.CrashRecovery
import RemoteMonitoring.Proofs.Delivery
import RemoteMonitoring.Proofs.Framing
import RemoteMonitoring.Proofs.Isolation
import RemoteMonitoring.Proofs.Messages
import RemoteMonitoring.Proofs.Overlap
import RemoteMonitoring.Proofs.Restart
import RemoteMonitoring.Server.ClientHandler
import RemoteMonitoring.Server.ClientManager
import RemoteMonitoring.Server.EventBus
import RemoteMonitoring.Server.RecvLogSteps
import RemoteMonitoring.System.Configuration
import RemoteMonitoring.System.Crash
import RemoteMonitoring.System.Delivery
import RemoteMonitoring.System.Isolation
import RemoteMonitoring.System.Overlap
import RemoteMonitoring.System.QueueRun
import RemoteMonitoring.System.Senders
import RemoteMonitoring.Lib.PrefixCode
import RemoteMonitoring.Common.Canonical
import RemoteMonitoring.Proofs.WireFormat
import RemoteMonitoring.Proofs.TextFormat
import RemoteMonitoring.Proofs.Chunking
import RemoteMonitoring.System.Reception
import RemoteMonitoring.Proofs.Reception
import RemoteMonitoring.Proofs.ReceiveLoop
import RemoteMonitoring.Proofs.AckMemory
import RemoteMonitoring.Client.ServerConnector
import RemoteMonitoring.Lib.UnorderedMap
import RemoteMonitoring.Proofs.Routing
import RemoteMonitoring.Client.ProcessTable
import RemoteMonitoring.Proofs.ProcessTable
import RemoteMonitoring.System.Alerts
import RemoteMonitoring.Proofs.Alerts
import RemoteMonitoring.Lib.PartialSort
import RemoteMonitoring.Proofs.Sorting
import RemoteMonitoring.Proofs.ProcessRow
import RemoteMonitoring.Proofs.DiskUsage
import RemoteMonitoring.Proofs.Lifetimes
import RemoteMonitoring.Client.ProcFiles
import RemoteMonitoring.System.ProcFiles
import RemoteMonitoring.Proofs.CpuTotals
import RemoteMonitoring.Proofs.ScanBounds
import RemoteMonitoring.Client.PortMap
import RemoteMonitoring.System.PortMap
import RemoteMonitoring.Proofs.PortMap
import RemoteMonitoring.Proofs.Connection
import RemoteMonitoring.System.LastLine
import RemoteMonitoring.Proofs.LastLine
import RemoteMonitoring.System.Ports
import RemoteMonitoring.Proofs.Ports
import RemoteMonitoring.System.Cmdline
import RemoteMonitoring.Proofs.Cmdline
import RemoteMonitoring.System.Units
import RemoteMonitoring.Proofs.Units
import RemoteMonitoring.Proofs.StartUp
import RemoteMonitoring.System.SendPath
import RemoteMonitoring.Proofs.SendPath
import RemoteMonitoring.System.Compaction
import RemoteMonitoring.Proofs.Compaction
import RemoteMonitoring.Lib.Tally
import RemoteMonitoring.Client.NetworkProcessing
import RemoteMonitoring.System.Traffic
import RemoteMonitoring.Proofs.Traffic
import RemoteMonitoring.Lib.Resumption
import RemoteMonitoring.System.Incarnations
import RemoteMonitoring.Proofs.Incarnations
import RemoteMonitoring.Lib.StartingOver
import RemoteMonitoring.Proofs.Storage
import RemoteMonitoring.Proofs.Starvation
import RemoteMonitoring.System.Fleet
import RemoteMonitoring.Proofs.AnyRestart
import RemoteMonitoring.Proofs.Dispatch
import RemoteMonitoring.Proofs.FleetOrder
import RemoteMonitoring.Proofs.Fleet
import RemoteMonitoring.Proofs.FleetDelivery
import RemoteMonitoring.Lib.NestedPublish
import RemoteMonitoring.System.EventBuses
import RemoteMonitoring.Proofs.EventBuses
import RemoteMonitoring.Lib.KeyTree
import RemoteMonitoring.Common.Registry
import RemoteMonitoring.Proofs.Registry
import RemoteMonitoring.System.Backends
import RemoteMonitoring.Proofs.Backends
import RemoteMonitoring.Common.ExponentialBackoff
import RemoteMonitoring.Proofs.ExponentialBackoff
import RemoteMonitoring.System.CutConnection
import RemoteMonitoring.Proofs.CutConnection
import RemoteMonitoring.Proofs.ProcSample
import RemoteMonitoring.Proofs.WindowsTable
