import ServerDevLib.Foundation.Transition
import ServerDevLib.Foundation.ConservedStream
import ServerDevLib.Foundation.Handover
import ServerDevLib.Foundation.Custody
import ServerDevLib.Foundation.CircularBuffer
import ServerDevLib.Foundation.Overlay
import ServerDevLib.Foundation.Memory
import ServerDevLib.Foundation.CxxString
import ServerDevLib.Device.IODevice
import ServerDevLib.Device.Ring
import ServerDevLib.Device.ReadRuns
import ServerDevLib.Device.Position
import ServerDevLib.ThreadPool.Pool
import ServerDevLib.ThreadPool.LoopRuns
import ServerDevLib.ThreadPool.Startup
import ServerDevLib.ThreadPool.Accounting
import ServerDevLib.ThreadPool.ShutdownRuns
import ServerDevLib.ThreadPool.AcceptedTasks
import ServerDevLib.Reactor.Demultiplexer
import ServerDevLib.Reactor.Channel
import ServerDevLib.Reactor.ReceiveRuns
import ServerDevLib.Reactor.SendRuns
import ServerDevLib.Reactor.OutputRuns
import ServerDevLib.Reactor.EdgeTriggered
import ServerDevLib.Reactor.Dispatcher
import ServerDevLib.Reactor.Dispatch
import ServerDevLib.Reactor.Listening
import ServerDevLib.Reactor.SlaveLoops
import ServerDevLib.Reactor.Serving
import ServerDevLib.Reactor.Registration
import ServerDevLib.Reactor.ListeningHandler
import ServerDevLib.Reactor.SlaveChoice
import ServerDevLib.Reactor.Extraction
import ServerDevLib.Reactor.HeldChannels
import ServerDevLib.Reactor.DroppedChannels
import ServerDevLib.Reactor.ShutdownState
import ServerDevLib.Reactor.Lifetime
import ServerDevLib.Reactor.EventPool
import ServerDevLib.Reactor.DescriptorReuse
import ServerDevLib.Reactor.Ownership
import ServerDevLib.Reactor.Barrier
import ServerDevLib.Reactor.NotificationCenter
import ServerDevLib.Reactor.IteratorValidity
import ServerDevLib.Reactor.StayingChannels
import ServerDevLib.Reactor.Readiness
import ServerDevLib.Reactor.ResponseDelivery
import ServerDevLib.Reactor.ReadyCalls
import ServerDevLib.Reactor.ClosingChannels
import ServerDevLib.Reactor.StaleClose
import ServerDevLib.Reactor.Announcements
import ServerDevLib.Reactor.EndOfFile
import ServerDevLib.Reactor.PendingFunctors
import ServerDevLib.Logging.Logger
import ServerDevLib.Logging.Delivery
import ServerDevLib.Logging.Destruction
import ServerDevLib.Logging.StopSignal
import ServerDevLib.Logging.LogFile
import ServerDevLib.ThreadPool.Scaling
import ServerDevLib.ThreadPool.AdjustRuns
import ServerDevLib.ThreadPool.Monitor
import ServerDevLib.ThreadPool.WorkerCount
import ServerDevLib.ThreadPool.ErasedWorkers
import ServerDevLib.Reactor.ReadRequests
import ServerDevLib.Device.FailedReads
import ServerDevLib.Device.ReadDelivery
import ServerDevLib.Device.SeekRange
import ServerDevLib.Device.File
import ServerDevLib.Device.FileReads
import ServerDevLib.Device.FileWrites
import ServerDevLib.Device.WritingFlag
import ServerDevLib.Logging.LogRecord
import ServerDevLib.Logging.FileName
import ServerDevLib.Logging.MessageObjects
import ServerDevLib.Logging.MessageMoves
import ServerDevLib.Foundation.FileStream
import ServerDevLib.Device.FillPhase
import ServerDevLib.Logging.LogStream
import ServerDevLib.Device.FileStore
import ServerDevLib.Foundation.History
import ServerDevLib.Logging.MessageRecords
import ServerDevLib.Foundation.Digits
import ServerDevLib.Logging.TimeStamps
import ServerDevLib.Foundation.Progress
import ServerDevLib.ThreadPool.Draining
import ServerDevLib.ThreadPool.Futures
import ServerDevLib.Reactor.Conversations
import ServerDevLib.Reactor.ServiceLoop
import ServerDevLib.Foundation.Service
import ServerDevLib.Foundation.Descriptors
import ServerDevLib.Tcp.TcpServer
import ServerDevLib.Tcp.Connections
import ServerDevLib.ThreadPool.Timer
import ServerDevLib.ThreadPool.MonitorThread
import ServerDevLib.Foundation.Copies
import ServerDevLib.Logging.Sinks
import ServerDevLib.Foundation.Once
import ServerDevLib.ThreadPool.GlobalPool
import ServerDevLib.Foundation.Fields
import ServerDevLib.Logging.HeaderFormat
import ServerDevLib.Foundation.Extraction
import ServerDevLib.ThreadPool.CpuStats
import ServerDevLib.Device.BufferedFile
import ServerDevLib.Reactor.PoolShutdown
