import Nise.Lib.Run
import Nise.Lib.FloatFormat
import Nise.Lib.Frames
import Nise.Lib.UniqueTable
import Nise.Lib.PriorityQueue
import Nise.Lib.Numeral
import Nise.Lib.FanOut
import Nise.Lib.Barrier
import Nise.Lib.Rounds
import Nise.Lib.TupleSpace
import Nise.Lib.ContainerLoop
import Nise.Lib.OrderedHash
import Nise.Lib.Sweep
import Nise.Lib.Statistics
import Nise.Lib.LexicalPath
import Nise.Lib.Recognizer
import Nise.Lib.Blocks
import Nise.Lib.Pipe
import Nise.Lib.History
import Nise.Lib.Interpolation
import Nise.Ace.Sock
import Nise.Ace.MessageQueue
import Nise.Ace.BlockLedger
import Nise.Ace.SendPath
import Nise.Core.EventHeader
import Nise.Core.SamsonHeader
import Nise.Core.FrameReader
import Nise.Core.HeaderReads
import Nise.Core.HeaderClass
import Nise.Core.WireHeader
import Nise.Dispatcherd.ReceiveHandler
import Nise.Dispatcherd.TransmitHandler
import Nise.Dispatcherd.Forward
import Nise.Dispatcherd.Identity
import Nise.Dispatcherd.PubSubDispatch
import Nise.Dispatcherd.Network
import Nise.Dispatcherd.ExactlyOnce
import Nise.Dispatcherd.PointToPoint
import Nise.Dispatcherd.ConnectionHandler
import Nise.Dispatcherd.HelloRegistration
import Nise.Dispatcherd.DebugRouting
import Nise.Dispatcherd.LiveConnections
import Nise.Dispatcherd.RouterStats
import Nise.Dispatcherd.RouteTimeStats
import Nise.Dispatcherd.CommandParser
import Nise.Dispatcherd.ChannelFilters
import Nise.Dispatcherd.FilterCounts
import Nise.Dispatcherd.ReconnectBackoff
import Nise.Dispatcherd.FanOutLoops
import Nise.Dispatcherd.Anneal
import Nise.Peer.PeerReceive
import Nise.Peer.PeerSend
import Nise.Peer.SharedAppMgr
import Nise.Peer.DataGate
import Nise.Peer.MessageMap
import Nise.Peer.AwaitEvents
import Nise.Peer.Publish
import Nise.PublishPath
import Nise.RelayPath
import Nise.ReceivePaths
import Nise.ReceiveErrors
import Nise.RubyModels.StringMods
import Nise.RubyModels.IseMessage
import Nise.RubyModels.Link16Message
import Nise.RubyModels.TrackId
import Nise.RubyModels.ByteOrder
import Nise.RubyModels.FieldNames
import Nise.RubyModels.EphemerisArray
import Nise.RubyModels.PackCodes
import Nise.RubyModels.ItemFormats
import Nise.RubyModels.FullMessage
import Nise.RubyModels.PackErrors
import Nise.RubyModels.SimpleJMessage
import Nise.RubyModels.SamsonHeader
import Nise.RubyModels.RWLock
import Nise.RubyModels.BoundedQueue
import Nise.RubyModels.RSemaphore
import Nise.RubyModels.RBarrier
import Nise.RubyModels.SimpleQueue
import Nise.RubyModels.IseScenario
import Nise.RubyModels.PeriodicTasks
import Nise.RubyModels.Radar
import Nise.RubyModels.RadarSweep
import Nise.RubyModels.RadarCoverage
import Nise.RubyPeer.DispatcherProtocol
import Nise.RubyPeer.Subscriptions
import Nise.RubyPeer.Publish
import Nise.StatusFlags
import Nise.BlockOwnership
import Nise.Dispatcherd.HeaderOnly
import Nise.Utilities.FramedController
import Nise.Utilities.FramedProtocol
import Nise.Utilities.FramedPhases
import Nise.Utilities.FramedRuns
import Nise.Utilities.FrameBarrier
import Nise.Utilities.Completion
import Nise.Utilities.CaseSequence
import Nise.Utilities.PeerShutdown
import Nise.Utilities.TimedController
import Nise.Utilities.SimpleController
import Nise.Utilities.Shutdown
import Nise.Utilities.CountingBarriers
import Nise.Utilities.FramePacing
import Nise.Utilities.Watchdog
import Nise.Utilities.StepBudget
import Nise.Lib.CyclicSum
import Nise.RubyModels.PolygonArea
import Nise.RubyModels.PkTable
import Nise.RubyModels.PkInterpolation
import Nise.Lib.Precedence
import Nise.RubyModels.IseRun
import Nise.RubyModels.SimTime
import Nise.RubyModels.ControlledModels
import Nise.Federation
import Nise.LockStep
import Nise.JobCompletion
import Nise.Lib.Broadcast
import Nise.Lib.RungeKutta
import Nise.Models.Tater
import Nise.Models.Osk.State
import Nise.Models.Osk.Sim
import Nise.Models.CmdTarget
