import PsRpc.Library.ByteOrder
import PsRpc.Library.Chunks
import PsRpc.Library.Framing
import PsRpc.Library.Execution
import PsRpc.Library.Table
import PsRpc.Library.Scan
import PsRpc.Library.Pattern
import PsRpc.Library.JsonText
import PsRpc.Library.IntrusiveList
import PsRpc.Library.Json
import PsRpc.Library.Lanes
import PsRpc.Library.Protobuf
import PsRpc.Library.ProtobufMessage
import PsRpc.Library.ProtobufPacked
import PsRpc.Library.Spans
import PsRpc.Library.Roster
import PsRpc.Library.KeyRing
import PsRpc.Library.SortedMap
import PsRpc.Wire.Message
import PsRpc.Wire.TcpMessageHandler
import PsRpc.Wire.StreamRefinement
import PsRpc.Wire.Splitting
import PsRpc.Wire.ReceiveTrace
import PsRpc.Wire.SendMessage
import PsRpc.Wire.RoundTrip
import PsRpc.Wire.TcpLink
import PsRpc.Wire.Reconnect
import PsRpc.Wire.ClientLoop
import PsRpc.Wire.FailedWrite
import PsRpc.Wire.ConnectionTable
import PsRpc.Wire.CommMessage
import PsRpc.Wire.MetaCodec
import PsRpc.Http.ResponseBody
import PsRpc.Library.Memory
import PsRpc.Log.Securec
import PsRpc.Log.LogConfig
import PsRpc.Log.SubModuleLevels
import PsRpc.Cluster.Meta
import PsRpc.Cluster.CheckIp
import PsRpc.Cluster.FileConfiguration
import PsRpc.Node.Tracker
import PsRpc.Node.Send
import PsRpc.Node.Requests
import PsRpc.Node.Slot
import PsRpc.Node.SlotInvariant
import PsRpc.Node.Matching
import PsRpc.Node.WireCalls
import PsRpc.Node.CallbackLifetime
import PsRpc.Node.StackFrames
import PsRpc.Node.Quiescence
import PsRpc.Node.Rejection
import PsRpc.Node.Repetition
import PsRpc.Collective.Exchange
import PsRpc.Collective.Meeting
import PsRpc.Collective.Fifo
import PsRpc.Collective.WireExchange
import PsRpc.Collective.Roles
import PsRpc.Collective.FailedDelivery
import PsRpc.Node.Server
import PsRpc.Scheduler.NodeManager
import PsRpc.Scheduler.RankRegistry
import PsRpc.Scheduler.Membership
import PsRpc.Scheduler.ClusterState
import PsRpc.Scheduler.Readiness
import PsRpc.Scheduler.Finish
import PsRpc.Scheduler.Goodbye
import PsRpc.Scheduler.NodeTimeout
import PsRpc.Scheduler.RankValidity
import PsRpc.Scheduler.Cluster
import PsRpc.Scheduler.AddressAgreement
import PsRpc.Heartbeat.Timer
import PsRpc.Heartbeat.Client
import PsRpc.Heartbeat.SelfWait
import PsRpc.Heartbeat.Farewell
import PsRpc.Heartbeat.WireSession
import PsRpc.Scheduler.ClusterSession
import PsRpc.Scheduler.WireCluster
import PsRpc.Embedding.Shard
import PsRpc.Embedding.WireLookup
import PsRpc.Embedding.Worker
import PsRpc.Embedding.Ranges
import PsRpc.Embedding.Routing
import PsRpc.Embedding.Partition
import PsRpc.Embedding.Slices
import PsRpc.Embedding.RoundRobin
import PsRpc.Threads.ThreadPool
import PsRpc.Threads.WorkQueue
import PsRpc.Threads.PoolAccounting
import PsRpc.Threads.SpuriousWakeup
import PsRpc.Threads.TaskBound
import PsRpc.Threads.CountDownLatch
import PsRpc.Hashing.ConsistentHash
import PsRpc.Hashing.RingMembership
import PsRpc.EventTcp.MsgParser
import PsRpc.EventTcp.MsgStream
import PsRpc.EventTcp.Delivery
import PsRpc.Scheduler.ControlFormat
import PsRpc.Scheduler.ControlMessages
