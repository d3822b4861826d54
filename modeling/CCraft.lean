import CCraft.Lib.Run
import CCraft.Lib.Fallible
import CCraft.Lib.Memory
import CCraft.Lib.BigEndian
import CCraft.Common.Codec
import CCraft.Common.Buffer
import CCraft.Lib.Framing
import CCraft.Lib.PageLists
import CCraft.Lib.Slab
import CCraft.Lib.OrderedMap
import CCraft.Lib.WireFormat
import CCraft.Lib.GroupIndex
import CCraft.Lib.Fifo
import CCraft.Lib.KeyedTable
import CCraft.Lib.SearchTree
import CCraft.Lib.Deadlock
import CCraft.Lib.Delegation
import CCraft.Lib.ReadTrace
import CCraft.Lib.Tickets
import CCraft.Lib.TextFields
import CCraft.Lib.Chains
import CCraft.Lib.WeakOrder
import CCraft.Lib.Reach
import CCraft.Lib.ThreadGroups
import CCraft.Lib.BoundedBuffer
import CCraft.Lib.SystemCalls
import CCraft.Fsio.IoUtils
import CCraft.Common.ByteOrder
import CCraft.Common.ResourcePool
import CCraft.Common.SegmentedVector
import CCraft.Common.BlockingQueue
import CCraft.Common.SkipList.Model
import CCraft.Common.SkipList.Search
import CCraft.Common.SkipList.Insert
import CCraft.Common.SkipList.Erase
import CCraft.Common.SkipList.Operations
import CCraft.Common.SkipList.Safety
import CCraft.Common.SkipList.OrderedSet
import CCraft.Common.ServerConfiguration
import CCraft.Common.ServerList
import CCraft.MemPool.Sizes
import CCraft.MemPool.Pool
import CCraft.MemPool.Slots
import CCraft.MemPool.Bulk
import CCraft.MemPool.BulkPool
import CCraft.MemPool.BulkSearch
import CCraft.MemPool.Indexes
import CCraft.MemPool.Sound
import CCraft.MemPool.Pages
import CCraft.MemPool.Room
import CCraft.MemPool.AllocFailure
import CCraft.MemPool.Resident
import CCraft.MemPool.BulkResident
import CCraft.Net.Message
import CCraft.Net.Worker
import CCraft.Net.Recv
import CCraft.Net.Send
import CCraft.Net.Headers
import CCraft.Net.Oversized
import CCraft.Net.ReceiveMemory
import CCraft.Net.Handler
import CCraft.Net.EventWorker
import CCraft.Net.StaleEvents
import CCraft.Net.WakeUp
import CCraft.Net.Manager
import CCraft.Net.ManagerTables
import CCraft.Net.Finish
import CCraft.Net.Handshake
import CCraft.Net.Attach
import CCraft.Net.Opening
import CCraft.Net.Registration
import CCraft.Net.Phases
import CCraft.Net.Agreement
import CCraft.Net.Simultaneous
import CCraft.Net.MessageIds
import CCraft.Net.WorkerSelection
import CCraft.Timer.Table
import CCraft.Timer.Process
import CCraft.Timer.WakeUps
import CCraft.Timer.Duplicates
import CCraft.Timer.FiringOrder
import CCraft.ThreadPool.Waiting
import CCraft.Server.Messenger
import CCraft.Server.Outgoing
import CCraft.Server.Decoders
import CCraft.Server.Dispatch
import CCraft.Rpc.SyncClient
import CCraft.Server.Broken
import CCraft.Rpc.Responses
import CCraft.Rpc.Timeout
import CCraft.Rpc.FinishedCalls
import CCraft.Rpc.LockOrder
import CCraft.Rpc.Wire
import CCraft.Rpc.Server
import CCraft.Rpc.RemoteCalls
import CCraft.RfLog.Entry
import CCraft.RfLog.Logger
import CCraft.RfLog.RoundTrip
import CCraft.RfLog.Format
import CCraft.RfLog.Loading
import CCraft.Raft.State
import CCraft.Raft.TornWrite
import CCraft.Raft.Election
import CCraft.Raft.Terms
import CCraft.Raft.Incoming
import CCraft.Raft.RequestVote
