import DeribitTrading.Library.Runs
import DeribitTrading.Library.ByteString
import DeribitTrading.Library.HttpFraming
import DeribitTrading.Library.Numbers
import DeribitTrading.Library.Urlencoded
import DeribitTrading.Library.Streaming
import DeribitTrading.Library.Interleaving
import DeribitTrading.Library.StreamFormat
import DeribitTrading.Library.StreamFile
import DeribitTrading.Library.Assoc
import DeribitTrading.Library.Fifo
import DeribitTrading.Library.RingBuffer
import DeribitTrading.Library.Chain
import DeribitTrading.Faults
import DeribitTrading.Json.Rapidjson
import DeribitTrading.Json.Nlohmann
import DeribitTrading.Libraries
import DeribitTrading.Json.Conversion
import DeribitTrading.Json.Values
import DeribitTrading.Json.Injectivity
import DeribitTrading.Json.Lookup
import DeribitTrading.Json.Text
import DeribitTrading.Client.MemoryPool
import DeribitTrading.Client.TokenManager
import DeribitTrading.Client.CurlConnectionManager
import DeribitTrading.Client.Responses
import DeribitTrading.Client.Requests
import DeribitTrading.Client.OrderApi
import DeribitTrading.Client.Calls
import DeribitTrading.Client.Store
import DeribitTrading.Client.PoolOwnership
import DeribitTrading.Client.ResponseSafety
import DeribitTrading.Client.Framing
import DeribitTrading.Client.RequestEncoding
import DeribitTrading.Client.HandlePool
import DeribitTrading.Client.Serial
import DeribitTrading.Client.Batch
import DeribitTrading.Client.Acknowledgement
import DeribitTrading.Client.OrderIdentity
import DeribitTrading.Client.TokenParsing
import DeribitTrading.Client.TokenCache
import DeribitTrading.Client.Retries
import DeribitTrading.Client.OrderBook
import DeribitTrading.Client.MarketData
import DeribitTrading.Client.GzipMembers
import DeribitTrading.Client.BlockPool
import DeribitTrading.Exchange.Network
import DeribitTrading.Exchange.Placement
import DeribitTrading.Exchange.Cancellation
import DeribitTrading.Exchange.Session
import DeribitTrading.Exchange.Wire
import DeribitTrading.Server.Request
import DeribitTrading.Server.System
import DeribitTrading.Server.Closed
import DeribitTrading.Server.Agreement
import DeribitTrading.Server.Identity
import DeribitTrading.Server.Readers
import DeribitTrading.ThreadPool.System
import DeribitTrading.ThreadPool.Progress
import DeribitTrading.ThreadPool.Shutdown
import DeribitTrading.ThreadPool.Conservation
import DeribitTrading.ThreadPool.Delivery
import DeribitTrading.Queues.WaitFreeQueue
import DeribitTrading.Queues.LockFreeQueue
import DeribitTrading.Queues.LockFreeOrder
import DeribitTrading.Queues.LockFreeRuns
import DeribitTrading.Queues.LockFreeProgress
import DeribitTrading.WebSocketClient.Decompression
import DeribitTrading.WebSocketClient.Messages
import DeribitTrading.WebSocketClient.Requests
import DeribitTrading.WebSocketClient.Updates
import DeribitTrading.WebSocketClient.Client
import DeribitTrading.Feed.System
import DeribitTrading.Feed.Delivery
import DeribitTrading.Feed.Agreement
import DeribitTrading.Feed.Progress
import DeribitTrading.Program.Benchmark
import DeribitTrading.Program.Main
