import HermesA2A.Lib.OrderedDict
import HermesA2A.Lib.Prog
import HermesA2A.Lib.Machine
import HermesA2A.Lib.Regex
import HermesA2A.Lib.Text
import HermesA2A.Json
import HermesA2A.Security
import HermesA2A.A2ASpec.Tasks
import HermesA2A.Persistence
import HermesA2A.TaskQueue
import HermesA2A.Server.SendMessage
import HermesA2A.System
import HermesA2A.Specification
import HermesA2A.QueueSteps
import HermesA2A.Runs
import HermesA2A.StateMachine
import HermesA2A.Delivery
import HermesA2A.Acknowledgement
import HermesA2A.Injection
import HermesA2A.Answers
import HermesA2A.Verdict
import HermesA2A.IdempotentKeys
import HermesA2A.Server.Senders
import HermesA2A.ClientAddress
import HermesA2A.Transports
import HermesA2A.Trigger
import HermesA2A.Cancellation
import HermesA2A.Notifications
import HermesA2A.Identity
import HermesA2A.Server.Streams
import HermesA2A.Server.Push
import HermesA2A.Server.Operations
import HermesA2A.Server.Handlers
import HermesA2A.Server.Http
import HermesA2A.Outbound
import HermesA2A.Contracts
import HermesA2A.Conduct
import HermesA2A.Requests
import HermesA2A.Redaction
import HermesA2A.Subscribers
import HermesA2A.Authorisation
import HermesA2A.Server.Readable
import HermesA2A.Responses
import HermesA2A.SingleResponse
import HermesA2A.Streaming
import HermesA2A.StreamDelivery
import HermesA2A.Lib.Sequential
import HermesA2A.QueueRuns
import HermesA2A.QueueCaps
import HermesA2A.OldestPending
import HermesA2A.StateMap
import HermesA2A.ArrivalOrder
import HermesA2A.Collisions
import HermesA2A.EventIds
import HermesA2A.Lib.IpAddress
import HermesA2A.Lib.Url
import HermesA2A.UrlSafety
import HermesA2A.TargetUrls
import HermesA2A.WebhookUrls
import HermesA2A.Contexts
import HermesA2A.ContextConduct
import HermesA2A.ContextRequests
import HermesA2A.ContextIds
import HermesA2A.Lib.TokenBucket
import HermesA2A.RateLimiter
import HermesA2A.RateBudget
import HermesA2A.RateIsolation
import HermesA2A.ExpiringStore
import HermesA2A.Metrics
import HermesA2A.Lib.GroupIndex
import HermesA2A.StreamIndex
import HermesA2A.Broadcasts
import HermesA2A.SubscriptionIndex
import HermesA2A.IndexLeaks
import HermesA2A.Lib.Base64
import HermesA2A.Lib.IntText
import HermesA2A.Lib.Paging
import HermesA2A.Pagination
import HermesA2A.Repetition
import HermesA2A.Conversations
import HermesA2A.Exchanges
import HermesA2A.Filtering
import HermesA2A.Lib.SlidingWindow
import HermesA2A.OutboundRate
import HermesA2A.RetryAfter
import HermesA2A.WebhookHosts
import HermesA2A.ConversationUpdates
import HermesA2A.Lib.Paths
import HermesA2A.ConversationPaths
import HermesA2A.WaitingReplies
import HermesA2A.HostilePeers
import HermesA2A.JsonText
import HermesA2A.Signatures
import HermesA2A.Lib.Binary64
import HermesA2A.Lib.FloatText
import HermesA2A.RateSettings
import HermesA2A.FloatLimiter
import HermesA2A.Polling
import HermesA2A.Backoff
import HermesA2A.A2ASpec.SendPayload
import HermesA2A.SessionRelay
import HermesA2A.WebhookTrigger
import HermesA2A.ImplicitCompletion
import HermesA2A.ReportedState
import HermesA2A.WorkerRegistry
import HermesA2A.Routes
import HermesA2A.Registering
import HermesA2A.Lib.DictHeap
import HermesA2A.SharedIdentity
import HermesA2A.IdentityPasses
import HermesA2A.SecondPass
import HermesA2A.Lib.EventStream
import HermesA2A.EventFormat
import HermesA2A.AuditLog
import HermesA2A.Lib.AsciiEscapes
import HermesA2A.JsonBytes
import HermesA2A.Envelopes
import HermesA2A.Lib.Waiting
import HermesA2A.Promptness
import HermesA2A.Speech
import HermesA2A.SpeechConduct
import HermesA2A.Workers
import HermesA2A.SpeechRequests
import HermesA2A.Discovery
import HermesA2A.AgentList
import HermesA2A.Lifecycle
