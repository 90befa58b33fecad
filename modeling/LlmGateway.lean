import LlmGateway.Lib.ReadCommitted
import LlmGateway.Lib.LockFrames
import LlmGateway.Lib.ProofOutline
import LlmGateway.Lib.TableSum
import LlmGateway.Ledger.Port
import LlmGateway.Ledger.Uuid
import LlmGateway.Ledger.Sql
import LlmGateway.Ledger.SqlEffects
import LlmGateway.Ledger.SqlOutline
import LlmGateway.Ledger.SqlRefinement
import LlmGateway.Ledger.Posting
import LlmGateway.Ledger.Conservation
import LlmGateway.Ledger.Limit
import LlmGateway.Ledger.Spend
import LlmGateway.Ledger.Reclaim
import LlmGateway.Lib.Serial
import LlmGateway.Lib.Dict
import LlmGateway.Ledger.SqlSerial
import LlmGateway.Ledger.SqlHold
import LlmGateway.Ledger.InMemory
import LlmGateway.Ledger.Mirror
import LlmGateway.Ledger.MirrorSteps
import LlmGateway.Ledger.MirrorSweep
import LlmGateway.Ledger.Parity
import LlmGateway.Ledger.Configuring
import LlmGateway.Ledger.LockOrder
import LlmGateway.Lib.Decimal
import LlmGateway.Accounting.Cost
import LlmGateway.Accounting.Exact
import LlmGateway.Accounting.SqlPrices
import LlmGateway.Execution.Operation
import LlmGateway.Execution.OwnHold
import LlmGateway.Execution.HoldSteps
import LlmGateway.Execution.Identity
import LlmGateway.Lib.AsyncGenerator
import LlmGateway.Streaming.Coordinator
import LlmGateway.Streaming.Finalized
import LlmGateway.Gateway.System
import LlmGateway.Gateway.Steps
import LlmGateway.Gateway.OwnAnswer
import LlmGateway.Gateway.Books
import LlmGateway.Gateway.Paid
import LlmGateway.Lib.Machine
import LlmGateway.Lib.OrderBy
import LlmGateway.Lib.Text
import LlmGateway.Health.Cooldown
import LlmGateway.Routing.Agents
import LlmGateway.Routing.Probe
import LlmGateway.Routing.Engine
import LlmGateway.Routing.EndToEnd
import LlmGateway.Persistence.CatalogTables
import LlmGateway.Routing.SqlCatalog
import LlmGateway.RateLimit.TokenBucket
import LlmGateway.RateLimit.RetryAfter
import LlmGateway.RateLimit.Redis
import LlmGateway.RateLimit.BackwardClock
import LlmGateway.RateLimit.Degraded
import LlmGateway.Execution.ResponseCache
import LlmGateway.Gateway.CacheSound
import LlmGateway.Streaming.Parity
import LlmGateway.Streaming.Relayed
import LlmGateway.Serving.Pipeline
import LlmGateway.Serving.InferenceService
import LlmGateway.Audit.Chain
import LlmGateway.Audit.TamperEvidence
import LlmGateway.Audit.SqlSink
import LlmGateway.Audit.OneChain
import LlmGateway.Lib.Interleaved
import LlmGateway.Auth.Store
import LlmGateway.Auth.Ports
import LlmGateway.Auth.Sessions
import LlmGateway.Auth.Redemption
import LlmGateway.Auth.Families
import LlmGateway.Auth.OidcLogin
import LlmGateway.Auth.OneSession
import LlmGateway.Lib.Base64
import LlmGateway.Lib.Str
import LlmGateway.Lib.PyInt
import LlmGateway.Auth.UuidText
import LlmGateway.Auth.OidcState
import LlmGateway.Auth.KeyProvider
import LlmGateway.Auth.Rotation
import LlmGateway.Lib.Json
import LlmGateway.Auth.JwksCache
import LlmGateway.Auth.JwksThrottle
import LlmGateway.Auth.JwksFreshness
import LlmGateway.Serving.BodyLimit
import LlmGateway.Streaming.ProviderLines
import LlmGateway.Lib.JsonText
import LlmGateway.Lib.JsonCanon
import LlmGateway.Execution.CacheIdentity
import LlmGateway.Lib.Sse
import LlmGateway.Streaming.SseFrames
import LlmGateway.Lib.Binary64
import LlmGateway.Lib.Timedelta
import LlmGateway.Execution.HoldsElsewhere
import LlmGateway.Reflection.RetryPolicy
import LlmGateway.Reflection.ReflectiveExecutor
import LlmGateway.Reflection.Charges
import LlmGateway.Lib.Delimited
import LlmGateway.Migrations.SqlScript
import LlmGateway.Migrations.Lexemes
import LlmGateway.Migrations.Scanner
import LlmGateway.Migrations.Segments
import LlmGateway.Migrations.CommentFilter
import LlmGateway.Migrations.SplitExact
import LlmGateway.Migrations.Stable
import LlmGateway.Lib.OrderedDict
import LlmGateway.Tools.Registry
import LlmGateway.Tools.Lookup
import LlmGateway.Lib.Futures
import LlmGateway.Lib.Shield
import LlmGateway.Execution.Deduplicator
import LlmGateway.Persistence.UnitOfWork
import LlmGateway.Persistence.Binding
import LlmGateway.Persistence.Isolation
import LlmGateway.Persistence.Unbound
import LlmGateway.Lib.Unique
import LlmGateway.Auth.ApiKeys
import LlmGateway.Auth.TokenService
import LlmGateway.Auth.ServiceAccounts
import LlmGateway.Authorization.Resolver
import LlmGateway.Authorization.Seed
import LlmGateway.Serving.Stages
import LlmGateway.Serving.Ruling
import LlmGateway.Serving.Invocation
import LlmGateway.Lib.Process
import LlmGateway.Serving.Ingress
import LlmGateway.Serving.Arrivals
import LlmGateway.Serving.IngressSafe
import LlmGateway.Serving.IngressLimit
import LlmGateway.Auth.OidcProvider
import LlmGateway.Auth.OneIdToken
import LlmGateway.Execution.SqlResponseCache
