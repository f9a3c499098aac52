import WazuhMcp.Auth.ApiKey
import WazuhMcp.Auth.Audience
import WazuhMcp.Auth.BearerRouting
import WazuhMcp.Auth.Chain
import WazuhMcp.Auth.IssuerTrust
import WazuhMcp.Auth.JwksColdStart
import WazuhMcp.Auth.KeyVerification
import WazuhMcp.Auth.OAuth
import WazuhMcp.Auth.Session
import WazuhMcp.Auth.Soundness
import WazuhMcp.Auth.TokenFactory
import WazuhMcp.Base.DictKey
import WazuhMcp.Base.Errors
import WazuhMcp.Base.Json
import WazuhMcp.Base.JsonDumps
import WazuhMcp.Base.Yaml
import WazuhMcp.Eval.Counting
import WazuhMcp.Eval.Gate
import WazuhMcp.Eval.Score
import WazuhMcp.Foundations.Binary64
import WazuhMcp.Foundations.Broadcast
import WazuhMcp.Foundations.Bucket
import WazuhMcp.Foundations.ClockedBucket
import WazuhMcp.Foundations.Dict
import WazuhMcp.Foundations.Expense
import WazuhMcp.Foundations.Interpret
import WazuhMcp.Foundations.Journal
import WazuhMcp.Foundations.JsonText
import WazuhMcp.Foundations.Ledger
import WazuhMcp.Foundations.Likeness
import WazuhMcp.Foundations.Lines
import WazuhMcp.Foundations.Numeral
import WazuhMcp.Foundations.Observe
import WazuhMcp.Foundations.Paging
import WazuhMcp.Foundations.Pool
import WazuhMcp.Foundations.Prog
import WazuhMcp.Foundations.RollCall
import WazuhMcp.Foundations.Rotation
import WazuhMcp.Foundations.Runs
import WazuhMcp.Foundations.SortedDict
import WazuhMcp.Foundations.StemPattern
import WazuhMcp.Foundations.Substring
import WazuhMcp.Foundations.Tally
import WazuhMcp.Foundations.TaskQueue
import WazuhMcp.Foundations.Text
import WazuhMcp.Foundations.Upsert
import WazuhMcp.Foundations.Xml
import WazuhMcp.Observability.Accounting
import WazuhMcp.Observability.Audit
import WazuhMcp.Observability.Decorators
import WazuhMcp.Observability.EmittedEvent
import WazuhMcp.Observability.Emitter
import WazuhMcp.Observability.Lifecycle
import WazuhMcp.Observability.Pipeline
import WazuhMcp.Observability.Sinks.Base
import WazuhMcp.Observability.Sinks.BulkBody
import WazuhMcp.Observability.Sinks.Conservation
import WazuhMcp.Observability.Sinks.Discipline
import WazuhMcp.Observability.Sinks.Documents
import WazuhMcp.Observability.Sinks.File
import WazuhMcp.Observability.Sinks.Flush
import WazuhMcp.Observability.Sinks.JsonLines
import WazuhMcp.Observability.Sinks.Queued
import WazuhMcp.RateLimit.Breaker
import WazuhMcp.RateLimit.BucketRuns
import WazuhMcp.RateLimit.Budgets
import WazuhMcp.RateLimit.Fleet
import WazuhMcp.RateLimit.FleetBound
import WazuhMcp.RateLimit.Granted
import WazuhMcp.RateLimit.Isolation
import WazuhMcp.RateLimit.Keys
import WazuhMcp.RateLimit.Limiter
import WazuhMcp.RateLimit.LuaBucket
import WazuhMcp.RateLimit.Recovery
import WazuhMcp.RateLimit.RedisLimiter
import WazuhMcp.RateLimit.Refinement
import WazuhMcp.RateLimit.TokenBucket
import WazuhMcp.Rbac.Policy
import WazuhMcp.Rbac.Roles
import WazuhMcp.Secrets.Rotation
import WazuhMcp.Secrets.SingleFlight
import WazuhMcp.Secrets.YamlDriver
import WazuhMcp.Server.AccessAudit
import WazuhMcp.Server.Accesses
import WazuhMcp.Server.ActiveResponse
import WazuhMcp.Server.ArgsModel
import WazuhMcp.Server.Attribution
import WazuhMcp.Server.EntryPoints
import WazuhMcp.Server.Fanout
import WazuhMcp.Server.HttpApp
import WazuhMcp.Server.Interleaving
import WazuhMcp.Server.LeastPrivilege
import WazuhMcp.Server.NonInterference
import WazuhMcp.Server.Registration
import WazuhMcp.Server.Resources
import WazuhMcp.Server.Signature
import WazuhMcp.Server.StdioClients
import WazuhMcp.Server.Steps
import WazuhMcp.Server.Throughput
import WazuhMcp.Server.TokenSecrecy
import WazuhMcp.Server.ToolCall
import WazuhMcp.Server.WireAudit
import WazuhMcp.Server.WriteAllowlist
import WazuhMcp.Tenancy.Config
import WazuhMcp.Tenancy.IssuerIndex
import WazuhMcp.Tenancy.Settings
import WazuhMcp.Tools.Composition
import WazuhMcp.Tools.HuntSafety
import WazuhMcp.Tools.HuntSemantics
import WazuhMcp.Tools.Identifiers
import WazuhMcp.Tools.MitreQuery
import WazuhMcp.Tools.Paging
import WazuhMcp.Tools.Reference
import WazuhMcp.Tools.RuleFile
import WazuhMcp.Tools.Search
import WazuhMcp.Tools.SearchIndex
import WazuhMcp.Tools.SearchMeaning
import WazuhMcp.Tools.Targets
import WazuhMcp.Tools.TimeRange
import WazuhMcp.Tools.Write
import WazuhMcp.Tools.WriteResults
import WazuhMcp.Transport.Http
import WazuhMcp.Transport.SessionCtx
import WazuhMcp.Wazuh.ClientPools
import WazuhMcp.Wazuh.Exchanges
import WazuhMcp.Wazuh.GroupFanout
import WazuhMcp.Wazuh.Indexer
import WazuhMcp.Wazuh.Models
import WazuhMcp.Wazuh.OpenSearch
import WazuhMcp.Wazuh.PoolClients
import WazuhMcp.Wazuh.PoolSafety
import WazuhMcp.Wazuh.PoolShutdown
import WazuhMcp.Wazuh.QueryGrammar
import WazuhMcp.Wazuh.RequestPaths
import WazuhMcp.Wazuh.RuleRender
import WazuhMcp.Wazuh.Scrubbing
import WazuhMcp.Wazuh.ServerApi
import WazuhMcp.Wazuh.ServerApiUrl
import WazuhMcp.Wazuh.TokenCache
import WazuhMcp.Wazuh.TokenRefresh
import WazuhMcp.Wazuh.Upstream
