import SecAudit.Py.Text
import SecAudit.Prog.Pool
import SecAudit.Py.Json
import SecAudit.Py.JsonParse
import SecAudit.Data.Expiring
import SecAudit.Stores.Blocks
import SecAudit.Stores.Backend
import SecAudit.Stores.Redis
import SecAudit.Stores.Tiered
import SecAudit.Stores.Reads
import SecAudit.Stores.Ops
import SecAudit.Stores.Refine
import SecAudit.Stores.Agree
import SecAudit.Stores.Trace
import SecAudit.Stores.Outage
import SecAudit.Stores.Workers
import SecAudit.Stores.Bans
import SecAudit.Core.Scrub
import SecAudit.Stores.Releases
import SecAudit.Core.Projection
import SecAudit.Core.Events
import SecAudit.Core.Config
import SecAudit.Logging.Record
import SecAudit.Logging.Line
import SecAudit.Logging.Gate
import SecAudit.Prog.Trace
import SecAudit.Rules.Events
import SecAudit.Rules.Scopes
import SecAudit.Enforce.Actions
import SecAudit.Enforce.Emit
import SecAudit.Core.Plain
import SecAudit.Rules.Calls
import SecAudit.Rules.Summary
import SecAudit.Rules.Engine
import SecAudit.Django.Ip
import SecAudit.Data.Dict
import SecAudit.Data.Windows
import SecAudit.Rules.Counters
import SecAudit.Rules.RedisCounters
import SecAudit.Data.Recent
import SecAudit.Py.JsonSort
import SecAudit.Rules.History
import SecAudit.Stores.Alone
import SecAudit.Stores.Interchange
import SecAudit.Stores.Transparent
import SecAudit.Rules.Isolation
import SecAudit.Enforce.Enforcer
import SecAudit.Prog.Only
import SecAudit.Rules.Readers
import SecAudit.Enforce.Identity
import SecAudit.Enforce.Permanent
import SecAudit.Enforce.Runtime
import SecAudit.Enforce.Feedback
import SecAudit.Enforce.Plan
import SecAudit.Enforce.Trail
import SecAudit.Enforce.Removals
import SecAudit.Django.Request
import SecAudit.Enforce.Middleware
import SecAudit.Enforce.FailClosed
import SecAudit.Rules.Eviction
import SecAudit.Core.Admit
import SecAudit.Core.Coverage
import SecAudit.Rules.Survival
import SecAudit.Core.Shown
import SecAudit.Logging.Emission
import SecAudit.Core.Legible
import SecAudit.Logging.Reported
import SecAudit.Core.Limits
import SecAudit.Data.Merge
import SecAudit.Rules.ScopedHistory
import SecAudit.Enforce.Policy
import SecAudit.Rules.Live
import SecAudit.Rules.BruteForce
import SecAudit.Rules.Enumeration
import SecAudit.Django.Events
import SecAudit.Django.RequestInfo
import SecAudit.Enforce.Dimensions
import SecAudit.Core.Frozen
import SecAudit.Data.Lru
import SecAudit.Rules.Recency
import SecAudit.Rules.Restriction
import SecAudit.Data.Addressed
import SecAudit.Rules.Routes
import SecAudit.Stores.Apart
import SecAudit.Stores.Payload
import SecAudit.Rules.Apart
import SecAudit.Logging.Protected
import SecAudit.Core.Safe
import SecAudit.Logging.Idempotent
import SecAudit.Data.Ledger
import SecAudit.Stores.Ledger
import SecAudit.Data.Limiter
import SecAudit.Core.Diagnostics
import SecAudit.Prog.OnceRuns
import SecAudit.Prog.Steps
import SecAudit.Enforce.Runtimes
import SecAudit.Django.Runtime
import SecAudit.Django.Body
import SecAudit.Django.Middleware
import SecAudit.Django.Receivers
import SecAudit.Django.Correlation
import SecAudit.Data.Precedence
import SecAudit.Enforce.Precedence
import SecAudit.Enforce.Boot
import SecAudit.Enforce.Matched
import SecAudit.Enforce.Defaults
import SecAudit.Data.Tumbling
import SecAudit.Rules.Repeated
import SecAudit.Rules.Changes
import SecAudit.Enforce.Changes
import SecAudit.Rules.Inspection
import SecAudit.Enforce.Unfed
