import Dbmaster.Approval.Finality
import Dbmaster.Auth.PasswordChange
import Dbmaster.Auth.Rotation
import Dbmaster.Auth.Tokens
import Dbmaster.Connections.Canary
import Dbmaster.Connections.CanaryAgreement
import Dbmaster.Connections.Updates
import Dbmaster.DataSync.Accounting
import Dbmaster.DataSync.Overlap
import Dbmaster.DataSync.PgLiterals
import Dbmaster.DataSync.Probe
import Dbmaster.DataSync.Retries
import Dbmaster.DataSync.Termination
import Dbmaster.DataSync.Truncate
import Dbmaster.DbHandler.ChLiteral
import Dbmaster.DbHandler.MutationGate
import Dbmaster.DbHandler.MysqlFamily
import Dbmaster.DbHandler.PgColumns
import Dbmaster.DbHandler.ResultRows
import Dbmaster.DbHandler.Routing
import Dbmaster.DbHandler.ScriptSession
import Dbmaster.DbHandler.WireMessage
import Dbmaster.Drift.History
import Dbmaster.Drift.RowOrder
import Dbmaster.Drift.Symmetry
import Dbmaster.Gateway.AclHistory
import Dbmaster.Gateway.Batches
import Dbmaster.Gateway.Disconnect
import Dbmaster.Gateway.ReadOnly
import Dbmaster.Gateway.Register
import Dbmaster.Gateway.Registry
import Dbmaster.Gateway.Respelling
import Dbmaster.Gateway.Subscriptions
import Dbmaster.Gateway.Terminal
import Dbmaster.HealthCheck.Alternation
import Dbmaster.HealthCheck.Connectivity
import Dbmaster.HealthCheck.MissingPk
import Dbmaster.HealthCheck.Overlap
import Dbmaster.HealthCheck.Replay
import Dbmaster.HealthCheck.Threshold
import Dbmaster.Lib.Balanced
import Dbmaster.Lib.FirstFew
import Dbmaster.Lib.JsonText
import Dbmaster.Lib.TopList
import Dbmaster.Lib.Url
import Dbmaster.License.Activation
import Dbmaster.License.Expiry
import Dbmaster.License.Instance
import Dbmaster.License.Trial
import Dbmaster.Mcp.Access
import Dbmaster.Mcp.Tools
import Dbmaster.Metadata.CsvColumns
import Dbmaster.Metadata.DefaultParens
import Dbmaster.Metadata.Describe
import Dbmaster.Metadata.PgNames
import Dbmaster.Metadata.Sampled
import Dbmaster.Mongo.Cursor
import Dbmaster.NativeCollector.Counting
import Dbmaster.NativeCollector.Keys
import Dbmaster.NativeCollector.NotLost
import Dbmaster.Notify.WebhookUrl
import Dbmaster.QueryStats.Identifiers
import Dbmaster.QueryStats.Literals
import Dbmaster.QueryStats.Recorder
import Dbmaster.QueryStats.Rotate
import Dbmaster.RateLimit.Gated
import Dbmaster.RateLimit.Limiter
import Dbmaster.Redis.SemanticRows
import Dbmaster.Reports.Breakdowns
import Dbmaster.Reports.Summary
import Dbmaster.Reports.Weekly
import Dbmaster.Risk.Dialects
import Dbmaster.Risk.Merge
import Dbmaster.SavedQueries.TagFilter
import Dbmaster.SqlSplit.Agreement
import Dbmaster.SqlSplit.Comments
import Dbmaster.SqlSplit.DdlSoundness
import Dbmaster.SqlSplit.FailClosed
import Dbmaster.SqlSplit.Preserve
import Dbmaster.Ssh.Tunnels
import Dbmaster.Tasks.Channels
import Dbmaster.Tasks.InFlight
import Dbmaster.Telemetry.ClientIp
import Dbmaster.Telemetry.Ingest
import Dbmaster.Txn.Finality
import Dbmaster.Workspaces.Admins
