import OtelLogger.Library.MapTotal
import OtelLogger.Library.Accounts
import OtelLogger.Library.Projection
import OtelLogger.Library.Interleaving
import OtelLogger.Library.Progress
import OtelLogger.Library.Validation
import OtelLogger.Library.Delimited
import OtelLogger.Library.DataModel
import OtelLogger.Library.Markup
import OtelLogger.Library.PrefixCode
import OtelLogger.Library.Noninterference
import OtelLogger.Number
import OtelLogger.Otlp
import OtelLogger.UsageStats
import OtelLogger.Buckets
import OtelLogger.AggregatorCore
import OtelLogger.AggregatorRun
import OtelLogger.AgentLedger
import OtelLogger.ClaudeFold
import OtelLogger.Steps
import OtelLogger.ClaudeLedger
import OtelLogger.ClaudeSources
import OtelLogger.CodexLedger
import OtelLogger.CodexSteps
import OtelLogger.Runs
import OtelLogger.Coverage
import OtelLogger.Deduplication
import OtelLogger.Conversations
import OtelLogger.Isolation
import OtelLogger.Convergence
import OtelLogger.ArrivalOrder
import OtelLogger.BareNames
import OtelLogger.LogUsage
import OtelLogger.SummarySignal
import OtelLogger.AppendStorage
import OtelLogger.Disk
import OtelLogger.TransactionalAppend
import OtelLogger.AppendFile
import OtelLogger.CalendarDate
import OtelLogger.DailyWriter
import OtelLogger.Retention
import OtelLogger.DailyNames
import OtelLogger.Sink
import OtelLogger.FinalSync
import OtelLogger.SinkSteps
import OtelLogger.Server
import OtelLogger.Intake
import OtelLogger.ProxySettings
import OtelLogger.ProxyHeaders
import OtelLogger.Router
import OtelLogger.Delivery
import OtelLogger.ProtoJson
import OtelLogger.Format
import OtelLogger.FormatSafety
import OtelLogger.FormatQuoting
import OtelLogger.FormatSize
import OtelLogger.Separation
import OtelLogger.Snapshot
import OtelLogger.SessionRecord
import OtelLogger.PendingUsage
import OtelLogger.SessionMessages
import OtelLogger.Redelivery
import OtelLogger.PrefixScan
import OtelLogger.Retry
import OtelLogger.TailRecovery
import OtelLogger.TurnMetrics
import OtelLogger.DiagnosticLedger
import OtelLogger.DiagnosticFraming
import OtelLogger.WriteHealth
import OtelLogger.PrettyQueue
import OtelLogger.CodexTotals
import OtelLogger.PrettyWriter
import OtelLogger.PrettyFiles
import OtelLogger.Pipeline
import OtelLogger.Service
import OtelLogger.Startup
import OtelLogger.WriterEffects
import OtelLogger.LogDirectory
import OtelLogger.DirectoryTexts
import OtelLogger.Installation
import OtelLogger.RequestLines
