import NginLog.Foundation.Transition
import NginLog.Foundation.Ranking
import NginLog.Foundation.FamilySum
import NginLog.Foundation.Watermark
import NginLog.Foundation.Mutex
import NginLog.Foundation.ConditionVariable
import NginLog.Foundation.Ring
import NginLog.Foundation.BoundedFifo
import NginLog.Foundation.Decimal
import NginLog.Foundation.KeyedMerge
import NginLog.Foundation.KeyedTable
import NginLog.Foundation.Clip
import NginLog.Foundation.Json
import NginLog.Foundation.FixedWidth
import NginLog.Foundation.JsonMembers
import NginLog.Foundation.JsonReader
import NginLog.Foundation.JsonSoundness
import NginLog.Foundation.Buffer
import NginLog.Foundation.Utf8
import NginLog.Foundation.Logfmt
import NginLog.Foundation.Quoting
import NginLog.Foundation.Directory
import NginLog.Foundation.Handle
import NginLog.Foundation.Lines
import NginLog.Foundation.Timeline
import NginLog.Record.Types
import NginLog.Record.TextPool
import NginLog.Record.Builder
import NginLog.Record.BuilderStorage
import NginLog.Record.Dispatch
import NginLog.Logging.Logger
import NginLog.Logging.Reentry
import NginLog.Logging.SharedLogger
import NginLog.Logging.SnapshotDispatch
import NginLog.Context.Scopes
import NginLog.Context.Reassignment
import NginLog.Context.Restoration
import NginLog.Context.NestedScopes
import NginLog.Context.PushFailures
import NginLog.Record.LaterWins
import NginLog.Record.TextTruncation
import NginLog.Record.CutTexts
import NginLog.Record.BuilderRuns
import NginLog.Record.TruncatedBytes
import NginLog.Record.InnermostWins
import NginLog.Record.MergeOrder
import NginLog.Record.Normalization
import NginLog.Formatting.Utilities
import NginLog.Formatting.Calendar
import NginLog.Formatting.TimestampOrder
import NginLog.Formatting.JsonRecordFormatter
import NginLog.Formatting.BareText
import NginLog.Formatting.JsonDoubles
import NginLog.Formatting.JsonRoundTrip
import NginLog.Formatting.RecordFormatter
import NginLog.Formatting.TimestampCache
import NginLog.Formatting.PhysicalLine
import NginLog.Formatting.LogFmtRoundTrip
import NginLog.Formatting.QuotedText
import NginLog.Registry.LoggerRegistry
import NginLog.Registry.Agreement
import NginLog.Registry.RuleUpdates
import NginLog.Registry.RuleTable
import NginLog.Registry.RequestedLevel
import NginLog.Registry.Pointers
import NginLog.Registry.LoggerNames
import NginLog.Sinks.FileSink
import NginLog.Sinks.BufferedFile
import NginLog.Sinks.LogReading
import NginLog.Sinks.ConsoleSink
import NginLog.Sinks.RotatingFileSink
import NginLog.Sinks.NumberedFiles
import NginLog.Sinks.Retention
import NginLog.Sinks.RotationCrash
import NginLog.Sinks.DiskQuota
import NginLog.Sinks.RotationFaults
import NginLog.Sinks.DailyRotation
import NginLog.Sinks.SizeLimit
import NginLog.Sinks.ArchiveSlots
import NginLog.Sinks.ExternalRotation
import NginLog.Async.Owned
import NginLog.Async.Queue
import NginLog.Async.BoundedFifo
import NginLog.Async.Machine
import NginLog.Async.Routines
import NginLog.Async.Counters
import NginLog.Async.Outstanding
import NginLog.Async.Fifo
import NginLog.Async.Ledger
import NginLog.Async.Shutdown
import NginLog.Async.Delivery
import NginLog.Async.RoundTrip
import NginLog.Async.Transparency
import NginLog.Formatting.JsonUtf8
import NginLog.Async.Accounting
import NginLog.Async.SpaceWakeup
import NginLog.Async.FlushWakeup
import NginLog.Async.DropAccounting
import NginLog.Async.Snapshots
import NginLog.Async.HighWatermark
import NginLog.Async.DropReports
import NginLog.Async.FlushCompleteness
import NginLog.Async.Progress
import NginLog.Async.BoundedDelivery
import NginLog.Async.Termination
import NginLog.Async.BoundedWrite
import NginLog.Async.DurableFlush
import NginLog.Async.ReadableLog
import NginLog.Async.SettlingRank
import NginLog.Async.CallsReturn
import NginLog.Logging.ErrorCount
import NginLog.Logging.SoloCall
