import Lakehouse.Lib.DecimalPlaces
import Lakehouse.Lib.Joined
import Lakehouse.Lib.JsonWriter
import Lakehouse.Lib.Rounding
import Lakehouse.Lib.Sha256
import Lakehouse.Loader.CatchUp
import Lakehouse.Loader.Duplication
import Lakehouse.Loader.DurabilityStatus
import Lakehouse.Loader.Flush
import Lakehouse.Loader.Lag
import Lakehouse.Loader.PayloadHash
import Lakehouse.Loader.Segmentation
import Lakehouse.Loader.StallClock
import Lakehouse.Loader.TableStatistics
import Lakehouse.Loader.Termination
import Lakehouse.Loader.WindowRun
import Lakehouse.Catalog.Migrator
import Lakehouse.Extractor.FirstElement
import Lakehouse.Extractor.Handshake
import Lakehouse.Extractor.MetricsSnapshot
import Lakehouse.Extractor.Shutdown
import Lakehouse.Compaction.Acceptance
import Lakehouse.Compaction.BatchCommand
import Lakehouse.Compaction.Fence
import Lakehouse.Compaction.Job
import Lakehouse.Compaction.QuietWindow
import Lakehouse.Compaction.Submitter
import Lakehouse.Dashboard.CommitHistory
import Lakehouse.Dashboard.CostRow
import Lakehouse.Dashboard.Exports
import Lakehouse.Dashboard.Filters
import Lakehouse.Dashboard.HealthRules
import Lakehouse.Dashboard.Informational
import Lakehouse.Dashboard.LatestHeartbeat
import Lakehouse.Dashboard.Malformed
import Lakehouse.Dashboard.Page
import Lakehouse.Dashboard.PublicSafe
import Lakehouse.Dashboard.Publish
import Lakehouse.Dashboard.ReadingOrder
import Lakehouse.Dashboard.Rendering
import Lakehouse.Dashboard.Resolution
import Lakehouse.Dashboard.Schedule
import Lakehouse.Dashboard.Sessions
import Lakehouse.Dashboard.SnapshotReturns
import Lakehouse.Dashboard.Timestamps
import Lakehouse.Contract.CleanShutdown
import Lakehouse.Contract.Counters
import Lakehouse.Contract.EndToEnd
import Lakehouse.Contract.FailureEvents
import Lakehouse.Contract.InstantText
import Lakehouse.Contract.PageCounters
import Lakehouse.Contract.Topic
