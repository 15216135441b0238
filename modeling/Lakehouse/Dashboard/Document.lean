/-
The dashboard document `build_snapshot` returns.

One record for each object of the document, with the object it is written as
(`toJson`). A field that is only ever a formatted or a validated text has a type
that says so: a `UtcText` is what `utc_text` wrote, a `Currency`, a `Day` and a
`ServiceName` have passed their check.
-/

import Lakehouse.Dashboard.PyTime

namespace Lakehouse.Dashboard

/-- `None` or a value. -/
def orNull {α : Type} (toJson : α → Json) : Option α → Json
  | none => .null
  | some x => toJson x

/-! ### Texts and numbers -/

/-- A text written by `utc_text`. -/
structure UtcText where
  text : String
  written : ∃ t, text = utcText t

def UtcText.of (t : Utc) : UtcText := ⟨utcText t, t, rfl⟩

def UtcText.toJson (s : UtcText) : Json := .str s.text

/-- `re.fullmatch(r"[A-Z]{3}", text)`. -/
def isCurrency (text : String) : Bool := text.toList.length == 3 && text.toList.all Char.isUpper

/-- A currency code. -/
structure Currency where
  text : String
  accepted : isCurrency text = true

/-- A day of the cost snapshot. -/
structure Day where
  text : String
  accepted : (fromisoformat text).isSome = true

def isServiceChar (c : Char) : Bool := c.isAlphanum || " .&()+/_-".toList.contains c

/-- `SAFE_SERVICE_NAME_PATTERN.fullmatch(text)`. -/
def isServiceName (text : String) : Bool :=
  decide (1 ≤ text.toList.length ∧ text.toList.length ≤ 96) && text.toList.all isServiceChar

structure ServiceName where
  text : String
  accepted : isServiceName text = true

/-- A Python integer as `isinstance(value, int)` understands it. -/
inductive Whole where
  | int (n : Int)
  | bool (b : Bool)
deriving DecidableEq, Repr

def Whole.toJson : Whole → Json
  | .int n => .int n
  | .bool b => .bool b

def Whole.value : Whole → Int
  | .int n => n
  | .bool b => if b then 1 else 0

/-! ### Market and health -/

inductive MarketState where
  | weekend
  | preOpen
  | marketOpen
  | settling
  | closed
deriving DecidableEq, Repr

def MarketState.text : MarketState → String
  | .weekend => "weekend"
  | .preOpen => "pre_open"
  | .marketOpen => "market_open"
  | .settling => "settling"
  | .closed => "closed"

inductive HealthStatus where
  | healthy
  | warning
  | unhealthy
  | unknown
deriving DecidableEq, Repr

def HealthStatus.text : HealthStatus → String
  | .healthy => "healthy"
  | .warning => "warning"
  | .unhealthy => "unhealthy"
  | .unknown => "unknown"

/-- The timestamps whose age is checked. -/
inductive Signal where
  | extractorBar
  | loaderCommit
  | loaderHeartbeat
deriving DecidableEq, Repr

def Signal.text : Signal → String
  | .extractorBar => "extractor_bar"
  | .loaderCommit => "loader_commit"
  | .loaderHeartbeat => "loader_heartbeat"

inductive HealthReason where
  | missing (s : Signal)
  | stale (s : Signal)
  | aging (s : Signal)
  | awaitingCleanShutdown
  | noRecentSession
  | loaderStalled
  | recentError
deriving DecidableEq, Repr

def HealthReason.text : HealthReason → String
  | .missing s => "missing_" ++ s.text
  | .stale s => "stale_" ++ s.text
  | .aging s => "aging_" ++ s.text
  | .awaitingCleanShutdown => "awaiting_clean_shutdown"
  | .noRecentSession => "no_recent_session"
  | .loaderStalled => "loader_stalled"
  | .recentError => "recent_error"

structure Health where
  status : HealthStatus
  reasons : List HealthReason
deriving DecidableEq, Repr

def Health.toJson (h : Health) : Json :=
  .obj [("status", .str h.status.text), ("reasons", .arr (h.reasons.map fun r => .str r.text))]

/-! ### Loader events and alerts -/

/-- `LOADER_FAILURE_EVENTS`. -/
inductive LoaderFailure where
  | dataFileWriteFailed
  | icebergCommitFailed
  | icebergCommitStateUnknown
  | offsetCommitFailed
  | loaderFailed
deriving DecidableEq, Repr

def LoaderFailure.event : LoaderFailure → String
  | .dataFileWriteFailed => "data_file_write_failed"
  | .icebergCommitFailed => "iceberg_commit_failed"
  | .icebergCommitStateUnknown => "iceberg_commit_state_unknown"
  | .offsetCommitFailed => "offset_commit_failed"
  | .loaderFailed => "loader_failed"

def LoaderFailure.all : List LoaderFailure :=
  [.dataFileWriteFailed, .icebergCommitFailed, .icebergCommitStateUnknown, .offsetCommitFailed,
    .loaderFailed]

/-- `_loader_failure_code`. -/
def loaderFailureCode (f : LoaderFailure) : String :=
  if startsWith f.event "loader_" then f.event else "loader_" ++ f.event

inductive Component where
  | extractor
  | loader
deriving DecidableEq, Repr

def Component.text : Component → String
  | .extractor => "extractor"
  | .loader => "loader"

inductive Severity where
  | error
  | warning
deriving DecidableEq, Repr

def Severity.text : Severity → String
  | .error => "ERROR"
  | .warning => "WARNING"

/-- The codes of `_alert_code`, behind the component's name, and of
`_loader_failure_code`. -/
inductive AlertCode where
  | deliveryFailure (c : Component)
  | authentication (c : Component)
  | commitFailure (c : Component)
  | warning (c : Component)
  | failure (f : LoaderFailure)
deriving DecidableEq, Repr

def AlertCode.text : AlertCode → String
  | .deliveryFailure c => c.text ++ "_delivery_failure"
  | .authentication c => c.text ++ "_authentication"
  | .commitFailure c => c.text ++ "_commit_failure"
  | .warning c => c.text ++ "_warning"
  | .failure f => loaderFailureCode f

structure Alert where
  atUtc : UtcText
  component : Component
  severity : Severity
  code : AlertCode

def Alert.toJson (a : Alert) : Json :=
  .obj [("at_utc", a.atUtc.toJson), ("component", .str a.component.text),
    ("severity", .str a.severity.text), ("code", .str a.code.text)]

/-! ### Extractor and loader -/

inductive ExtractorStatus where
  | cleanShutdown
  | observed
  | noRecentSession
deriving DecidableEq, Repr

def ExtractorStatus.text : ExtractorStatus → String
  | .cleanShutdown => "clean_shutdown"
  | .observed => "observed"
  | .noRecentSession => "no_recent_session"

/-- `shutdown_reason` is `idle_window` or nothing. -/
structure ExtractorSummary where
  status : ExtractorStatus
  lastEventUtc : Option UtcText
  lastBarUtc : Json
  messagesReceived : Option Whole
  messagesSent : Option Whole
  deliveryFailures : Option Whole
  errors : Option Whole
  finalMetricsAtUtc : Option UtcText
  idleWindow : Bool

def ExtractorSummary.toJson (s : ExtractorSummary) : Json :=
  .obj [("status", .str s.status.text), ("last_event_utc", orNull UtcText.toJson s.lastEventUtc),
    ("last_bar_utc", s.lastBarUtc), ("messages_received", orNull Whole.toJson s.messagesReceived),
    ("messages_sent", orNull Whole.toJson s.messagesSent),
    ("delivery_failures", orNull Whole.toJson s.deliveryFailures),
    ("errors", orNull Whole.toJson s.errors),
    ("final_metrics_at_utc", orNull UtcText.toJson s.finalMetricsAtUtc),
    ("shutdown_reason", if s.idleWindow then .str "idle_window" else .null)]

structure Commit where
  atUtc : UtcText
  bars : Option Whole
  sourceRecords : Option Whole
  durationMs : Option Whole

def Commit.toJson (c : Commit) : Json :=
  .obj [("at_utc", c.atUtc.toJson), ("bars", orNull Whole.toJson c.bars),
    ("source_records", orNull Whole.toJson c.sourceRecords),
    ("duration_ms", orNull Whole.toJson c.durationMs)]

structure PartitionRow where
  partition : Whole
  committedOffset : Whole
  endOffset : Whole
  lagRecords : Whole

def PartitionRow.toJson (p : PartitionRow) : Json :=
  .obj [("partition", p.partition.toJson), ("committed_offset", p.committedOffset.toJson),
    ("end_offset", p.endOffset.toJson), ("lag_records", p.lagRecords.toJson)]

inductive LoaderStatus where
  | observed
  | noRecentSignal
deriving DecidableEq, Repr

def LoaderStatus.text : LoaderStatus → String
  | .observed => "observed"
  | .noRecentSignal => "no_recent_signal"

structure LoaderSummary where
  status : LoaderStatus
  state : Option String
  latestHeartbeatUtc : Option UtcText
  processStartedAtUtc : Option UtcText
  lastInputUtc : Option UtcText
  lastCommitUtc : Option UtcText
  lastCommitDurationMs : Option Whole
  aggregateLagRecords : Option Whole
  bufferedBars : Option Whole
  bufferedSourceRecords : Option Whole
  partitions : List PartitionRow
  failureCount : Nat
  failureCountIsCapped : Bool
  lastFailureUtc : Option UtcText
  lastFailureCode : Option LoaderFailure
  recentCommits : List Commit

def LoaderSummary.toJson (s : LoaderSummary) : Json :=
  .obj [("status", .str s.status.text), ("state", orNull .str s.state),
    ("latest_heartbeat_utc", orNull UtcText.toJson s.latestHeartbeatUtc),
    ("process_started_at_utc", orNull UtcText.toJson s.processStartedAtUtc),
    ("last_input_utc", orNull UtcText.toJson s.lastInputUtc),
    ("last_commit_utc", orNull UtcText.toJson s.lastCommitUtc),
    ("last_commit_duration_ms", orNull Whole.toJson s.lastCommitDurationMs),
    ("aggregate_lag_records", orNull Whole.toJson s.aggregateLagRecords),
    ("buffered_bars", orNull Whole.toJson s.bufferedBars),
    ("buffered_source_records", orNull Whole.toJson s.bufferedSourceRecords),
    ("partitions", .arr (s.partitions.map PartitionRow.toJson)),
    ("failure_count", .int s.failureCount),
    ("failure_count_is_capped", .bool s.failureCountIsCapped),
    ("last_failure_utc", orNull UtcText.toJson s.lastFailureUtc),
    ("last_failure_code", orNull (fun f => .str (loaderFailureCode f)) s.lastFailureCode),
    ("recent_commits", .arr (s.recentCommits.map Commit.toJson))]

/-! ### Table and costs -/

inductive Availability where
  | available
  | unavailable
deriving DecidableEq, Repr

def Availability.text : Availability → String
  | .available => "available"
  | .unavailable => "unavailable"

/-- `SAFE_ICEBERG_OPERATIONS`, or `other`. -/
inductive IcebergOperation where
  | append
  | overwrite
  | replace
  | delete
  | other
deriving DecidableEq, Repr

def IcebergOperation.text : IcebergOperation → String
  | .append => "append"
  | .overwrite => "overwrite"
  | .replace => "replace"
  | .delete => "delete"
  | .other => "other"

structure TableSummary where
  status : Availability
  reason : Option String
  lastMetadataUpdateUtc : Option UtcText
  currentSnapshotCommitUtc : Option UtcText
  latestOperation : Option IcebergOperation
  latestAddedRecords : Option Whole
  latestAddedDataFiles : Option Whole
  latestAddedFilesSizeBytes : Option Whole
  totalRecords : Option Whole
  totalDataFiles : Option Whole
  totalFilesSizeBytes : Option Whole
  averageRowsPerDataFile : Option Float
  averageDataFileSizeBytes : Option Float
  totalDeleteFiles : Option Whole
  totalPositionDeletes : Option Whole
  totalEqualityDeletes : Option Whole
  snapshotHistoryCount : Option Nat
  metadataHistoryCount : Option Nat

def natJson (n : Nat) : Json := .int n

def TableSummary.toJson (s : TableSummary) : Json :=
  .obj [("status", .str s.status.text), ("reason", orNull .str s.reason),
    ("last_metadata_update_utc", orNull UtcText.toJson s.lastMetadataUpdateUtc),
    ("current_snapshot_commit_utc", orNull UtcText.toJson s.currentSnapshotCommitUtc),
    ("latest_operation", orNull (fun o => .str o.text) s.latestOperation),
    ("latest_added_records", orNull Whole.toJson s.latestAddedRecords),
    ("latest_added_data_files", orNull Whole.toJson s.latestAddedDataFiles),
    ("latest_added_files_size_bytes", orNull Whole.toJson s.latestAddedFilesSizeBytes),
    ("total_records", orNull Whole.toJson s.totalRecords),
    ("total_data_files", orNull Whole.toJson s.totalDataFiles),
    ("total_files_size_bytes", orNull Whole.toJson s.totalFilesSizeBytes),
    ("average_rows_per_data_file", orNull .float s.averageRowsPerDataFile),
    ("average_data_file_size_bytes", orNull .float s.averageDataFileSizeBytes),
    ("total_delete_files", orNull Whole.toJson s.totalDeleteFiles),
    ("total_position_deletes", orNull Whole.toJson s.totalPositionDeletes),
    ("total_equality_deletes", orNull Whole.toJson s.totalEqualityDeletes),
    ("snapshot_history_count", orNull natJson s.snapshotHistoryCount),
    ("metadata_history_count", orNull natJson s.metadataHistoryCount)]

structure DailyCost where
  dayUtc : Day
  netCost : Float

def DailyCost.toJson (c : DailyCost) : Json :=
  .obj [("day_utc", .str c.dayUtc.text), ("net_cost", .float c.netCost)]

structure ServiceCost where
  serviceName : ServiceName
  netCost : Float

def ServiceCost.toJson (c : ServiceCost) : Json :=
  .obj [("service_name", .str c.serviceName.text), ("net_cost", .float c.netCost)]

structure CostSummary where
  status : Availability
  reason : Option String
  currency : Option Currency
  aggregatedAtUtc : Option UtcText
  sourceExportedAtUtc : Option UtcText
  todayNetCost : Option Float
  sevenDayNetCost : Option Float
  monthToDateNetCost : Option Float
  dailyCosts : List DailyCost
  topServices : List ServiceCost

def CostSummary.toJson (s : CostSummary) : Json :=
  .obj [("status", .str s.status.text), ("reason", orNull .str s.reason),
    ("currency", orNull (fun c => .str c.text) s.currency),
    ("aggregated_at_utc", orNull UtcText.toJson s.aggregatedAtUtc),
    ("source_exported_at_utc", orNull UtcText.toJson s.sourceExportedAtUtc),
    ("today_net_cost", orNull .float s.todayNetCost),
    ("seven_day_net_cost", orNull .float s.sevenDayNetCost),
    ("month_to_date_net_cost", orNull .float s.monthToDateNetCost),
    ("daily_costs", .arr (s.dailyCosts.map DailyCost.toJson)),
    ("top_services", .arr (s.topServices.map ServiceCost.toJson))]

/-! ### The document -/

structure Snapshot where
  generatedAtUtc : UtcText
  marketState : MarketState
  nextExpectedOpenUtc : UtcText
  health : Health
  extractor : ExtractorSummary
  loader : LoaderSummary
  table : TableSummary
  costs : CostSummary
  alerts : List Alert

def Snapshot.toJson (s : Snapshot) : Json :=
  .obj [("schema_version", .int 3), ("generated_at_utc", s.generatedAtUtc.toJson),
    ("market", .obj [("state", .str s.marketState.text),
      ("next_expected_open_utc", s.nextExpectedOpenUtc.toJson)]),
    ("health", s.health.toJson), ("extractor", s.extractor.toJson), ("loader", s.loader.toJson),
    ("table", s.table.toJson), ("costs", s.costs.toJson),
    ("alerts", .arr (s.alerts.map Alert.toJson))]

end Lakehouse.Dashboard
