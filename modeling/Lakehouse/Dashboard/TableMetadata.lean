/-
`summarize_table_metadata`: the current-table figures of one Iceberg metadata
document.
-/

import Lakehouse.Dashboard.Document

namespace Lakehouse.Dashboard

/-- `_metadata_integer`. -/
def metadataInteger : Json → Py (Option Whole)
  | .int n => .ok (if 0 ≤ n then some (.int n) else none)
  | .bool b => .ok (some (.bool b))
  | .str s =>
      if isDecimal s then do
        let n ← intOf s
        return some (.int n)
      else .ok none
  | _ => .ok none

/-- `_metadata_utc`. Nothing is caught. -/
def metadataUtc (value : Json) : Py (Option UtcText) := do
  match ← metadataInteger value with
  | none => return none
  | some milliseconds =>
      let seconds ← trueDiv milliseconds.value.toNat 1000
      let t ← fromTimestamp seconds
      return some (.of t)

/-- `_ratio`. -/
def ratio (numerator denominator : Option Whole) : Py (Option Float) :=
  match numerator, denominator with
  | some n, some d =>
      if d.value = 0 then .ok none
      else do
        let quotient ← trueDiv n.value.toNat d.value.toNat
        return some (Double.roundTo 2 quotient)
  | _, _ => .ok none

/-- `_list_length`. -/
def listLength : Json → Option Nat
  | .arr items => some items.length
  | _ => none

/-- `_unavailable_table`. -/
def unavailableTable (reason : String) : TableSummary :=
  { status := .unavailable, reason := some reason, lastMetadataUpdateUtc := none
    currentSnapshotCommitUtc := none, latestOperation := none, latestAddedRecords := none
    latestAddedDataFiles := none, latestAddedFilesSizeBytes := none, totalRecords := none
    totalDataFiles := none, totalFilesSizeBytes := none, averageRowsPerDataFile := none
    averageDataFileSizeBytes := none, totalDeleteFiles := none, totalPositionDeletes := none
    totalEqualityDeletes := none, snapshotHistoryCount := none, metadataHistoryCount := none }

/-- The operation a lower-case text names. -/
def IcebergOperation.ofText (text : String) : IcebergOperation :=
  if text = "append" then .append
  else if text = "overwrite" then .overwrite
  else if text = "replace" then .replace
  else if text = "delete" then .delete
  else .other

/-- The first snapshot with an id: the `next(...)` over `snapshots`. -/
def Host.findSnapshot (host : Host) (id : Json) : List Json → Py (Option Dict)
  | [] => .ok none
  | .obj d :: rest => do
      if ← equalWithin (dictGet d "snapshot-id") id host.eqDepth then return some d
      else host.findSnapshot id rest
  | _ :: rest => host.findSnapshot id rest

/-- The available part of `summarize_table_metadata`. -/
def Host.tableFigures (host : Host) (metadata : Dict) (snapshots : List Json)
    (current summary : Dict) : Py TableSummary := do
  let totalRecords ← metadataInteger (dictGet summary "total-records")
  let totalDataFiles ← metadataInteger (dictGet summary "total-data-files")
  let totalFilesSizeBytes ← metadataInteger (dictGet summary "total-files-size")
  let operation ← host.str (dictGetOr summary "operation" (.str "other"))
  let lastMetadataUpdateUtc ← metadataUtc (dictGet metadata "last-updated-ms")
  let currentSnapshotCommitUtc ← metadataUtc (dictGet current "timestamp-ms")
  let latestAddedRecords ← metadataInteger (dictGet summary "added-records")
  let latestAddedDataFiles ← metadataInteger (dictGet summary "added-data-files")
  let latestAddedFilesSizeBytes ← metadataInteger (dictGet summary "added-files-size")
  let averageRowsPerDataFile ← ratio totalRecords totalDataFiles
  let averageDataFileSizeBytes ← ratio totalFilesSizeBytes totalDataFiles
  let totalDeleteFiles ← metadataInteger (dictGet summary "total-delete-files")
  let totalPositionDeletes ← metadataInteger (dictGet summary "total-position-deletes")
  let totalEqualityDeletes ← metadataInteger (dictGet summary "total-equality-deletes")
  return {
    status := .available
    reason := none
    lastMetadataUpdateUtc
    currentSnapshotCommitUtc
    latestOperation := some (.ofText (Casing.lower operation))
    latestAddedRecords
    latestAddedDataFiles
    latestAddedFilesSizeBytes
    totalRecords
    totalDataFiles
    totalFilesSizeBytes
    averageRowsPerDataFile
    averageDataFileSizeBytes
    totalDeleteFiles
    totalPositionDeletes
    totalEqualityDeletes
    snapshotHistoryCount := some snapshots.length
    metadataHistoryCount := listLength (dictGet metadata "metadata-log") }

/-- `summarize_table_metadata`. -/
def Host.summarizeTableMetadata (host : Host) (metadata : Json) (unavailableReason : String) :
    Py TableSummary :=
  match metadata with
  | .obj metadata =>
      match dictGet metadata "snapshots", dictGet metadata "current-snapshot-id" with
      | .arr _, .null => .ok (unavailableTable "invalid_metadata")
      | .arr snapshots, id => do
          match ← host.findSnapshot id snapshots with
          | none => .ok (unavailableTable "missing_current_snapshot")
          | some current =>
              match dictGet current "summary" with
              | .obj summary => host.tableFigures metadata snapshots current summary
              | _ => .ok (unavailableTable "missing_snapshot_summary")
      | _, _ => .ok (unavailableTable "invalid_metadata")
  | _ => .ok (unavailableTable unavailableReason)

end Lakehouse.Dashboard
