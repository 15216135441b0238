/-
`compact_table.py`: the job of one compaction.

Spark, the two procedures and the clock are outside. `Spark.first` is the row
`ORDER BY committed_at DESC LIMIT 1` leaves of the rows of `.snapshots`, and a
`View` the rows and the number of files that queries find.
-/

import Lakehouse.Compaction.Submitter
import Lakehouse.Dashboard.PyTime

namespace Lakehouse.Compaction

open Dashboard (Utc utcText)

/-- A row of `<table>.snapshots`. -/
structure SnapshotRow where
  snapshotId : Int
  committedAt : Utc
  summary : Option (List (String × String))
deriving DecidableEq

structure View where
  snapshots : List SnapshotRow
  dataFileCount : ℕ

structure Metrics where
  snapshotId : String
  committedAtUtc : String
  totalRecords : Int
  dataFileCount : ℕ
deriving DecidableEq, Repr

/-- `t.isoformat().replace("+00:00", "Z")`. -/
def isoformatUtc (t : Utc) : String :=
  let micros := (t.micros % 1000000).toNat
  String.ofList ((utcText t).toList.dropLast ++
    (if micros = 0 then [] else '.' :: Calendar.padded 6 micros) ++ ['Z'])

/-- The row of the latest commit, among rows of which several may be the latest. -/
abbrev First := List SnapshotRow → Option SnapshotRow

/-- `snapshot_metrics`. -/
def snapshotMetrics (first : First) (view : View) : Except Failure Metrics :=
  match first view.snapshots with
  | none => .error (.runtimeError "table has no current snapshot")
  | some snapshot =>
      match (snapshot.summary.getD []).lookup "total-records" with
      | none => .error (.runtimeError "current snapshot does not report total-records")
      | some totalRecords => do
          let totalRecords ← python (intOfText totalRecords)
          return {
            snapshotId := toString snapshot.snapshotId
            committedAtUtc := isoformatUtc snapshot.committedAt
            totalRecords := totalRecords
            dataFileCount := view.dataFileCount }

structure Arguments where
  catalog : String
  namespace_ : String
  table : String
  expectedSnapshotId : String
  targetFileSizeBytes : Int
  receiptUri : String
  runId : String

/-- The check `parse_args` makes. -/
def parseArgs (args : Arguments) : Except Failure Unit :=
  if args.targetFileSizeBytes < 8 * 1024 * 1024 then
    .error (.systemExit "target-file-size-bytes must be at least 8 MiB")
  else .ok ()

/-- `qualified_table`. -/
def qualifiedTable (catalog namespace_ table : String) : Except Failure String := do
  check (isIdentifier catalog) "invalid catalog"
  check (isIdentifier namespace_) "invalid namespace"
  check (isIdentifier table) "invalid table"
  return catalog ++ "." ++ namespace_ ++ "." ++ table

/-- The statements of `main` that change the table. -/
inductive Procedure where
  | rewriteDataFiles (catalog table : String) (targetFileSizeBytes : Int)
  | rewriteManifests (catalog table : String)
deriving DecidableEq, Repr

/-- The text of the `CALL`. -/
def Procedure.statement : Procedure → String
  | rewriteDataFiles catalog table targetFileSizeBytes =>
      "CALL " ++ catalog ++ ".system.rewrite_data_files(table => '" ++ table ++
        "', options => map('target-file-size-bytes', '" ++ toString targetFileSizeBytes ++ "'))"
  | rewriteManifests catalog table =>
      "CALL " ++ catalog ++ ".system.rewrite_manifests(table => '" ++ table ++ "')"

structure Receipt where
  runId : String
  table : String
  startedAtUtc : String
  finishedAtUtc : String
  pre : Metrics
  post : Metrics
  failedDataFilesCount : Int
  rewriteManifestsResultCount : ℕ
deriving DecidableEq, Repr

/-- What a run of the job finds outside it. -/
structure Spark where
  first : First
  before : View
  /-- The table once both procedures have returned. -/
  after : View
  failedDataFilesCount : Int
  rewriteManifestsResultCount : ℕ
  startedAtUtc : String
  finishedAtUtc : String

/-- `GCS_OBJECT_URI`: a path of one character and more, and `.json`. -/
def isGcsObjectUri (s : String) : Bool :=
  let path := s.toList.drop 5
  "gs://".toList.isPrefixOf s.toList && path.takeWhile isBucketChar != [] &&
    match path.dropWhile isBucketChar with
    | '/' :: name =>
        5 < name.length && name.all isPathChar && ".json".toList.isSuffixOf name
    | _ => false

/-- The procedures a run called, and what it ended with. -/
structure Ran where
  calls : List Procedure
  result : Except Failure Receipt

/-- The error of a fence that does not open. -/
def changedAfterPreflight (expected found : String) : Failure :=
  .runtimeError ("table changed after preflight: expected " ++ expected ++ ", found " ++ found)

/-- The checks of `main` once both procedures have returned. -/
def verified (before after : Metrics) (failedFiles : Int) : Except Failure Unit :=
  if failedFiles ≠ 0 then
    .error (.runtimeError ("rewrite_data_files reported " ++ toString failedFiles ++
      " failed data files"))
  else if after.snapshotId = before.snapshotId then
    .error (.runtimeError "compaction did not create a new snapshot")
  else if after.totalRecords ≠ before.totalRecords then
    .error (.runtimeError "total-records changed during compaction")
  else if after.dataFileCount ≥ before.dataFileCount then
    .error (.runtimeError "data-file count did not decrease")
  else .ok ()

/-- `main` from the fence on. -/
def fenced (args : Arguments) (spark : Spark) (before : Metrics) : Ran :=
  let table := args.namespace_ ++ "." ++ args.table
  if before.snapshotId ≠ args.expectedSnapshotId then
    ⟨[], .error (changedAfterPreflight args.expectedSnapshotId before.snapshotId)⟩
  else
    ⟨[.rewriteDataFiles args.catalog table args.targetFileSizeBytes,
      .rewriteManifests args.catalog table], do
        let after ← snapshotMetrics spark.first spark.after
        verified before after spark.failedDataFilesCount
        check (isGcsObjectUri args.receiptUri) "receipt URI must be a gs:// object ending in .json"
        return {
          runId := args.runId
          table := table
          startedAtUtc := spark.startedAtUtc
          finishedAtUtc := spark.finishedAtUtc
          pre := before
          post := after
          failedDataFilesCount := spark.failedDataFilesCount
          rewriteManifestsResultCount := spark.rewriteManifestsResultCount }⟩

/-- `main`. -/
def main (args : Arguments) (spark : Spark) : Ran :=
  let before := do
    parseArgs args
    let _ ← qualifiedTable args.catalog args.namespace_ args.table
    snapshotMetrics spark.first spark.before
  match before with
  | .error e => ⟨[], .error e⟩
  | .ok before => fenced args spark before

/-- The run calls `rewrite_data_files`. -/
def Ran.Rewrites (ran : Ran) : Prop :=
  ∃ catalog table size, Procedure.rewriteDataFiles catalog table size ∈ ran.calls

/-- The fence opens when the snapshot found is the expected one. -/
theorem rewrites_fenced {args : Arguments} {spark : Spark} {before : Metrics} :
    (fenced args spark before).Rewrites ↔ before.snapshotId = args.expectedSnapshotId := by
  constructor
  · rintro ⟨catalog, table, size, hmem⟩
    by_contra hdiffers
    simp [fenced, hdiffers] at hmem
  · intro hsame
    refine ⟨args.catalog, args.namespace_ ++ "." ++ args.table, args.targetFileSizeBytes, ?_⟩
    simp [fenced, hsame]

/-- `main` rewrites when its arguments are valid and the fence opens. -/
theorem rewrites_main {args : Arguments} {spark : Spark} {qualified : String}
    (hargs : parseArgs args = .ok ())
    (htable : qualifiedTable args.catalog args.namespace_ args.table = .ok qualified) :
    (main args spark).Rewrites ↔ ∃ before, snapshotMetrics spark.first spark.before = .ok before ∧
      before.snapshotId = args.expectedSnapshotId := by
  have hbefore : main args spark = match snapshotMetrics spark.first spark.before with
      | .error e => ⟨[], .error e⟩
      | .ok before => fenced args spark before := by
    rw [main, hargs, htable]
    rfl
  rw [hbefore]
  cases hmetrics : snapshotMetrics spark.first spark.before with
  | error e =>
      constructor
      · rintro ⟨_, _, _, hmem⟩
        exact absurd hmem List.not_mem_nil
      · rintro ⟨_, hok, _⟩
        cases hok
  | ok before =>
      simp only [rewrites_fenced]
      constructor
      · exact fun hsame => ⟨before, rfl, hsame⟩
      · rintro ⟨_, hok, hsame⟩
        cases hok
        exact hsame

end Lakehouse.Compaction
