/-
`IcebergWriter.append`: one data file and one atomic table commit per batch.

The Parquet writer and the Iceberg commit are environment: each reports an
outcome, and a commit of unknown state says whether it took effect. The two
halves of `append` are separate functions because a process can stop between
them.

* `writeDataFile` — the data file under `table.location()`. The writer opens
  its output in create mode, so a path that exists already is an error.
* `commitAppend` — the table after the commit and what `append` throws, if
  anything; `commitAppend_cases` is the atomicity of that commit.
* `append` — both halves; `append_of_written` and `append_of_not_written` are what a
  call does with a file that is written and with one that is not.
-/

import Lakehouse.Loader.BoundedBatch
import Lakehouse.Loader.CommitException
import Lakehouse.Loader.JavaTime

namespace Lakehouse.Loader

/-- A row of the table: the bar, its hash and the ingestion time. -/
structure Row (Bar : Type) where
  payloadHash : String
  bar : Bar
  ingestedAt : String
deriving DecidableEq, Repr

/-- A registered data file with its contents. `fileSizeInBytes` is the length
`append` registered, `closedLength` the length of the closed file. -/
structure DataFile (Bar : Type) where
  path : String
  fileSizeInBytes : Nat
  recordCount : Nat
  rows : List (Row Bar)
  closedLength : Nat
deriving DecidableEq, Repr

/-- The table: its location, the data files of its current snapshot, and the
paths that exist in its storage. -/
structure Table (Bar : Type) where
  location : String
  files : List (DataFile Bar)
  storage : List String
deriving DecidableEq, Repr

variable {Bar : Type}

namespace Table

def rows (t : Table Bar) : List (Row Bar) := t.files.flatMap DataFile.rows

def bars (t : Table Bar) : List Bar := t.rows.map Row.bar

end Table

/-- How writing and closing the Parquet file ends. `length` is what
`appender.length()` returns before the close. -/
inductive FileOutcome where
  | written (length closedLength : Nat)
  | failed (cause : String)
deriving DecidableEq, Repr

/-- How `commit()` ends. Only an unknown state may or may not have landed. -/
inductive CommitOutcome where
  | committed
  | failed (cause : String)
  | unknown (cause : String) (landed : Bool)
deriving DecidableEq, Repr

namespace IcebergWriter

/-- `Instant.toEpochMilli`. -/
def toEpochMilli (t : Instant) : Int := t / 1000000

def dataFilePath (location : String) (now : Instant) : String :=
  location ++ "/data/batch-" ++ toString (toEpochMilli now) ++ ".parquet"

def record (hash : Bar → String) (bar : Bar) (ingestedAt : String) : Row Bar :=
  ⟨hash bar, bar, ingestedAt⟩

/-- The first half of `append`, on a non-empty list of bars. -/
def writeDataFile (hash : Bar → String) (table : Table Bar) (bars : List Bar)
    (pathAt ingestedAt : Instant) (outcome : FileOutcome) :
    Table Bar × Except LoaderCommitException (DataFile Bar) :=
  let path := dataFilePath table.location pathAt
  match outcome with
  | .failed cause => (table, .error (.dataFileWriteFailed cause))
  | .written length closedLength =>
      if path ∈ table.storage then
        (table, .error (.dataFileWriteFailed "org.apache.iceberg.exceptions.AlreadyExistsException"))
      else
        ({ table with storage := path :: table.storage },
          .ok ⟨path, length, bars.length, bars.map (record hash · ingestedAt.text), closedLength⟩)

/-- `table.newAppend().appendFile(file).commit()` taking effect. -/
def appendFile (table : Table Bar) (file : DataFile Bar) : Table Bar :=
  { table with files := table.files ++ [file] }

/-- The second half of `append`. -/
def commitAppend (table : Table Bar) (file : DataFile Bar) (outcome : CommitOutcome) :
    Table Bar × Option LoaderCommitException :=
  match outcome with
  | .committed => (appendFile table file, none)
  | .failed cause => (table, some (.icebergCommitFailed cause))
  | .unknown cause landed =>
      (if landed then appendFile table file else table, some (.icebergCommitStateUnknown cause))

/-- `IcebergWriter.append`. -/
def append (hash : Bar → String) (table : Table Bar) (bars : List Bar)
    (pathAt ingestedAt : Instant) (fileOutcome : FileOutcome) (commitOutcome : CommitOutcome) :
    Table Bar × Except LoaderCommitException Nat :=
  if bars.isEmpty then (table, .ok 0)
  else
    match writeDataFile hash table bars pathAt ingestedAt fileOutcome with
    | (table, .error failure) => (table, .error failure)
    | (table, .ok file) =>
        match commitAppend table file commitOutcome with
        | (table, some failure) => (table, .error failure)
        | (table, none) => (table, .ok bars.length)

section Facts

variable {hash : Bar → String} {table : Table Bar} {bars : List Bar}

@[simp] theorem bars_appendFile (file : DataFile Bar) :
    (appendFile table file).bars = table.bars ++ file.rows.map Row.bar := by
  simp [Table.bars, Table.rows, appendFile]

/-- Writing a data file does not change what the table contains. -/
@[simp] theorem bars_writeDataFile (pathAt ingestedAt : Instant) (outcome : FileOutcome) :
    (writeDataFile hash table bars pathAt ingestedAt outcome).1.bars = table.bars := by
  unfold writeDataFile
  cases outcome with
  | failed cause => rfl
  | written length closedLength =>
      dsimp only
      split <;> rfl

/-- The file written holds exactly the bars of the batch. -/
theorem rows_of_writeDataFile {pathAt ingestedAt : Instant} {outcome : FileOutcome}
    {file : DataFile Bar}
    (h : (writeDataFile hash table bars pathAt ingestedAt outcome).2 = .ok file) :
    file.rows.map Row.bar = bars ∧ file.recordCount = file.rows.length := by
  unfold writeDataFile at h
  cases outcome with
  | failed cause => simp at h
  | written length closedLength =>
      dsimp only at h
      split at h
      · simp at h
      · cases h
        simp [record, Function.comp_def]

/-- An append commit lands whole or not at all, and lands if it reports success. -/
theorem commitAppend_cases (table : Table Bar) (file : DataFile Bar) (outcome : CommitOutcome) :
    (commitAppend table file outcome).1 = appendFile table file ∨
      (commitAppend table file outcome).1 = table ∧ (commitAppend table file outcome).2 ≠ none := by
  cases outcome with
  | committed => exact Or.inl rfl
  | failed cause => exact Or.inr ⟨rfl, by simp [commitAppend]⟩
  | unknown cause landed =>
      cases landed with
      | false => exact Or.inr ⟨rfl, by simp [commitAppend]⟩
      | true => exact Or.inl rfl

/-- The data file is written, under a path that is new. -/
def Written (table : Table Bar) (pathAt : Instant) (length closedLength : Nat)
    (outcome : FileOutcome) : Prop :=
  outcome = .written length closedLength ∧ dataFilePath table.location pathAt ∉ table.storage

/-- The table once a data file is written for the bars, with the file. -/
def written (hash : Bar → String) (table : Table Bar) (bars : List Bar)
    (pathAt ingestedAt : Instant) (length closedLength : Nat) : Table Bar × DataFile Bar :=
  ({ table with storage := dataFilePath table.location pathAt :: table.storage },
    { path := dataFilePath table.location pathAt
      fileSizeInBytes := length
      recordCount := bars.length
      rows := bars.map (record hash · ingestedAt.text)
      closedLength := closedLength })

@[simp] theorem rows_appendFile (file : DataFile Bar) :
    (appendFile table file).rows = table.rows ++ file.rows := by
  simp [Table.rows, appendFile]

section Append

variable {pathAt ingestedAt : Instant} {fileOutcome : FileOutcome} {length closedLength : Nat}

@[simp] theorem append_nil (commitOutcome : CommitOutcome) :
    append hash table [] pathAt ingestedAt fileOutcome commitOutcome = (table, .ok 0) := rfl

theorem writeDataFile_of_written (h : Written table pathAt length closedLength fileOutcome) :
    writeDataFile hash table bars pathAt ingestedAt fileOutcome =
      ((written hash table bars pathAt ingestedAt length closedLength).1,
        .ok (written hash table bars pathAt ingestedAt length closedLength).2) := by
  rw [h.1]
  exact if_neg h.2

theorem writeDataFile_of_not_written (hash : Bar → String) (bars : List Bar) (ingestedAt : Instant)
    (h : ∀ length closedLength, ¬ Written table pathAt length closedLength fileOutcome) :
    ∃ cause, writeDataFile hash table bars pathAt ingestedAt fileOutcome =
      (table, .error (.dataFileWriteFailed cause)) := by
  cases fileOutcome with
  | failed cause => exact ⟨cause, rfl⟩
  | written length closedLength =>
      have hpath : dataFilePath table.location pathAt ∈ table.storage := by
        by_contra hnew
        exact h length closedLength ⟨rfl, hnew⟩
      exact ⟨_, if_pos hpath⟩

/-- `append` of a file that is written, on a non-empty list of bars. -/
theorem append_of_written (hne : bars ≠ [])
    (h : Written table pathAt length closedLength fileOutcome) (commitOutcome : CommitOutcome) :
    append hash table bars pathAt ingestedAt fileOutcome commitOutcome =
      match commitAppend (written hash table bars pathAt ingestedAt length closedLength).1
        (written hash table bars pathAt ingestedAt length closedLength).2 commitOutcome with
      | (table, some failure) => (table, .error failure)
      | (table, none) => (table, .ok bars.length) := by
  unfold append
  rw [if_neg (by simpa using hne), writeDataFile_of_written h]

theorem append_of_not_written (hash : Bar → String) (ingestedAt : Instant) (hne : bars ≠ [])
    (h : ∀ length closedLength, ¬ Written table pathAt length closedLength fileOutcome)
    (commitOutcome : CommitOutcome) :
    ∃ cause, append hash table bars pathAt ingestedAt fileOutcome commitOutcome =
      (table, .error (.dataFileWriteFailed cause)) := by
  obtain ⟨cause, hwrite⟩ := writeDataFile_of_not_written hash bars ingestedAt h
  refine ⟨cause, ?_⟩
  unfold append
  rw [if_neg (by simpa using hne), hwrite]

end Append

end Facts

end IcebergWriter

end Lakehouse.Loader
