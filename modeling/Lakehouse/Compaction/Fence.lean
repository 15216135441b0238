/-
The snapshot fence between the submitter and the job.

A `Table` is what the metadata of an Iceberg table keeps: its version, every
retained snapshot with its commit time, and the lineage of the main branch. The
submitter compares with the head of the lineage, the job with the row of the
latest commit.

* `Sound` — what every reachable table keeps.
* `newest_of_forward` — commits to main, each later than those before, keep the
  two the same.
* `fenceHolds_iff_newest` — when they are.
-/

import Lakehouse.Compaction.Job
import Lakehouse.Compaction.QuietWindow
import Lakehouse.Lib.Transition
import Mathlib.Data.List.Nodup

namespace Lakehouse.Compaction

open Dashboard (Python Utc)
open Transition (System)

/-! ### Tables -/

/-- A retained snapshot. -/
structure Retained where
  id : ℕ
  committedAt : Utc
  operation : String
  totalRecords : ℕ
deriving DecidableEq

/-- Its row in `.snapshots`. -/
def Retained.row (r : Retained) : SnapshotRow where
  snapshotId := r.id
  committedAt := r.committedAt
  summary := some [("operation", r.operation), ("total-records", toString r.totalRecords)]

structure Table where
  version : ℕ
  snapshots : List Retained
  /-- The current snapshot of main, and its ancestors behind it. -/
  lineage : List ℕ
deriving DecidableEq

namespace Table

def empty : Table := ⟨1, [], []⟩

/-- `current-snapshot-id`. -/
def current (table : Table) : Option ℕ := table.lineage.head?

/-- The records of the current snapshot. -/
def records (table : Table) : ℕ :=
  ((table.snapshots.find? fun r => table.current = some r.id).map Retained.totalRecords).getD 0

def rows (table : Table) : List SnapshotRow := table.snapshots.map Retained.row

/-- A snapshot can be added: its id is new, and its numbers are positive longs. -/
def Admits (table : Table) (r : Retained) : Prop :=
  r.id ∉ table.snapshots.map Retained.id ∧ 0 < r.id ∧ r.id < 2 ^ 63 ∧ r.totalRecords < 2 ^ 63

instance (table : Table) (r : Retained) : Decidable (table.Admits r) :=
  inferInstanceAs (Decidable (_ ∧ _ ∧ _ ∧ _))

/-- Add a snapshot; `lineage` is that of main afterwards. -/
def commit (table : Table) (r : Retained) (lineage : List ℕ) : Option Table :=
  if table.Admits r then some ⟨table.version + 1, table.snapshots ++ [r], lineage⟩ else none

end Table

inductive Operation where
  | append (id : ℕ) (committedAt : Utc) (added : ℕ)
  | rewrite (id : ℕ) (committedAt : Utc)
  /-- Main goes back to an ancestor of its current snapshot. -/
  | rollback (id : ℕ)
  /-- A snapshot on another branch. -/
  | branch (id : ℕ) (committedAt : Utc) (totalRecords : ℕ)

def operate (table : Table) : Operation → Option Table
  | .append id committedAt added =>
      table.commit ⟨id, committedAt, "append", table.records + added⟩ (id :: table.lineage)
  | .rewrite id committedAt =>
      if table.current.isSome then
        table.commit ⟨id, committedAt, "replace", table.records⟩ (id :: table.lineage)
      else none
  | .rollback id =>
      if id ∈ table.lineage then
        some ⟨table.version + 1, table.snapshots, table.lineage.dropWhile (· != id)⟩
      else none
  | .branch id committedAt totalRecords =>
      table.commit ⟨id, committedAt, "append", totalRecords⟩ table.lineage

def tables : System Table Operation where
  init table := table = Table.empty
  step := operate

namespace Table

/-! ### What a table keeps -/

structure Sound (table : Table) : Prop where
  version : 0 < table.version
  ids : (table.snapshots.map Retained.id).Nodup
  lineage : ∀ id ∈ table.lineage, ∃ r ∈ table.snapshots, r.id = id
  longs : ∀ r ∈ table.snapshots, r.id < 2 ^ 63 ∧ r.totalRecords < 2 ^ 63

theorem commit_cases {table next : Table} {r : Retained} {lineage : List ℕ}
    (h : table.commit r lineage = some next) :
    table.Admits r ∧ next = ⟨table.version + 1, table.snapshots ++ [r], lineage⟩ := by
  unfold commit at h
  split at h
  · rename_i hadmits
    cases h
    exact ⟨hadmits, rfl⟩
  · cases h

theorem Sound.commit {table next : Table} {r : Retained} {lineage : List ℕ} (hs : table.Sound)
    (hlineage : ∀ id ∈ lineage, id = r.id ∨ id ∈ table.lineage)
    (h : table.commit r lineage = some next) : next.Sound := by
  obtain ⟨⟨hfresh, _, hid, hrecords⟩, rfl⟩ := commit_cases h
  constructor
  · exact Nat.succ_pos _
  · rw [List.map_append, List.nodup_append]
    refine ⟨hs.ids, List.nodup_singleton _, ?_⟩
    intro id hmem other hother
    rw [List.map_singleton, List.mem_singleton] at hother
    rintro rfl
    exact hfresh (hother ▸ hmem)
  · intro id hmem
    rcases hlineage id hmem with rfl | hold
    · exact ⟨r, List.mem_append_right _ List.mem_cons_self, rfl⟩
    · obtain ⟨other, hother, hsame⟩ := hs.lineage id hold
      exact ⟨other, List.mem_append_left _ hother, hsame⟩
  · intro other hmem
    rcases List.mem_append.mp hmem with hold | hnew
    · exact hs.longs other hold
    · rw [List.mem_singleton] at hnew
      subst hnew
      exact ⟨hid, hrecords⟩

theorem Sound.step {table next : Table} {op : Operation} (hs : table.Sound)
    (h : operate table op = some next) : next.Sound := by
  cases op with
  | append id committedAt added => exact hs.commit (fun _ => List.mem_cons.mp) h
  | rewrite id committedAt =>
      rw [operate] at h
      split at h
      · exact hs.commit (fun _ => List.mem_cons.mp) h
      · cases h
  | rollback id =>
      rw [operate] at h
      split at h
      · cases h
        exact { hs with
          version := Nat.succ_pos _
          lineage := fun id hmem => hs.lineage id ((List.dropWhile_sublist _).mem hmem) }
      · cases h
  | branch id committedAt totalRecords => exact hs.commit (fun _ => Or.inr) h

theorem sound {table : Table} (h : tables.Reachable table) : table.Sound := by
  induction h with
  | init hinit =>
      cases hinit
      exact ⟨Nat.one_pos, List.nodup_nil, by simp [empty], by simp [empty]⟩
  | step _ hstep ih => exact ih.step hstep

theorem Sound.eq_of_id {table : Table} (hs : table.Sound) {r other : Retained}
    (hr : r ∈ table.snapshots) (hother : other ∈ table.snapshots) (h : r.id = other.id) :
    r = other :=
  List.inj_on_of_nodup_map hs.ids hr hother h

/-- The current snapshot is the only one of the latest commit time. -/
def Newest (table : Table) : Prop :=
  ∃ r ∈ table.snapshots, table.current = some r.id ∧
    ∀ other ∈ table.snapshots, other.id ≠ r.id →
      other.committedAt.micros < r.committedAt.micros

/-- A commit to main that is later than all others makes its snapshot the newest. -/
theorem newest_of_forward {table next : Table} {r : Retained}
    (hlater : ∀ other ∈ table.snapshots, other.committedAt.micros < r.committedAt.micros)
    (h : table.commit r (r.id :: table.lineage) = some next) : next.Newest := by
  obtain ⟨_, rfl⟩ := commit_cases h
  refine ⟨r, List.mem_append_right _ List.mem_cons_self, rfl, fun other hmem hne => ?_⟩
  rcases List.mem_append.mp hmem with hold | hnew
  · exact hlater other hold
  · exact absurd (congrArg Retained.id (List.mem_singleton.mp hnew)) hne

end Table

/-! ### The two readings -/

/-- `ORDER BY committed_at DESC LIMIT 1`: among rows of one commit time it may be
any. -/
structure LatestFirst (first : First) : Prop where
  none_iff : ∀ rows, first rows = none ↔ rows = []
  mem : ∀ rows r, first rows = some r → r ∈ rows
  latest : ∀ rows r, first rows = some r → ∀ other ∈ rows,
    other.committedAt.micros ≤ r.committedAt.micros

/-- What the storage prints for a table: the hint names its version, and that
version's file its current snapshot. -/
structure Serves (py : Python) (settings : Settings) (command : Command) (table : Table) : Prop where
  hint : ∃ text, command (cat settings.hint) = .ok text ∧ strip text = toString table.version
  file : ∃ text document,
    command (cat (settings.metadataFile (toString table.version))) = .ok text ∧
      py.loads text = .ok (.obj document) ∧ ∀ id : ℕ, table.current = some id →
        Dashboard.dictGet document "current-snapshot-id" = .int id

theorem digits_long {n : ℕ} (h : n < 2 ^ 63) :
    (Nat.toDigits 10 n).length ≤ Dashboard.maxStrDigits :=
  (Nat.length_toDigits_le_iff (by decide) (by decide)).mpr
    (h.trans (Nat.lt_of_lt_of_le (by decide : 2 ^ 63 < 10 ^ 19)
      (Nat.pow_le_pow_right (by decide) (by decide))))

/-- `read_snapshot` returns the current snapshot. -/
theorem readSnapshot_current {py : Python} {settings : Settings} {command : Command} {table : Table}
    (hs : table.Sound) (h : Serves py settings command table) {id : ℕ}
    (hcurrent : table.current = some id) :
    readSnapshot py settings command = .ok ⟨toString table.version, toString (id : ℤ)⟩ := by
  obtain ⟨hint, hhint, hstrip⟩ := h.hint
  obtain ⟨text, document, hfile, hloads, hdocument⟩ := h.file
  obtain ⟨r, hr, rfl⟩ := hs.lineage id (List.mem_of_mem_head? hcurrent)
  exact readSnapshot_eq hs.version hhint hstrip hfile hloads (hdocument _ hcurrent)
    (digits_long (hs.longs r hr).1)

/-- `snapshot_metrics` returns the row of the latest commit. -/
theorem snapshotMetrics_row {first : First} {table : Table} (hs : table.Sound) {r : Retained}
    (hr : r ∈ table.snapshots) (hfirst : first table.rows = some r.row) (files : ℕ) :
    snapshotMetrics first ⟨table.rows, files⟩ =
      .ok ⟨toString (r.id : ℤ), isoformatUtc r.committedAt, r.totalRecords, files⟩ := by
  have hrecords : intOfText (toString r.totalRecords) = .ok r.totalRecords :=
    intOfText_natText (digits_long (hs.longs r hr).2)
  have hlookup : ([("operation", r.operation), ("total-records", toString r.totalRecords)] :
      List (String × String)).lookup "total-records" = some (toString r.totalRecords) := rfl
  simp only [snapshotMetrics, hfirst, Retained.row, Option.getD_some, hlookup, hrecords, python,
    Except.mapError]
  rfl

/-- The row a query of a table may leave is one of a snapshot no other is later
than. -/
theorem LatestFirst.row {first : First} (h : LatestFirst first) {table : Table} {r : Retained}
    (hr : r ∈ table.snapshots) :
    ∃ found ∈ table.snapshots, first table.rows = some found.row ∧
      ∀ other ∈ table.snapshots, other.committedAt.micros ≤ found.committedAt.micros := by
  cases hfirst : first table.rows with
  | none =>
      rw [h.none_iff, Table.rows, List.map_eq_nil_iff] at hfirst
      exact absurd hr (hfirst ▸ List.not_mem_nil)
  | some row =>
      obtain ⟨found, hfound, rfl⟩ := List.mem_map.mp (h.mem _ _ hfirst)
      exact ⟨found, hfound, rfl, fun other hother =>
        h.latest _ _ hfirst other.row (List.mem_map_of_mem hother)⟩

/-- Any snapshot that no other is later than may be the row. -/
theorem exists_latestFirst {first : First} (h : LatestFirst first) {table : Table} {r : Retained}
    (hr : r ∈ table.snapshots)
    (hlatest : ∀ other ∈ table.snapshots, other.committedAt.micros ≤ r.committedAt.micros) :
    ∃ first', LatestFirst first' ∧ first' table.rows = some r.row := by
  refine ⟨Function.update first table.rows (some r.row), ⟨?_, ?_, ?_⟩, Function.update_self ..⟩
  · intro rows
    by_cases hrows : rows = table.rows
    · subst hrows
      have hne : table.rows ≠ [] := List.ne_nil_of_mem (List.mem_map_of_mem hr)
      simp [hne]
    · rw [Function.update_of_ne hrows]
      exact h.none_iff rows
  · intro rows row hrow
    by_cases hrows : rows = table.rows
    · subst hrows
      rw [Function.update_self] at hrow
      cases hrow
      exact List.mem_map_of_mem hr
    · rw [Function.update_of_ne hrows] at hrow
      exact h.mem rows row hrow
  · intro rows row hrow other hother
    by_cases hrows : rows = table.rows
    · subst hrows
      rw [Function.update_self] at hrow
      cases hrow
      obtain ⟨retained, hretained, rfl⟩ := List.mem_map.mp hother
      exact hlatest retained hretained
    · rw [Function.update_of_ne hrows] at hrow
      exact h.latest rows row hrow other hother

/-! ### The fence -/

/-- The arguments `batch_command` gives the job. -/
def jobArguments (settings : Settings) (expected : Snapshot) (runId : String) : Arguments where
  catalog := "hadoop"
  namespace_ := settings.namespace_
  table := settings.table
  expectedSnapshotId := expected.snapshotId
  targetFileSizeBytes := settings.targetFileSizeBytes
  receiptUri := rstripSlash settings.receiptDirectory ++ "/" ++ runId ++ ".json"
  runId := runId

/-- With a table: the submitter and the job take the same snapshot to be the
current one, and a job submitted on an earlier state of the table rewrites
exactly when the current snapshot is still the one read then. -/
structure FenceHolds (py : Python) (settings : Settings) (table : Table) : Prop where
  agrees : ∀ first files command, LatestFirst first → Serves py settings command table →
    ∃ expected metrics, readSnapshot py settings command = .ok expected ∧
      snapshotMetrics first ⟨table.rows, files⟩ = .ok metrics ∧
      metrics.snapshotId = expected.snapshotId
  fence : ∀ preflight history command expected, tables.Reachable preflight →
    preflight.current.isSome → tables.run preflight history = some table →
    Serves py settings command preflight → readSnapshot py settings command = .ok expected →
    ∀ spark runId, LatestFirst spark.first → spark.before.snapshots = table.rows →
      ((main (jobArguments settings expected runId) spark).Rewrites ↔
        table.current = preflight.current)

section Fence

variable {py : Python} {settings : Settings} {table : Table}

theorem newest_of_agrees {command : Command} (hreach : tables.Reachable table) {id : ℕ}
    (hcurrent : table.current = some id) (hserves : Serves py settings command table)
    {first : First} (hfirst : LatestFirst first)
    (h : FenceHolds py settings table) : table.Newest := by
  have hs := Table.sound hreach
  obtain ⟨r, hr, rfl⟩ := hs.lineage id (List.mem_of_mem_head? hcurrent)
  -- Whichever latest row the query leaves, it is the current one.
  have hrow : ∀ found ∈ table.snapshots,
      (∀ other ∈ table.snapshots, other.committedAt.micros ≤ found.committedAt.micros) →
      found.id = r.id := by
    intro found hfound hlatest
    obtain ⟨first', hfirst', hleaves⟩ := exists_latestFirst hfirst hfound hlatest
    obtain ⟨expected, metrics, hread, hmetrics, hsame⟩ := h.agrees first' 0 command hfirst' hserves
    rw [readSnapshot_current hs hserves hcurrent] at hread
    rw [snapshotMetrics_row hs hfound hleaves] at hmetrics
    cases hread
    cases hmetrics
    exact Int.ofNat_inj.mp (Scan.intText_injective hsame)
  obtain ⟨found, hfound, _, hlatest⟩ := hfirst.row hr
  have hcurrentRow : found = r := hs.eq_of_id hfound hr (hrow found hfound hlatest)
  subst hcurrentRow
  refine ⟨found, hfound, hcurrent, fun other hother hne => ?_⟩
  by_contra hnot
  refine hne (hrow other hother fun third hthird => ?_)
  exact (hlatest third hthird).trans (Int.not_lt.mp hnot)

theorem jobArguments_valid {environ : Environment}
    (hsettings : Settings.fromEnvironment environ = .ok settings) (expected : Snapshot)
    (runId : String) :
    parseArgs (jobArguments settings expected runId) = .ok () ∧
      ∃ qualified, qualifiedTable (jobArguments settings expected runId).catalog
        (jobArguments settings expected runId).namespace_
        (jobArguments settings expected runId).table = .ok qualified := by
  obtain ⟨hnamespace, htable⟩ := Settings.fromEnvironment_identifiers hsettings
  have hsize := (Settings.fromEnvironment_minima hsettings).targetFileSize
  constructor
  · exact if_neg (Int.not_lt.mpr hsize)
  · refine ⟨"hadoop" ++ "." ++ settings.namespace_ ++ "." ++ settings.table, ?_⟩
    have hcatalog : isIdentifier "hadoop" = true := by decide
    simp only [jobArguments, qualifiedTable, hcatalog, hnamespace, htable]
    rfl

/-- A table whose current snapshot is the newest leaves the query no choice. -/
theorem Table.Newest.metrics (hs : table.Sound) (h : table.Newest) {first : First}
    (hfirst : LatestFirst first) (files : ℕ) :
    ∃ (r : Retained) (metrics : Metrics), table.current = some r.id ∧
      snapshotMetrics first ⟨table.rows, files⟩ = .ok metrics ∧
        metrics.snapshotId = toString (r.id : ℤ) := by
  obtain ⟨r, hr, hcurrent, hnewest⟩ := h
  obtain ⟨found, hfound, hleaves, hlatest⟩ := hfirst.row hr
  have hsame : found.id = r.id := by
    by_contra hne
    exact absurd (hnewest found hfound hne) (Int.not_lt.mpr (hlatest r hr))
  have hfoundRow : found = r := hs.eq_of_id hfound hr hsame
  subst hfoundRow
  exact ⟨found, _, hcurrent, snapshotMetrics_row hs hr hleaves files, rfl⟩

/-- In every reachable state, the fence compares like with like exactly when the
current snapshot is the only one of the latest commit time. -/
theorem fenceHolds_iff_newest {environ : Environment}
    (hsettings : Settings.fromEnvironment environ = .ok settings)
    (hreach : tables.Reachable table) (hcurrent : table.current.isSome) {command : Command}
    (hserves : Serves py settings command table) {first : First} (hfirst : LatestFirst first) :
    FenceHolds py settings table ↔ table.Newest := by
  have hs := Table.sound hreach
  constructor
  · intro h
    obtain ⟨id, hid⟩ := Option.isSome_iff_exists.mp hcurrent
    exact newest_of_agrees hreach hid hserves hfirst h
  · intro hnewest
    constructor
    · intro first files command hfirst hserves
      obtain ⟨r, metrics, hr, hmetrics, hsame⟩ := hnewest.metrics hs hfirst files
      exact ⟨_, metrics, readSnapshot_current hs hserves hr, hmetrics, hsame⟩
    · intro preflight history command expected hpreflight hread _ hserves hexpected spark runId
        hfirst hrows
      obtain ⟨id, hid⟩ := Option.isSome_iff_exists.mp hread
      rw [readSnapshot_current (Table.sound hpreflight) hserves hid] at hexpected
      cases hexpected
      obtain ⟨hargs, qualified, htable⟩ := jobArguments_valid hsettings
        ⟨toString preflight.version, toString (id : ℤ)⟩ runId
      obtain ⟨r, metrics, hr, hmetrics, hsame⟩ :=
        hnewest.metrics hs hfirst spark.before.dataFileCount
      have hbefore : snapshotMetrics spark.first spark.before = .ok metrics := by
        rw [← hmetrics, ← hrows]
      rw [rewrites_main hargs htable, hr, hid]
      constructor
      · rintro ⟨before, hok, hopen⟩
        rw [hbefore] at hok
        cases hok
        rw [hsame] at hopen
        exact congrArg some (Int.ofNat_inj.mp (Scan.intText_injective hopen))
      · intro hunchanged
        cases hunchanged
        exact ⟨metrics, hbefore, hsame⟩

end Fence

/-! ### A rollback -/

/-- The first of the rows with the latest time. -/
def latestRow : First
  | [] => none
  | row :: rows =>
      match latestRow rows with
      | some other =>
          if row.committedAt.micros < other.committedAt.micros then some other else some row
      | none => some row

theorem latestRow_spec {rows : List SnapshotRow} {latest : SnapshotRow}
    (h : latestRow rows = some latest) :
    latest ∈ rows ∧ ∀ other ∈ rows, other.committedAt.micros ≤ latest.committedAt.micros := by
  induction rows generalizing latest with
  | nil => cases h
  | cons row rows ih =>
      simp only [latestRow] at h
      split at h
      · rename_i newest hnewest
        obtain ⟨hmem, hlatest⟩ := ih hnewest
        split at h
        · rename_i hlt
          cases h
          refine ⟨List.mem_cons_of_mem _ hmem, List.forall_mem_cons.mpr ⟨?_, hlatest⟩⟩
          omega
        · rename_i hle
          cases h
          refine ⟨List.mem_cons_self, List.forall_mem_cons.mpr ⟨le_refl _, ?_⟩⟩
          intro other hother
          have := hlatest other hother
          omega
      · rename_i hnone
        cases h
        cases rows with
        | nil => exact ⟨List.mem_cons_self, by simp⟩
        | cons second rows =>
            simp only [latestRow] at hnone
            split at hnone
            · split at hnone <;> cases hnone
            · cases hnone

theorem latestFirst_latestRow : LatestFirst latestRow where
  none_iff := by
    intro rows
    cases rows with
    | nil => simp [latestRow]
    | cons row rows =>
        simp only [latestRow, reduceCtorEq, iff_false]
        split
        · split <;> simp
        · simp
  mem := fun _ _ h => (latestRow_spec h).1
  latest := fun _ _ h _ hother => (latestRow_spec h).2 _ hother

def metadataText (table : Table) : String :=
  "\x7b\"current-snapshot-id\": " ++ toString (table.current.getD 0) ++ "\x7d"

def storage (settings : Settings) (table : Table) : Command := fun argv =>
  if argv = cat settings.hint then .ok (toString table.version)
  else if argv = cat (settings.metadataFile (toString table.version)) then .ok (metadataText table)
  else .error .calledProcessError

def interpreter : Python := ⟨1000, 1000, 1000, fun _ => true, fun _ => ""⟩

/-- 2026-09-12, an hour's minute. -/
def minute (n : Fin 60) : Utc :=
  ⟨1789228800000000 + n * 60000000, by
    have hn := n.isLt
    simp only [Dashboard.firstDay, Dashboard.lastDay, Dashboard.dayMicros]
    omega⟩

def twoAppends : List Operation := [.append 7001 (minute 1) 10, .append 7002 (minute 2) 5]

def appended : Table where
  version := 3
  snapshots := [⟨7001, minute 1, "append", 10⟩, ⟨7002, minute 2, "append", 15⟩]
  lineage := [7002, 7001]

def rolledBack : Table := { appended with version := 4, lineage := [7001] }

theorem run_twoAppends : tables.run Table.empty twoAppends = some appended := by rfl

theorem reachable_appended : tables.Reachable appended := .of_run (.init rfl) run_twoAppends

theorem reachable_rolledBack : tables.Reachable rolledBack :=
  System.Reachable.step (a := .rollback 7001) reachable_appended rfl

theorem serves_appended : Serves interpreter runbookSettings (storage runbookSettings appended)
    appended where
  hint := ⟨_, rfl, rfl⟩
  file := ⟨_, [("current-snapshot-id", .int 7002)], rfl, rfl, fun _ h => by cases h; rfl⟩

/-- After two appends the fence holds. -/
theorem fenceHolds_appended : FenceHolds interpreter runbookSettings appended :=
  (fenceHolds_iff_newest fromEnvironment_runbook reachable_appended rfl serves_appended
    latestFirst_latestRow).mpr ⟨⟨7002, minute 2, "append", 15⟩, by decide, rfl, by decide⟩

theorem serves_rolledBack : Serves interpreter runbookSettings (storage runbookSettings rolledBack)
    rolledBack where
  hint := ⟨_, rfl, rfl⟩
  file := ⟨_, [("current-snapshot-id", .int 7001)], rfl, rfl, fun _ h => by cases h; rfl⟩

/-- A session of the job on the table after the rollback. -/
def rolledBackSession : Spark where
  first := latestRow
  before := ⟨rolledBack.rows, 9⟩
  after := ⟨rolledBack.rows, 9⟩
  failedDataFilesCount := 0
  rewriteManifestsResultCount := 0
  startedAtUtc := "2026-09-12T16:03:00Z"
  finishedAtUtc := "2026-09-12T16:04:00Z"

/-- After a rollback it does not: the query still leaves the snapshot rolled back
from. A job whose preflight read that snapshot rewrites the changed table. -/
theorem not_fenceHolds_rolledBack :
    tables.Reachable rolledBack ∧ ¬ FenceHolds interpreter runbookSettings rolledBack ∧
      (main (jobArguments runbookSettings ⟨"3", "7002"⟩ "run-1") rolledBackSession).Rewrites ∧
      rolledBack.current ≠ appended.current := by
  refine ⟨reachable_rolledBack, fun h => ?_, ⟨_, _, _, List.mem_cons_self⟩, by decide⟩
  obtain ⟨r, hr, hcurrent, hnewest⟩ := newest_of_agrees reachable_rolledBack rfl
    serves_rolledBack latestFirst_latestRow h
  have hr' : r = ⟨7001, minute 1, "append", 10⟩ :=
    (Table.sound reachable_rolledBack).eq_of_id hr (by decide) (Option.some.inj hcurrent).symm
  subst hr'
  exact absurd (hnewest ⟨7002, minute 2, "append", 15⟩ (by decide) (by decide)) (by decide)

end Lakehouse.Compaction
