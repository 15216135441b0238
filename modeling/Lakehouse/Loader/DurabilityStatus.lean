/-
The statuses a failed flush reports, against what happened to the two stores.

* `LooksAlike` — a failed call does not show whether it has landed.
* `Reported` — the statuses are true, and unknown where both may be.
* `reported_iff` — they are, unless the offsets are in doubt.
-/

import Lakehouse.Loader.Flush

namespace Lakehouse.Loader

variable {Bar : Type}

/-- What a commit of the table shows. -/
def CommitOutcome.seen : CommitOutcome → CommitOutcome
  | .unknown cause _ => .unknown cause false
  | outcome => outcome

/-- What `commitSync` shows. -/
def OffsetOutcome.seen : OffsetOutcome → OffsetOutcome
  | .failed cause _ => .failed cause false
  | .committed => .committed

theorem CommitOutcome.eq_of_seen {a b : CommitOutcome} (h : b.seen = a.seen)
    (hknown : ∀ cause landed, a ≠ .unknown cause landed) : b = a := by
  cases a with
  | unknown cause landed => exact absurd rfl (hknown cause landed)
  | _ => cases b <;> simp_all [seen]

theorem CommitOutcome.eq_unknown_of_seen {b : CommitOutcome} {cause : String} {landed : Bool}
    (h : b.seen = (CommitOutcome.unknown cause landed).seen) :
    ∃ landed', b = .unknown cause landed' := by
  cases b <;> simp_all [seen]

theorem OffsetOutcome.eq_failed_of_seen {b : OffsetOutcome} {cause : String} {landed : Bool}
    (h : b.seen = (OffsetOutcome.failed cause landed).seen) :
    ∃ landed', b = .failed cause landed' := by
  cases b <;> simp_all [seen]

namespace Main

/-- A flush cannot tell these environments apart. -/
structure LooksAlike (env env' : FlushEnvironment) : Prop where
  pathAt : env'.pathAt = env.pathAt
  ingestedAt : env'.ingestedAt = env.ingestedAt
  file : env'.file = env.file
  commit : env'.commit.seen = env.commit.seen
  offsets : env'.offsets.seen = env.offsets.seen

/-- The rows of a batch. -/
def batchRows (hash : Bar → String) (batch : Batch Bar) (env : FlushEnvironment) : List (Row Bar) :=
  batch.bars.map (IcebergWriter.record hash · env.ingestedAt.text)

/-- A status is true of an effect that is there, or of one that is not. -/
inductive Told (landed unchanged : Prop) : String → Prop where
  | committed : landed → Told landed unchanged "committed"
  | notCommitted : unchanged → Told landed unchanged "not_committed"
  | unknown : Told landed unchanged "unknown"

theorem Told.unchanged {landed unchanged : Prop} {status : String}
    (h : Told landed unchanged status) (hstatus : status = "not_committed") : unchanged := by
  cases h with
  | committed _ => exact absurd hstatus (by decide)
  | notCommitted hunchanged => exact hunchanged
  | unknown => exact absurd hstatus (by decide)

/-- The statuses of a failure are true of what the flush did to the stores; a store that
may have ended otherwise as well is unknown. -/
structure Reported (hash : Bar → String) (d : Durable Bar) (batch : Batch Bar)
    (env : FlushEnvironment) (failure : LoaderCommitException) : Prop where
  table : Told
    ((flush hash d batch env).1.table.rows = d.table.rows ++ batchRows hash batch env)
    ((flush hash d batch env).1.table.rows = d.table.rows) failure.icebergCommitStatus
  offsets : Told
    ((flush hash d batch env).1.committed = commitSync (flushOffsets batch.entries) d.committed)
    ((flush hash d batch env).1.committed = d.committed) failure.offsetCommitStatus
  tableUnknown : ∀ env', LooksAlike env env' →
    (flush hash d batch env').1.table.rows ≠ (flush hash d batch env).1.table.rows →
      failure.icebergCommitStatus = "unknown"
  offsetsUnknown : ∀ env', LooksAlike env env' →
    (flush hash d batch env').1.committed ≠ (flush hash d batch env).1.committed →
      failure.offsetCommitStatus = "unknown"

/-- The data file is written under a new path. -/
def FileWritten (d : Durable Bar) (env : FlushEnvironment) : Prop :=
  ∃ length closedLength, IcebergWriter.Written d.table env.pathAt length closedLength env.file

/-- The table commit succeeds and `commitSync` throws, with offsets to advance. -/
structure OffsetsInDoubt (d : Durable Bar) (batch : Batch Bar) (env : FlushEnvironment) : Prop where
  written : FileWritten d env
  committed : env.commit = .committed
  failed : env.offsets ≠ .committed
  advance : commitSync (flushOffsets batch.entries) d.committed ≠ d.committed

/-! ### What a flush does -/

/-- The rows and the offsets a flush leaves, and what it returns or throws. -/
structure Ends (outcome : Durable Bar × Except LoaderCommitException Nat) (rows : List (Row Bar))
    (committed : TopicPartition → Option Nat) (result : Except LoaderCommitException Nat) :
    Prop where
  rows : outcome.1.table.rows = rows
  committed : outcome.1.committed = committed
  result : outcome.2 = result

section Flush

variable (hash : Bar → String) {d : Durable Bar} {batch : Batch Bar} {env : FlushEnvironment}
  {cause : String} {landed : Bool}

theorem flush_nothing (hempty : batch.bars = []) :
    Ends (flush hash d batch env) d.table.rows d.committed (.ok 0) := by
  have hentries : batch.entries = [] := List.map_eq_nil_iff.mp hempty
  unfold flush
  rw [hempty, IcebergWriter.append_nil]
  simp only [offsetOutcome, hentries]
  exact ⟨rfl, commitSync_nil d.committed, rfl⟩

theorem flush_not_written (hne : batch.bars ≠ []) (h : ¬ FileWritten d env) :
    ∃ cause, Ends (flush hash d batch env) d.table.rows d.committed
      (.error (.dataFileWriteFailed cause)) := by
  obtain ⟨cause, happend⟩ := IcebergWriter.append_of_not_written hash env.ingestedAt hne
    (fun _ _ hw => h ⟨_, _, hw⟩) env.commit
  refine ⟨cause, ?_⟩
  unfold flush
  rw [happend]
  exact ⟨rfl, rfl, rfl⟩

theorem flush_table_failed (hne : batch.bars ≠ []) (h : FileWritten d env)
    (hcommit : env.commit = .failed cause) :
    Ends (flush hash d batch env) d.table.rows d.committed (.error (.icebergCommitFailed cause)) := by
  obtain ⟨length, closedLength, hw⟩ := h
  unfold flush
  rw [IcebergWriter.append_of_written hne hw, hcommit]
  exact ⟨rfl, rfl, rfl⟩

theorem flush_table_unknown (hne : batch.bars ≠ []) (h : FileWritten d env)
    (hcommit : env.commit = .unknown cause landed) :
    Ends (flush hash d batch env)
      (if landed then d.table.rows ++ batchRows hash batch env else d.table.rows) d.committed
      (.error (.icebergCommitStateUnknown cause)) := by
  obtain ⟨length, closedLength, hw⟩ := h
  unfold flush
  rw [IcebergWriter.append_of_written hne hw, hcommit]
  cases landed with
  | false => exact ⟨rfl, rfl, rfl⟩
  | true => exact ⟨IcebergWriter.rows_appendFile _, rfl, rfl⟩

theorem flush_table_committed (hne : batch.bars ≠ []) (h : FileWritten d env)
    (hcommit : env.commit = .committed) :
    match offsetOutcome batch env.offsets with
    | .failed cause landed =>
        Ends (flush hash d batch env) (d.table.rows ++ batchRows hash batch env)
          (if landed then commitSync (flushOffsets batch.entries) d.committed else d.committed)
          (.error (.offsetCommitFailed cause))
    | .committed =>
        Ends (flush hash d batch env) (d.table.rows ++ batchRows hash batch env)
          (commitSync (flushOffsets batch.entries) d.committed) (.ok batch.bars.length) := by
  obtain ⟨length, closedLength, hw⟩ := h
  unfold flush
  rw [IcebergWriter.append_of_written hne hw, hcommit]
  simp only [IcebergWriter.commitAppend]
  cases offsetOutcome batch env.offsets with
  | failed cause landed => exact ⟨IcebergWriter.rows_appendFile _, rfl, rfl⟩
  | committed => exact ⟨IcebergWriter.rows_appendFile _, rfl, rfl⟩

theorem flush_offsets_failed (hne : batch.bars ≠ []) (hw : FileWritten d env)
    (hcommit : env.commit = .committed) (hoffsets : env.offsets = .failed cause landed)
    (hbatch : flushOffsets batch.entries ≠ []) :
    Ends (flush hash d batch env) (d.table.rows ++ batchRows hash batch env)
      (if landed then commitSync (flushOffsets batch.entries) d.committed else d.committed)
      (.error (.offsetCommitFailed cause)) := by
  have houtcome : offsetOutcome batch env.offsets = .failed cause landed := by
    rw [hoffsets]
    exact if_neg (by simpa using hbatch)
  have hends := flush_table_committed hash hne hw hcommit
  rw [houtcome] at hends
  exact hends

end Flush

/-! ### What it reports -/

section Report

variable {hash : Bar → String} {d : Durable Bar} {batch : Batch Bar} {env env' : FlushEnvironment}
  {cause : String} {landed : Bool} {failure : LoaderCommitException}

theorem LooksAlike.refl (env : FlushEnvironment) : LooksAlike env env := ⟨rfl, rfl, rfl, rfl, rfl⟩

theorem LooksAlike.fileWritten (h : LooksAlike env env') (hw : FileWritten d env) :
    FileWritten d env' := by
  unfold FileWritten
  rw [h.pathAt, h.file]
  exact hw

theorem LooksAlike.not_fileWritten (h : LooksAlike env env') (hw : ¬ FileWritten d env) :
    ¬ FileWritten d env' := by
  unfold FileWritten
  rw [h.pathAt, h.file]
  exact hw

/-- Only of an unknown state there are two. -/
theorem LooksAlike.commit_eq {outcome : CommitOutcome} (h : LooksAlike env env')
    (hcommit : env.commit = outcome) (hknown : ∀ cause landed, outcome ≠ .unknown cause landed) :
    env'.commit = outcome := by
  rw [← hcommit] at hknown ⊢
  exact CommitOutcome.eq_of_seen h.commit hknown

/-- Nothing has happened in any environment that looks alike. -/
theorem reported_of_unchanged (htable : failure.icebergCommitStatus = "not_committed")
    (hoffsets : failure.offsetCommitStatus = "not_committed")
    (h : ∀ env', LooksAlike env env' → (flush hash d batch env').1.table.rows = d.table.rows ∧
      (flush hash d batch env').1.committed = d.committed) : Reported hash d batch env failure := by
  obtain ⟨hrows, hcommitted⟩ := h env (.refl env)
  constructor
  · rw [htable]
    exact .notCommitted hrows
  · rw [hoffsets]
    exact .notCommitted hcommitted
  · intro env' halike hne
    exact absurd ((h env' halike).1.trans hrows.symm) hne
  · intro env' halike hne
    exact absurd ((h env' halike).2.trans hcommitted.symm) hne

theorem reported_of_not_written (hne : batch.bars ≠ []) (hw : ¬ FileWritten d env)
    (h : (flush hash d batch env).2 = .error failure) : Reported hash d batch env failure := by
  obtain ⟨cause, hends⟩ := flush_not_written hash hne hw
  cases hends.result.symm.trans h
  refine reported_of_unchanged rfl rfl fun env' halike => ?_
  obtain ⟨cause', hends'⟩ := flush_not_written hash hne (halike.not_fileWritten hw)
  exact ⟨hends'.rows, hends'.committed⟩

theorem reported_of_table_failed (hne : batch.bars ≠ []) (hw : FileWritten d env)
    (hcommit : env.commit = .failed cause) (h : (flush hash d batch env).2 = .error failure) :
    Reported hash d batch env failure := by
  cases (flush_table_failed hash hne hw hcommit).result.symm.trans h
  refine reported_of_unchanged rfl rfl fun env' halike => ?_
  have hcommit' := halike.commit_eq hcommit (by simp)
  have hends := flush_table_failed hash hne (halike.fileWritten hw) hcommit'
  exact ⟨hends.rows, hends.committed⟩

/-- The state of the table is unknown; the offsets have not been touched. -/
theorem reported_of_table_unknown (hne : batch.bars ≠ []) (hw : FileWritten d env)
    (hcommit : env.commit = .unknown cause landed)
    (h : (flush hash d batch env).2 = .error failure) : Reported hash d batch env failure := by
  have hends := flush_table_unknown hash hne hw hcommit
  cases hends.result.symm.trans h
  constructor
  · exact .unknown
  · exact .notCommitted hends.committed
  · intro env' halike hrows
    rfl
  · intro env' halike hcommitted
    have hseen := halike.commit
    rw [hcommit] at hseen
    obtain ⟨landed', hcommit'⟩ := CommitOutcome.eq_unknown_of_seen hseen
    have hends' := flush_table_unknown hash hne (halike.fileWritten hw) hcommit'
    exact absurd (hends'.committed.trans hends.committed.symm) hcommitted

/-- A failed offset commit, in any environment that looks alike. -/
theorem LooksAlike.offsets_failed (hash : Bar → String) (halike : LooksAlike env env')
    (hne : batch.bars ≠ []) (hw : FileWritten d env) (hcommit : env.commit = .committed)
    (hoffsets : env.offsets = .failed cause landed) (hbatch : flushOffsets batch.entries ≠ []) :
    ∃ landed' : Bool, Ends (flush hash d batch env') (d.table.rows ++ batchRows hash batch env)
      (if landed' then commitSync (flushOffsets batch.entries) d.committed else d.committed)
      (.error (.offsetCommitFailed cause)) := by
  have hseen := halike.offsets
  rw [hoffsets] at hseen
  obtain ⟨landed', hoffsets'⟩ := OffsetOutcome.eq_failed_of_seen hseen
  have hcommit' := halike.commit_eq hcommit (by simp)
  have hrows : batchRows hash batch env' = batchRows hash batch env := by
    unfold batchRows
    rw [halike.ingestedAt]
  refine ⟨landed', ?_⟩
  rw [← hrows]
  exact flush_offsets_failed hash hne (halike.fileWritten hw) hcommit' hoffsets' hbatch

/-- A failed offset commit is always reported as one that did nothing. -/
theorem reported_offsets_failed_iff (hne : batch.bars ≠ []) (hw : FileWritten d env)
    (hcommit : env.commit = .committed) (hoffsets : env.offsets = .failed cause landed)
    (hbatch : flushOffsets batch.entries ≠ []) :
    Reported hash d batch env (.offsetCommitFailed cause) ↔
      commitSync (flushOffsets batch.entries) d.committed = d.committed := by
  have hends := flush_offsets_failed hash hne hw hcommit hoffsets hbatch
  constructor
  · intro hreported
    by_contra hadvance
    let other : FlushEnvironment := { env with offsets := .failed cause (!landed) }
    have halike : LooksAlike env other := ⟨rfl, rfl, rfl, rfl, by rw [hoffsets]; rfl⟩
    have hcommit' : other.commit = .committed := hcommit
    have hother := flush_offsets_failed hash hne (halike.fileWritten hw) hcommit' rfl hbatch
    have hstatus := hreported.offsetsUnknown other halike (by
      rw [hother.committed, hends.committed]
      cases landed with
      | false => exact hadvance
      | true => exact fun heq => hadvance heq.symm)
    exact absurd hstatus (show "not_committed" ≠ "unknown" by decide)
  · intro hsame
    simp only [hsame, ite_self] at hends
    constructor
    · exact .committed hends.rows
    · exact .notCommitted hends.committed
    · intro env' halike hrows
      obtain ⟨landed', hends'⟩ := LooksAlike.offsets_failed hash halike hne hw hcommit
        hoffsets hbatch
      exact absurd (hends'.rows.trans hends.rows.symm) hrows
    · intro env' halike hcommitted
      obtain ⟨landed', hends'⟩ := LooksAlike.offsets_failed hash halike hne hw hcommit
        hoffsets hbatch
      simp only [hsame, ite_self] at hends'
      exact absurd (hends'.committed.trans hends.committed.symm) hcommitted

/-- The statuses of a failed flush are what happened, and what can be known of it, unless the
offsets are in doubt. -/
theorem reported_iff (h : (flush hash d batch env).2 = .error failure) :
    Reported hash d batch env failure ↔ ¬ OffsetsInDoubt d batch env := by
  by_cases hne : batch.bars = []
  · cases (flush_nothing hash hne).result.symm.trans h
  by_cases hw : FileWritten d env
  · cases hcommit : env.commit with
    | failed cause =>
        refine iff_of_true (reported_of_table_failed hne hw hcommit h) fun hdoubt => ?_
        cases hcommit.symm.trans hdoubt.committed
    | unknown cause landed =>
        refine iff_of_true (reported_of_table_unknown hne hw hcommit h) fun hdoubt => ?_
        cases hcommit.symm.trans hdoubt.committed
    | committed =>
        have hends := flush_table_committed hash hne hw hcommit
        cases houtcome : offsetOutcome batch env.offsets with
        | committed =>
            rw [houtcome] at hends
            cases hends.result.symm.trans h
        | failed cause landed =>
            rw [houtcome] at hends
            cases hends.result.symm.trans h
            unfold offsetOutcome at houtcome
            split at houtcome
            · cases houtcome
            · rename_i hbatch
              rw [reported_offsets_failed_iff hne hw hcommit houtcome (by simpa using hbatch)]
              constructor
              · exact fun hsame hdoubt => hdoubt.advance hsame
              · intro hnot
                by_contra hadvance
                exact hnot ⟨hw, hcommit, by simp [houtcome], hadvance⟩
  · exact iff_of_true (reported_of_not_written hne hw h) fun hdoubt => hw hdoubt.written

end Report

/-! ### A timeout -/

/-- The last bar of the first record of a partition. -/
def lastBar : Batch Nat := ⟨[⟨7, ⟨"bars", 0, 0⟩, true⟩]⟩

def nothingDurable : Durable Nat := ⟨⟨"table", [], []⟩, fun _ => none⟩

/-- The table commit is confirmed later; the client gives up on it. -/
def tableTimeout : FlushEnvironment :=
  ⟨0, 0, .written 4 903, .unknown "org.apache.iceberg.exceptions.CommitStateUnknownException" true,
    .committed⟩

/-- The broker applies the offsets; the answer is too late. -/
def offsetTimeout : FlushEnvironment :=
  ⟨0, 0, .written 4 903, .committed, .failed "org.apache.kafka.common.errors.TimeoutException" true⟩

theorem tableTimeout_reported : ∃ failure,
    (flush (fun _ => "") nothingDurable lastBar tableTimeout).2 = .error failure ∧
      Reported (fun _ => "") nothingDurable lastBar tableTimeout failure := by
  have h : (flush (fun _ => "") nothingDurable lastBar tableTimeout).2 = .error
      (.icebergCommitStateUnknown "org.apache.iceberg.exceptions.CommitStateUnknownException") := rfl
  exact ⟨_, h, (reported_iff h).mpr fun hdoubt => nomatch hdoubt.committed⟩

/-- The offset is committed, and reported as not committed. -/
theorem offsetTimeout_misreported : ∃ failure,
    (flush (fun _ => "") nothingDurable lastBar offsetTimeout).2 = .error failure ∧
      failure.offsetCommitStatus = "not_committed" ∧
      nothingDurable.committed ⟨"bars", 0⟩ = none ∧
      (flush (fun _ => "") nothingDurable lastBar offsetTimeout).1.committed ⟨"bars", 0⟩ = some 1 ∧
      ¬ Reported (fun _ => "") nothingDurable lastBar offsetTimeout failure := by
  have hcommitted :
      (flush (fun _ => "") nothingDurable lastBar offsetTimeout).1.committed ⟨"bars", 0⟩ = some 1 := by
    decide
  refine ⟨_, rfl, rfl, rfl, hcommitted, fun hreported => ?_⟩
  rw [hreported.offsets.unchanged rfl] at hcommitted
  cases hcommitted

end Main

end Lakehouse.Loader
