/-
What the table's metadata says of its data files.

`append` registers the length it asks the appender for inside the `try`, before the
close writes what is buffered and the footer.

* `appendAll_ok` — the files a sequence of calls registers, one for each call.
* `recordCounts_of_appendAll` — their record counts are right.
* `faithful_iff_exact` — their sizes are if every length was that of the closed file.
* `statistics_faithful_iff` — which it never is.
-/

import Mathlib.Algebra.BigOperators.Group.List.Basic
import Mathlib.Algebra.GroupWithZero.Nat
import Lakehouse.Loader.IcebergWriter

namespace Lakehouse.Loader

variable {Bar : Type}

/-- A call of `append`, with what it reads of the clock and how the appender and the
commit end. -/
structure AppendCall (Bar : Type) where
  bars : List Bar
  pathAt : Instant
  ingestedAt : Instant
  file : FileOutcome
  commit : CommitOutcome
deriving DecidableEq, Repr

/-- The contract of `FileAppender.length()`: before the close, the rows still buffered and
the footer are not in it. -/
def FileOutcome.Contract : FileOutcome → Prop
  | .written length closedLength =>
      ∃ buffered footer, 0 < footer ∧ closedLength = length + buffered + footer
  | .failed _ => True

/-- The length that was asked for is that of the closed file. -/
def FileOutcome.Exact : FileOutcome → Prop
  | .written length closedLength => length = closedLength
  | .failed _ => True

theorem FileOutcome.not_exact_of_contract {length closedLength : Nat}
    (h : (FileOutcome.written length closedLength).Contract) :
    ¬ (FileOutcome.written length closedLength).Exact := by
  obtain ⟨buffered, footer, hfooter, hclosed⟩ := h
  show ¬ length = closedLength
  omega

namespace IcebergWriter

/-- Calls of `append`, up to the first that throws. -/
def appendAll (hash : Bar → String) (table : Table Bar) :
    List (AppendCall Bar) → Except LoaderCommitException (Table Bar)
  | [] => .ok table
  | call :: calls =>
      match append hash table call.bars call.pathAt call.ingestedAt call.file call.commit with
      | (_, .error failure) => .error failure
      | (table, .ok _) => appendAll hash table calls

end IcebergWriter

/-! ### Statistics -/

/-- `total-records` and `total-files-size` of a snapshot. -/
structure Totals where
  records : Nat
  filesSize : Nat
deriving DecidableEq, Repr

/-- A snapshot's totals are those of the one before and what is registered for the new file. -/
def Totals.add (totals : Totals) (file : DataFile Bar) : Totals :=
  ⟨totals.records + file.recordCount, totals.filesSize + file.fileSizeInBytes⟩

def Table.totals (table : Table Bar) : Totals := table.files.foldl Totals.add ⟨0, 0⟩

/-- What is registered for a file is what it is. -/
structure DataFile.Faithful (file : DataFile Bar) : Prop where
  recordCount : file.recordCount = file.rows.length
  fileSize : file.fileSizeInBytes = file.closedLength

/-- The files of a table are registered as what they are, and its totals are their sums. -/
structure Table.StatisticsFaithful (table : Table Bar) : Prop where
  files : ∀ file ∈ table.files, file.Faithful
  records : table.totals.records = (table.files.map fun file => file.rows.length).sum
  filesSize : table.totals.filesSize = (table.files.map DataFile.closedLength).sum

theorem foldl_totals (files : List (DataFile Bar)) (start : Totals) :
    files.foldl Totals.add start =
      ⟨start.records + (files.map DataFile.recordCount).sum,
        start.filesSize + (files.map DataFile.fileSizeInBytes).sum⟩ := by
  induction files generalizing start with
  | nil => simp
  | cons file files ih =>
      rw [List.foldl_cons, ih]
      simp [Totals.add, Nat.add_assoc]

/-- The totals follow from the files. -/
theorem statisticsFaithful_iff (table : Table Bar) :
    table.StatisticsFaithful ↔ ∀ file ∈ table.files, file.Faithful := by
  constructor
  · exact Table.StatisticsFaithful.files
  · intro h
    have hrecords : table.files.map DataFile.recordCount =
        table.files.map fun file => file.rows.length :=
      List.map_congr_left fun file hfile => (h file hfile).recordCount
    have hsizes : table.files.map DataFile.fileSizeInBytes =
        table.files.map DataFile.closedLength :=
      List.map_congr_left fun file hfile => (h file hfile).fileSize
    refine ⟨h, ?_, ?_⟩
    · rw [Table.totals, foldl_totals, ← hrecords]
      exact Nat.zero_add _
    · rw [Table.totals, foldl_totals, ← hsizes]
      exact Nat.zero_add _

/-! ### Sequences of calls -/

/-- The file a call registers. -/
structure Registered (call : AppendCall Bar) (file : DataFile Bar) : Prop where
  bars : file.rows.map Row.bar = call.bars
  recordCount : file.recordCount = file.rows.length
  written : call.file = .written file.fileSizeInBytes file.closedLength

theorem Registered.faithful_iff {call : AppendCall Bar} {file : DataFile Bar}
    (h : Registered call file) : file.Faithful ↔ call.file.Exact := by
  rw [h.written]
  exact ⟨DataFile.Faithful.fileSize, fun hsize => ⟨h.recordCount, hsize⟩⟩

section Calls

variable {hash : Bar → String} {table table' : Table Bar} {calls : List (AppendCall Bar)}

/-- A call that returns registers one file. -/
theorem append_registers {call : AppendCall Bar} {inserted : Nat} (hne : call.bars ≠ [])
    (h : IcebergWriter.append hash table call.bars call.pathAt call.ingestedAt call.file call.commit =
      (table', .ok inserted)) :
    ∃ file, table'.files = table.files ++ [file] ∧ Registered call file := by
  by_cases hwritten : ∃ length closedLength,
      IcebergWriter.Written table call.pathAt length closedLength call.file
  · obtain ⟨length, closedLength, hwritten⟩ := hwritten
    rw [IcebergWriter.append_of_written hne hwritten] at h
    cases hcommit : call.commit with
    | committed =>
        rw [hcommit] at h
        cases h
        refine ⟨_, rfl, ?_, ?_, hwritten.1⟩
        · simp [IcebergWriter.written, IcebergWriter.record, Function.comp_def]
        · simp [IcebergWriter.written]
    | failed cause =>
        rw [hcommit] at h
        cases h
    | unknown cause landed =>
        rw [hcommit] at h
        cases h
  · have hnot := fun length closedLength h => hwritten ⟨length, closedLength, h⟩
    obtain ⟨cause, happend⟩ := IcebergWriter.append_of_not_written hash call.ingestedAt hne hnot
      call.commit
    cases happend.symm.trans h

/-- Calls that return register one file each. -/
theorem appendAll_ok (hne : ∀ call ∈ calls, call.bars ≠ [])
    (h : IcebergWriter.appendAll hash table calls = .ok table') :
    ∃ added, table'.files = table.files ++ added ∧ List.Forall₂ Registered calls added := by
  induction calls generalizing table with
  | nil =>
      cases h
      exact ⟨[], by simp, .nil⟩
  | cons call calls ih =>
      unfold IcebergWriter.appendAll at h
      split at h
      · cases h
      · rename_i middle inserted happend
        obtain ⟨file, hfiles, hregistered⟩ := append_registers (hne call (by simp)) happend
        obtain ⟨added, hadded, hall⟩ := ih (fun call hcall => hne call (by simp [hcall])) h
        exact ⟨file :: added, by rw [hadded, hfiles]; simp, .cons hregistered hall⟩

theorem forall_mem_iff_of_forall₂ {α β : Type*} {R : α → β → Prop} {P : α → Prop} {Q : β → Prop}
    {xs : List α} {ys : List β} (h : List.Forall₂ R xs ys) (hR : ∀ x y, R x y → (Q y ↔ P x)) :
    (∀ y ∈ ys, Q y) ↔ ∀ x ∈ xs, P x := by
  induction h with
  | nil => simp
  | cons hxy _ ih => simp [hR _ _ hxy, ih]

/-- The record counts are right. -/
theorem recordCounts_of_appendAll
    (htable : ∀ file ∈ table.files, file.recordCount = file.rows.length)
    (hne : ∀ call ∈ calls, call.bars ≠ [])
    (h : IcebergWriter.appendAll hash table calls = .ok table') :
    ∀ file ∈ table'.files, file.recordCount = file.rows.length := by
  obtain ⟨added, hfiles, hall⟩ := appendAll_ok hne h
  have hadded := (forall_mem_iff_of_forall₂ (P := fun _ => True)
    (Q := fun file : DataFile Bar => file.recordCount = file.rows.length) hall
    fun call file hregistered => iff_of_true hregistered.recordCount trivial).mpr fun _ _ => trivial
  intro file hfile
  rw [hfiles] at hfile
  rcases List.mem_append.mp hfile with hold | hnew
  · exact htable file hold
  · exact hadded file hnew

/-- The statistics are right exactly if every length was that of the closed file. -/
theorem faithful_iff_exact (htable : table.StatisticsFaithful)
    (hne : ∀ call ∈ calls, call.bars ≠ []) (h : IcebergWriter.appendAll hash table calls = .ok table') :
    table'.StatisticsFaithful ↔ ∀ call ∈ calls, call.file.Exact := by
  obtain ⟨added, hfiles, hall⟩ := appendAll_ok hne h
  rw [statisticsFaithful_iff, hfiles, List.forall_mem_append, and_iff_right htable.files]
  exact forall_mem_iff_of_forall₂ hall fun _ _ hregistered => hregistered.faithful_iff

/-- Under the contract of the appender the statistics are right as long as nothing has
been appended. -/
theorem statistics_faithful_iff (htable : table.StatisticsFaithful)
    (hne : ∀ call ∈ calls, call.bars ≠ []) (hcontract : ∀ call ∈ calls, call.file.Contract)
    (h : IcebergWriter.appendAll hash table calls = .ok table') :
    table'.StatisticsFaithful ↔ calls = [] := by
  constructor
  · intro hfaithful
    have hexact := (faithful_iff_exact htable hne h).mp hfaithful
    obtain ⟨added, -, hall⟩ := appendAll_ok hne h
    cases hall with
    | nil => rfl
    | @cons call file calls _ hregistered _ =>
        have hcall := hcontract call (by simp)
        have hcall' := hexact call (by simp)
        rw [hregistered.written] at hcall hcall'
        exact absurd hcall' (FileOutcome.not_exact_of_contract hcall)
  · rintro rfl
    cases h
    exact htable

end Calls

/-! ### One row -/

def emptyTable : Table Nat := ⟨"table", [], []⟩

theorem emptyTable_faithful : emptyTable.StatisticsFaithful :=
  (statisticsFaithful_iff _).mpr fun _ hfile => nomatch hfile

/-- A row is still buffered when only the four magic bytes are written. -/
def oneRow : AppendCall Nat := ⟨[1], 0, 0, .written 4 903, .committed⟩

theorem oneRow_contract : ∀ call ∈ [oneRow], call.bars ≠ [] ∧ call.file.Contract := by
  intro call hcall
  cases List.mem_singleton.mp hcall
  exact ⟨by decide, 42, 857, by decide, by decide⟩

theorem oneRow_unfaithful : ∃ table,
    IcebergWriter.appendAll (fun _ => "") emptyTable [oneRow] = .ok table ∧
      ¬ table.StatisticsFaithful := by
  obtain ⟨table, htable⟩ : ∃ table,
      IcebergWriter.appendAll (fun _ => "") emptyTable [oneRow] = .ok table := ⟨_, rfl⟩
  refine ⟨table, htable, fun hfaithful => ?_⟩
  have hnil := (statistics_faithful_iff emptyTable_faithful (fun c h => (oneRow_contract c h).1)
    (fun c h => (oneRow_contract c h).2) htable).mp hfaithful
  cases hnil

/-- The table has one file of 903 bytes, and a total of four. -/
theorem oneRow_totals : ∃ table,
    IcebergWriter.appendAll (fun _ => "") emptyTable [oneRow] = .ok table ∧
      (∀ call ∈ [oneRow], call.bars ≠ [] ∧ call.file.Contract) ∧
      table.totals = ⟨1, 4⟩ ∧ table.files.map DataFile.closedLength = [903] ∧
      ¬ table.StatisticsFaithful :=
  ⟨_, rfl, oneRow_contract, by decide, by decide,
    fun hfaithful => absurd hfaithful.filesSize (by decide)⟩

end Lakehouse.Loader
