/-
How often a bar can be in the table.

A process writes what it has polled at most once, and it polls every record of
its partitions at most once. So copies come from processes that started again
below what an earlier one had written.

* `copies_le_starts` — a bar has at most as many copies in the table as in the
  topic, times the number of processes that were started.
* `deduplicated_bars` — with one row kept for each hash, the bars of the records
  below the committed offsets are there once, and all are bars of the topic.
-/

import Mathlib.Algebra.Order.BigOperators.Group.Finset
import Lakehouse.Loader.Durability

namespace Lakehouse.Loader

variable {Payload Bar : Type}

open IcebergWriter (appendFile)

/-! ### What is in the topic -/

/-- All bars of the records of the topic. -/
def published (decode : Payload → Except String (List Bar)) (broker : Broker Payload) :
    Multiset Bar :=
  backlog decode broker (fun tp => (broker.log tp).endOffset) broker.partitions.toFinset

section Published

variable {decode : Payload → Except String (List Bar)} {broker : Broker Payload}

/-- A slice has no bars that its log does not have. -/
theorem barsOf_slice_le (l : PartitionLog Payload) {low high : Nat} (hlow : l.beginning ≤ low)
    (hhigh : high ≤ l.endOffset) :
    ((barsOf decode (l.slice low high) : List Bar) : Multiset Bar) ≤
      (barsOf decode (l.slice l.beginning l.endOffset) : List Bar) := by
  have hsub : (l.slice low high).Sublist (l.slice l.beginning l.endOffset) := by
    refine List.monotone_filter_right l.records ?_
    intro r hr
    simp only [Bool.and_eq_true, decide_eq_true_eq] at hr ⊢
    omega
  exact Multiset.coe_le.mpr (hsub.flatMap _).subperm

theorem published_produce {tp : TopicPartition} {offset : Nat} {value : Payload}
    (h : (broker.log tp).endOffset ≤ offset) :
    published decode broker ≤ published decode (broker.produce tp offset value h) := by
  unfold published backlog
  refine Finset.sum_le_sum fun other _ => ?_
  have hend : (broker.log other).endOffset ≤
      ((broker.produce tp offset value h).log other).endOffset :=
    Broker.le_produce_endOffset broker tp other h
  have hbeginning : ((broker.produce tp offset value h).log other).beginning =
      (broker.log other).beginning := Broker.produce_beginning broker tp other h
  have hslice : ((broker.produce tp offset value h).log other).slice (broker.log other).beginning
      (broker.log other).endOffset =
        (broker.log other).slice (broker.log other).beginning (broker.log other).endOffset :=
    Broker.produce_slice broker tp other h (Nat.le_refl _)
  rw [← hslice, ← hbeginning]
  exact barsOf_slice_le _ (Nat.le_refl _) hend

/-- A session has polled no bar more often than it is in the topic. -/
theorem Session.Sound.polled_le {stored : List Bar} {session : Session Bar}
    (h : session.Sound decode broker stored)
    (hassigned : ∀ tp ∈ session.assignment, tp ∈ broker.partitions) :
    ((session.polled.flatMap Polled.bars : List Bar) : Multiset Bar) ≤ published decode broker := by
  have hkeys : ∀ r ∈ session.polled, r.source.topicPartition ∈ broker.partitions.toFinset :=
    fun r hr => List.mem_toFinset.mpr (hassigned _ (h.assigned r hr))
  rw [← Framing.sum_filter_flatMap_eq Polled.bars hkeys, published, backlog]
  refine Finset.sum_le_sum fun tp _ => ?_
  have hbars := (barsOf_of_decodes (h.delivered tp)).1
  rw [polledFrom] at hbars
  rw [← hbars]
  exact barsOf_slice_le _ (h.beginning_le tp) (h.le_endOffset tp)

end Published

/-! ### What one step stores -/

/-- A process is started. -/
def Action.starts : Action Payload → Bool
  | .start _ _ => true
  | _ => false

namespace Main

variable {s : Settings Payload Bar} {w w' : World Payload Bar} {p : Process Bar}

/-- A step takes entries from the front of what waits and puts their bars into
the table; a process that goes on has them among those it has stored. -/
structure Stores (w : World Payload Bar) (p : Process Bar) (w' : World Payload Bar)
    (entries : List (Entry Bar)) : Prop where
  waiting : entries <+: p.session.waiting
  bars : w'.table.bars = w.table.bars ++ entries.map Entry.bar
  stored : ∀ p', w'.loader = some p' → p'.session.flushed ++ p'.session.written =
    p.session.flushed ++ p.session.written ++ entries

theorem stores_nothing (htable : w'.table.bars = w.table.bars)
    (hstored : ∀ p', w'.loader = some p' → p'.session.flushed ++ p'.session.written =
      p.session.flushed ++ p.session.written) : Stores w p w' [] where
  waiting := List.nil_prefix
  bars := by simpa using htable
  stored := by simpa using hstored

theorem stores_nothing_of_exit (htable : w'.table.bars = w.table.bars) (hnone : w'.loader = none) :
    Stores w p w' [] :=
  stores_nothing htable (by simp [hnone])

theorem stores_nothing_of_put {p' : Process Bar} (lines : List Line)
    (hstored : p'.flushed ++ p'.pc.written = p.flushed ++ p.pc.written) :
    Stores w p (w.put p' lines) [] := by
  refine stores_nothing rfl ?_
  rintro _ ⟨⟩
  exact hstored

/-- A pending table commit that takes effect stores the batch. -/
theorem stores_batch {batch : Batch Bar} {resume : Resume Bar} {startedAt : Int}
    {file : DataFile Bar} (hpc : p.pc = .flushing batch resume (.tableCommit startedAt file))
    (hfile : FileMatches p) (htable : w'.table.bars = (appendFile w.table file).bars)
    (hstored : ∀ p', w'.loader = some p' → ∃ inserted,
      p' = { p with pc := .flushing batch resume (.offsetCommit startedAt inserted) }) :
    Stores w p w' batch.entries where
  waiting := by
    have hwaiting : p.session.waiting = batch.entries ++ (resume.entries ++ p.batch.pending) := by
      simp [Process.session, hpc, Pc.unwritten]
    exact hwaiting ▸ List.prefix_append _ _
  bars := by
    rw [htable, IcebergWriter.bars_appendFile, hfile batch resume startedAt file hpc, Batch.bars]
  stored := by
    intro p' hp'
    obtain ⟨inserted, rfl⟩ := hstored p' hp'
    simp [Process.session, Pc.written, hpc]

/-- The last thing a process does stores its pending batch or nothing. -/
theorem stores_of_land (hfile : FileMatches p) (lines : List Line) :
    ∃ entries, Stores w p ((land w p).exit lines) entries := by
  unfold land
  split
  · rename_i batch resume startedAt file hpc
    exact ⟨batch.entries, stores_batch hpc hfile rfl (by simp [World.exit])⟩
  · exact ⟨[], stores_nothing_of_exit rfl rfl⟩
  · exact ⟨[], stores_nothing_of_exit rfl rfl⟩

/-- A table commit that takes effect stores the batch, and nothing else stores
anything. -/
theorem stores_of_step (hfile : FileMatches p) {a : Action Payload}
    (h : ProcessStep s w p a w') : ∃ entries, Stores w p w' entries := by
  cases h with
  | assign => exact ⟨[], stores_nothing_of_put _ rfl⟩
  | pollNothing hpc => exact ⟨[], stores_nothing_of_put _ (by simp [hpc, Pc.written])⟩
  | decodeFailed => exact ⟨[], stores_nothing_of_exit rfl rfl⟩
  | received hpc =>
      have hidle : p.pc.written = [] := by simp [hpc, Pc.written]
      exact ⟨[], stores_nothing_of_put _ (by simp [received, hidle])⟩
  | pollFailed => exact ⟨[], stores_nothing_of_exit rfl rfl⟩
  | announced hpc => exact ⟨[], stores_nothing_of_put _ (by simp [hpc, Pc.written])⟩
  | nothingToWrite hpc hempty =>
      exact ⟨[], stores_nothing_of_put _ (by simp [hpc, Pc.written, hempty])⟩
  | @dataFileFailed batch resume startedAt outcome c table failure hpc hne hwrite =>
      have hbars := @IcebergWriter.bars_writeDataFile Bar s.hash w.table batch.bars c.first c.second
        outcome
      rw [hwrite] at hbars
      exact ⟨[], stores_nothing_of_exit hbars rfl⟩
  | @dataFileWritten batch resume startedAt outcome c table file hpc hne hwrite =>
      have hbars := @IcebergWriter.bars_writeDataFile Bar s.hash w.table batch.bars c.first c.second
        outcome
      rw [hwrite] at hbars
      refine ⟨[], stores_nothing hbars ?_⟩
      rintro _ ⟨⟩
      simp [Process.session, hpc, Pc.written]
  | @tableCommitFailed batch resume startedAt file outcome c table failure hpc hcommit =>
      have htable := IcebergWriter.commitAppend_cases w.table file outcome
      rw [hcommit] at htable
      rcases htable with rfl | ⟨rfl, -⟩
      · exact ⟨batch.entries, stores_batch hpc hfile rfl (by simp [commitFailed, World.exit])⟩
      · exact ⟨[], stores_nothing_of_exit rfl rfl⟩
  | @tableCommitted batch resume startedAt file outcome c table hpc hcommit =>
      have htable := IcebergWriter.commitAppend_cases w.table file outcome
      rw [hcommit] at htable
      rcases htable with rfl | ⟨-, habsurd⟩
      · refine ⟨batch.entries, stores_batch hpc hfile rfl ?_⟩
        rintro _ ⟨⟩
        exact ⟨_, rfl⟩
      · exact absurd rfl habsurd
  | @offsetCommitFailed batch resume startedAt inserted cause landed c hpc hne =>
      cases landed <;> exact ⟨[], stores_nothing_of_exit rfl rfl⟩
  | offsetsCommitted hpc =>
      refine ⟨[], stores_nothing rfl ?_⟩
      rintro _ ⟨⟩
      rw [session_flushDone hpc]
      simp [Process.session, hpc, Pc.written]
  | windowReset hpc => exact ⟨[], stores_nothing_of_put _ (by simp [hpc, Pc.written])⟩
  | aged hpc => exact ⟨[], stores_nothing_of_put _ (by simp [hpc, Pc.written])⟩
  | notAged hpc => exact ⟨[], stores_nothing_of_put _ (by simp [hpc, Pc.written])⟩
  | heartbeat hpc => exact ⟨[], stores_nothing_of_put _ (by simp [hpc, Pc.written])⟩
  | enteredLoop hpc => exact ⟨[], stores_nothing_of_put _ (by simp [hpc, Pc.written])⟩
  | leftLoop hpc => exact ⟨[], stores_nothing_of_put _ (by simp [hpc, Pc.written])⟩
  | finalFlush hpc => exact ⟨[], stores_nothing_of_put _ (by simp [hpc, Pc.written])⟩
  | closed => exact ⟨[], stores_nothing_of_exit rfl rfl⟩
  | stopped => exact ⟨[], stores_nothing_of_put _ rfl⟩
  | @crashed landed =>
      cases landed with
      | false => exact ⟨[], stores_nothing_of_exit rfl rfl⟩
      | true => exact stores_of_land hfile []

/-! ### Runs -/

/-- The running process has the partitions of the topic, or none yet. -/
theorem assigned_of_reachable (h : (system s).Reachable w) (hp : w.loader = some p) :
    ∀ tp ∈ p.assignment, tp ∈ w.broker.partitions := by
  refine system_reachable_induction
    (P := fun w => ∀ p, w.loader = some p → ∀ tp ∈ p.assignment, tp ∈ w.broker.partitions)
    ?_ ?_ h p hp
  · intro w hinit p hp
    simp [hinit.2.2.2] at hp
  · intro w a w' _ ih hs p' hp'
    cases hs with
    | produce => exact ih p' hp'
    | startRefused => exact ih p' hp'
    | startFailed => cases hp'
    | started =>
        cases hp'
        intro tp htp
        exact absurd htp List.not_mem_nil
    | process hp hs =>
        have hbefore := ih _ hp
        cases hs with
        | assign =>
            cases hp'
            exact fun tp htp => htp
        | _ => cases hp' <;> exact hbefore

/-- Copies of the topic, one for every process but the running one, hold what the
table held when it started. -/
def Bounded (decode : Payload → Except String (List Bar)) (lives : ℕ) (w : World Payload Bar) :
    Prop :=
  match w.loader with
  | none => (w.table.bars : Multiset Bar) ≤ lives • published decode w.broker
  | some p => ∃ base earlier, lives = earlier + 1 ∧
      w.table.bars = base ++ (p.session.flushed ++ p.session.written).map Entry.bar ∧
      (base : Multiset Bar) ≤ earlier • published decode w.broker

/-- What a process has stored, with what it stores next, is one copy of the topic
at most. -/
theorem session_bars_le (hreach : (system s).Reachable w) (hp : w.loader = some p)
    {entries : List (Entry Bar)} (hentries : entries <+: p.session.waiting) :
    (((p.session.flushed ++ p.session.written ++ entries).map Entry.bar : List Bar) :
      Multiset Bar) ≤ published s.decodeFrame w.broker := by
  have hsound := session_sound hreach hp
  have hstored : (p.session.flushed ++ p.session.written ++ entries).map Entry.bar <+:
      p.session.polled.flatMap Polled.bars := by
    rw [← map_bar_entries, ← hsound.stream, ← List.append_assoc]
    exact (List.prefix_append_right_inj _ |>.mpr hentries).map _
  exact (Multiset.coe_le.mpr hstored.sublist.subperm).trans
    (hsound.polled_le (assigned_of_reachable hreach hp))

theorem Bounded.bars_le {lives : ℕ} (h : Bounded s.decodeFrame lives w)
    (hreach : (system s).Reachable w) :
    (w.table.bars : Multiset Bar) ≤ lives • published s.decodeFrame w.broker := by
  unfold Bounded at h
  split at h
  · exact h
  · rename_i p hp
    obtain ⟨base, earlier, rfl, htable, hbase⟩ := h
    have hown := session_bars_le hreach hp (List.nil_prefix (l := p.session.waiting))
    rw [List.append_nil] at hown
    rw [htable, ← Multiset.coe_add, succ_nsmul]
    exact add_le_add hbase hown

/-- The broker has the same partitions with the same logs. -/
def SameLogs (broker broker' : Broker Payload) : Prop :=
  broker'.partitions = broker.partitions ∧ broker'.log = broker.log

theorem sameLogs_land (w : World Payload Bar) (p : Process Bar) :
    SameLogs w.broker (land w p).broker := by
  unfold land
  split <;> exact ⟨rfl, rfl⟩

/-- A process changes no log. -/
theorem sameLogs_processStep {a : Action Payload} (h : ProcessStep s w p a w') :
    SameLogs w.broker w'.broker := by
  cases h with
  | @offsetCommitFailed batch resume startedAt inserted cause landed =>
      cases landed <;> exact ⟨rfl, rfl⟩
  | @crashed landed =>
      cases landed with
      | false => exact ⟨rfl, rfl⟩
      | true => exact sameLogs_land w p
  | _ => exact ⟨rfl, rfl⟩

theorem SameLogs.published {broker broker' : Broker Payload} (h : SameLogs broker broker')
    (decode : Payload → Except String (List Bar)) :
    published decode broker' = published decode broker := by
  obtain ⟨hpartitions, hlog⟩ := h
  unfold Loader.published backlog
  rw [hpartitions, hlog]

/-- One step, with one process more if it starts one. -/
theorem Bounded.step {lives : ℕ} (hbounded : Bounded s.decodeFrame lives w)
    (hreach : (system s).Reachable w) {a : Action Payload} (h : Step s w a w') :
    Bounded s.decodeFrame (lives + if a.starts then 1 else 0) w' := by
  have htable := hbounded.bars_le hreach
  cases h with
  | @produce tp offset value h =>
      have hmore := @published_produce _ _ s.decodeFrame w.broker tp offset value h
      unfold Bounded at hbounded ⊢
      split at hbounded
      · rename_i hnone
        simp only [hnone]
        exact hbounded.trans (nsmul_le_nsmul_right hmore lives)
      · rename_i p hp
        obtain ⟨base, earlier, rfl, hbars, hbase⟩ := hbounded
        simp only [hp]
        exact ⟨base, earlier, rfl, hbars, hbase.trans (nsmul_le_nsmul_right hmore earlier)⟩
  | startRefused hnone =>
      simp only [Bounded, hnone] at hbounded ⊢
      exact hbounded.trans (nsmul_le_nsmul_left (Multiset.zero_le _) (Nat.le_add_right _ _))
  | startFailed hnone =>
      simp only [Bounded, World.exit]
      exact htable.trans (nsmul_le_nsmul_left (Multiset.zero_le _) (Nat.le_add_right _ _))
  | started hnone _ hbatch =>
      refine ⟨w.table.bars, lives, rfl, ?_, htable⟩
      simp [Process.session, fresh, Pc.written, World.put]
  | @process p a w' hp h =>
      have hsame : lives + (if a.starts then 1 else 0) = lives := by
        cases h <;> rfl
      rw [hsame]
      obtain ⟨entries, hwaiting, hbars, hstored⟩ :=
        stores_of_step (fileMatches_of_reachable hreach hp) h
      have hpublished := (sameLogs_processStep h).published s.decodeFrame
      simp only [Bounded, hp] at hbounded
      obtain ⟨base, earlier, rfl, hbefore, hbase⟩ := hbounded
      have hafter : w'.table.bars =
          base ++ (p.session.flushed ++ p.session.written ++ entries).map Entry.bar := by
        rw [hbars, hbefore]
        simp only [List.map_append, List.append_assoc]
      cases hp' : w'.loader with
      | none =>
          simp only [Bounded, hp', hpublished]
          rw [hafter, ← Multiset.coe_add, succ_nsmul]
          exact add_le_add hbase (session_bars_le hreach hp hwaiting)
      | some p' =>
          simp only [Bounded, hp', hpublished]
          exact ⟨base, earlier, rfl, by rw [hafter, hstored p' hp'], hbase⟩

/-- The number of processes that a run starts. -/
def starts (actions : List (Action Payload)) : ℕ := actions.countP Action.starts

theorem Bounded.run {lives : ℕ} (hbounded : Bounded s.decodeFrame lives w)
    (hreach : (system s).Reachable w) {actions : List (Action Payload)}
    (h : (system s).run w actions = some w') :
    Bounded s.decodeFrame (lives + starts actions) w' := by
  induction actions generalizing w lives with
  | nil =>
      cases h
      exact hbounded
  | cons a rest ih =>
      obtain ⟨next, hstep, hrest⟩ := Option.bind_eq_some_iff.mp h
      have hnext := ih (hbounded.step hreach (step_cases hstep)) (hreach.step hstep) hrest
      have hcount : starts (a :: rest) = (if a.starts then 1 else 0) + starts rest := by
        rw [starts, List.countP_cons, Nat.add_comm]
        rfl
      rwa [hcount, ← Nat.add_assoc]

theorem bounded_of_initial (hinit : Initial w) : Bounded s.decodeFrame 0 w := by
  simp [Bounded, hinit.2.2.2, Table.bars, Table.rows, hinit.2.1]

/-- Nothing is invented, and copies come from restarts alone: a bar is in the
table as often as in the topic, times the number of processes started. -/
theorem copies_le_starts (hinit : Initial w) {actions : List (Action Payload)}
    (h : (system s).run w actions = some w') :
    (w'.table.bars : Multiset Bar) ≤ starts actions • published s.decodeFrame w'.broker := by
  have hreach : (system s).Reachable w := .init hinit
  have hrun := (bounded_of_initial hinit).run hreach h
  rw [Nat.zero_add] at hrun
  exact hrun.bars_le (hreach.of_run h)

/-- Two processes, and two copies of what the first one left unacknowledged. -/
theorem copies_sampleRun : ∃ w, (system sampleSettings).run sampleWorld sampleRun = some w ∧
    w.table.bars = [1, 2, 1, 2, 3] ∧
    (w.table.bars : Multiset Nat) ≤ 2 • published sampleSettings.decodeFrame w.broker :=
  ⟨_, rfl, by decide, copies_le_starts sampleWorld_initial
    (show (system sampleSettings).run sampleWorld sampleRun = some _ from rfl)⟩

/-! ### Deduplication by hash -/

/-- The rows of the table, and of a data file that is written but not committed,
carry the hashes of their bars. -/
structure Hashed (s : Settings Payload Bar) (w : World Payload Bar) : Prop where
  table : ∀ row ∈ w.table.rows, row.payloadHash = s.hash row.bar
  pending : ∀ p, w.loader = some p → ∀ batch resume startedAt file,
    p.pc = .flushing batch resume (.tableCommit startedAt file) →
    ∀ row ∈ file.rows, row.payloadHash = s.hash row.bar

/-- The data file `append` has written carries the hashes of its bars. -/
theorem hashed_of_writeDataFile {table table' : Table Bar} {bars : List Bar}
    {pathAt ingestedAt : Instant} {outcome : FileOutcome} {file : DataFile Bar}
    (h : IcebergWriter.writeDataFile s.hash table bars pathAt ingestedAt outcome =
      (table', .ok file)) :
    table'.rows = table.rows ∧ ∀ row ∈ file.rows, row.payloadHash = s.hash row.bar := by
  unfold IcebergWriter.writeDataFile at h
  cases outcome with
  | failed cause => simp at h
  | written length closedLength =>
      dsimp only at h
      split at h
      · simp at h
      · cases h
        refine ⟨rfl, ?_⟩
        intro row hrow
        obtain ⟨bar, _, rfl⟩ := List.mem_map.mp hrow
        rfl

theorem rows_of_dataFileFailed {table table' : Table Bar} {bars : List Bar}
    {pathAt ingestedAt : Instant} {outcome : FileOutcome} {failure : LoaderCommitException}
    (h : IcebergWriter.writeDataFile s.hash table bars pathAt ingestedAt outcome =
      (table', .error failure)) : table'.rows = table.rows := by
  unfold IcebergWriter.writeDataFile at h
  cases outcome with
  | failed cause =>
      cases h
      rfl
  | written length closedLength =>
      dsimp only at h
      split at h
      · cases h
        rfl
      · simp at h

/-- A file that is committed adds hashed rows. -/
theorem hashed_appendFile (h : Hashed s w) (hp : w.loader = some p) {batch : Batch Bar}
    {resume : Resume Bar} {startedAt : Int} {file : DataFile Bar}
    (hpc : p.pc = .flushing batch resume (.tableCommit startedAt file)) :
    ∀ row ∈ (appendFile w.table file).rows, row.payloadHash = s.hash row.bar := by
  intro row hrow
  rw [IcebergWriter.rows_appendFile] at hrow
  rcases List.mem_append.mp hrow with hold | hnew
  · exact h.table row hold
  · exact h.pending p hp batch resume startedAt file hpc row hnew

theorem Hashed.processStep (h : Hashed s w) (hp : w.loader = some p) {a : Action Payload}
    (hstep : ProcessStep s w p a w') : Hashed s w' := by
  have hidle : ∀ {table : Table Bar} {loader : Option (Process Bar)} {broker output},
      (∀ row ∈ table.rows, row.payloadHash = s.hash row.bar) →
      (∀ p', loader = some p' → ∀ batch resume startedAt file,
        p'.pc ≠ .flushing batch resume (.tableCommit startedAt file)) →
      Hashed s ⟨broker, table, output, loader⟩ :=
    fun htable hpc => ⟨htable, fun p' hp' batch resume startedAt file heq =>
      absurd heq (hpc p' hp' batch resume startedAt file)⟩
  cases hstep with
  | dataFileFailed _ _ hwrite =>
      have hrows := rows_of_dataFileFailed hwrite
      refine hidle ?_ (by simp)
      intro row hrow
      exact h.table row (hrows ▸ hrow)
  | dataFileWritten _ _ hwrite =>
      obtain ⟨hrows, hfile⟩ := hashed_of_writeDataFile hwrite
      constructor
      · intro row hrow
        exact h.table row (hrows ▸ hrow)
      · rintro _ ⟨⟩ batch resume startedAt file ⟨⟩
        exact hfile
  | @tableCommitFailed batch resume startedAt file outcome c table failure hpc hcommit =>
      have htable := IcebergWriter.commitAppend_cases w.table file outcome
      rw [hcommit] at htable
      refine hidle ?_ (by simp)
      rcases htable with rfl | ⟨rfl, -⟩
      · exact hashed_appendFile h hp hpc
      · exact h.table
  | @tableCommitted batch resume startedAt file outcome c table hpc hcommit =>
      have htable := IcebergWriter.commitAppend_cases w.table file outcome
      rw [hcommit] at htable
      refine hidle ?_ (by simp)
      rcases htable with rfl | ⟨-, habsurd⟩
      · exact hashed_appendFile h hp hpc
      · exact absurd rfl habsurd
  | received =>
      refine hidle h.table ?_
      rintro _ ⟨⟩ batch resume startedAt file heq
      simp only [received, afterAdd] at heq
      split at heq <;> simp at heq
  | offsetsCommitted =>
      refine hidle h.table ?_
      rintro _ ⟨⟩ batch resume startedAt file heq
      simp only [flushDone, afterFlush] at heq
      split at heq <;> simp at heq
  | @offsetCommitFailed batch resume startedAt inserted cause landed =>
      cases landed <;> exact hidle h.table (by simp)
  | assign hpc =>
      refine hidle h.table ?_
      rintro _ ⟨⟩ batch resume startedAt file heq
      simp [hpc] at heq
  | stopped =>
      refine ⟨h.table, ?_⟩
      rintro _ ⟨⟩ batch resume startedAt file heq
      exact h.pending p hp batch resume startedAt file heq
  | @crashed landed =>
      cases landed with
      | false => exact hidle h.table (by simp)
      | true =>
          refine hidle ?_ (by simp)
          simp only [if_true]
          unfold land
          split
          · rename_i hpc
            exact hashed_appendFile h hp hpc
          · exact h.table
          · exact h.table
  | _ => exact hidle h.table (by simp)

theorem hashed_of_reachable (h : (system s).Reachable w) : Hashed s w := by
  refine system_reachable_induction (P := Hashed s) ?_ ?_ h
  · intro w hinit
    constructor
    · simp [Table.rows, hinit.2.1]
    · simp [hinit.2.2.2]
  · intro w a w' _ ih hs
    cases hs with
    | produce => exact ⟨ih.table, ih.pending⟩
    | startRefused => exact ih
    | startFailed => exact ⟨ih.table, by simp [World.exit]⟩
    | started =>
        refine ⟨ih.table, ?_⟩
        rintro _ ⟨⟩ batch resume startedAt file heq
        simp [fresh] at heq
    | process hp hs => exact ih.processStep hp hs

/-- One row is kept for each hash. -/
structure Deduplicated (rows kept : List (Row Bar)) : Prop where
  sublist : kept.Sublist rows
  once : (kept.map Row.payloadHash).Nodup
  represented : ∀ row ∈ rows, ∃ other ∈ kept, other.payloadHash = row.payloadHash

theorem published_of_mem_table (h : (system s).Reachable w) {bar : Bar} (hbar : bar ∈ w.table.bars) :
    bar ∈ published s.decodeFrame w.broker := by
  obtain ⟨first, actions, hinit, hrun⟩ := h.exists_run
  have hle := ((bounded_of_initial hinit).run (.init hinit) hrun).bars_le h
  exact Multiset.mem_of_mem_nsmul (Multiset.mem_of_le hle (Multiset.mem_coe.mpr hbar))

/-- The bars of a record below a committed offset are in the table. -/
theorem mem_table_of_acknowledged (h : (system s).Reachable w) {tp : TopicPartition}
    {record : ConsumerRecord Payload} (hrecord : record ∈ acknowledged w.broker tp) {bars : List Bar}
    (hdecode : s.decodeFrame record.value = .ok bars) {bar : Bar} (hbar : bar ∈ bars) :
    bar ∈ w.table.bars := by
  have hcovered := (delivery_sound h).settled.covered {tp}
  simp only [backlog, Finset.sum_singleton] at hcovered
  rw [acknowledged_eq_slice] at hrecord
  have hmem : bar ∈ barsOf s.decodeFrame
      ((w.broker.log tp).slice (w.broker.log tp).beginning (w.broker.startOffset tp)) := by
    refine List.mem_flatMap.mpr ⟨record, hrecord, ?_⟩
    simpa [hdecode] using hbar
  exact Multiset.mem_coe.mp (Multiset.mem_of_le hcovered (Multiset.mem_coe.mpr hmem))

/-- Replays are identified downstream: if the hash tells the bars of the topic
apart, the rows that are left once the table is deduplicated by it hold every
bar of the records below the committed offsets, none twice, and no bar that is
not in the topic. -/
theorem deduplicated_bars (h : (system s).Reachable w)
    (hinjective : ∀ a ∈ published s.decodeFrame w.broker, ∀ b ∈ published s.decodeFrame w.broker,
      s.hash a = s.hash b → a = b) {kept : List (Row Bar)}
    (hkept : Deduplicated w.table.rows kept) :
    (kept.map Row.bar).Nodup ∧
      (∀ tp, ∀ record ∈ acknowledged w.broker tp, ∀ bars, s.decodeFrame record.value = .ok bars →
        ∀ bar ∈ bars, bar ∈ kept.map Row.bar) ∧
      ∀ bar ∈ kept.map Row.bar, bar ∈ published s.decodeFrame w.broker := by
  have hhashed := (hashed_of_reachable h).table
  have hrows : ∀ row ∈ kept, row ∈ w.table.rows := fun row hrow => hkept.sublist.subset hrow
  have hpublished : ∀ row ∈ w.table.rows, row.bar ∈ published s.decodeFrame w.broker :=
    fun row hrow => published_of_mem_table h (List.mem_map_of_mem hrow)
  refine ⟨?_, ?_, ?_⟩
  · have honce : ((kept.map Row.bar).map s.hash).Nodup := by
      have hsame : (kept.map Row.bar).map s.hash = kept.map Row.payloadHash := by
        rw [List.map_map]
        exact List.map_congr_left fun row hrow => (hhashed row (hrows row hrow)).symm
      exact hsame ▸ hkept.once
    exact honce.of_map _
  · intro tp record hrecord bars hdecode bar hbar
    obtain ⟨row, hrow, rfl⟩ := List.mem_map.mp (mem_table_of_acknowledged h hrecord hdecode hbar)
    obtain ⟨other, hother, hhash⟩ := hkept.represented row hrow
    have hsame : s.hash other.bar = s.hash row.bar := by
      rw [← hhashed row hrow, ← hhashed other (hrows other hother), hhash]
    have hbars := hinjective _ (hpublished other (hrows other hother)) _ (hpublished row hrow) hsame
    exact List.mem_map.mpr ⟨other, hother, hbars⟩
  · intro bar hbar
    obtain ⟨row, hrow, rfl⟩ := List.mem_map.mp hbar
    exact hpublished row (hrows row hrow)

/-- The sample loader, with a hash that tells its bars apart. -/
def hashedSettings : Settings (List Nat) Nat := { sampleSettings with hash := toString }

/-- Both processes of the sample run stored the bars 1 and 2. -/
theorem deduplicated_sampleRun : ∃ w, (system hashedSettings).run sampleWorld sampleRun = some w ∧
    w.table.bars = [1, 2, 1, 2, 3] ∧
    ((w.table.rows.drop 2).map Row.bar).Nodup ∧
    ∀ bar ∈ (w.table.rows.drop 2).map Row.bar,
      bar ∈ published hashedSettings.decodeFrame w.broker := by
  have hinit : (system hashedSettings).init sampleWorld := sampleWorld_initial
  have hrun : (system hashedSettings).run sampleWorld sampleRun = some _ := rfl
  refine ⟨_, hrun, by decide, ?_⟩
  have hsound := deduplicated_bars (.of_run (.init hinit) hrun) (by decide)
    ⟨List.drop_sublist 2 _, by decide, by decide⟩
  exact ⟨hsound.1, hsound.2.2⟩

end Main

end Lakehouse.Loader
