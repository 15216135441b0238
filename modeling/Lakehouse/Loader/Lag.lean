/-
What lag and the health states say about the records.

Between flushes the loader's state is fixed by three numbers of each partition:
the committed offset, the consumer's position and the end of the log.

* `Session.Sound.buffered_sources` — the distinct sources in the buffer are the
  polled records that are not completely flushed.
* `lag_is_buffered_and_unpolled` — on logs without gaps whose frames all carry
  bars, lag is the buffered source records plus the unpolled records, and the
  reported states are named accordingly.
* `acknowledged_up_to_position_iff` — with nothing to flush, the committed
  offsets are the positions exactly if the last record polled from each
  partition carries a bar.
-/

import Lakehouse.Loader.Durability

namespace Lakehouse.Loader

variable {Payload Bar : Type}

/-! ### Sessions between flushes -/

section Session

variable {decode : Payload → Except String (List Bar)} {broker : Broker Payload}
  {stored : List Bar} {s : Session Bar}

theorem Polled.source_of_mem_entries {r : Polled Bar} {e : Entry Bar} (h : e ∈ r.entries) :
    e.source = r.source :=
  source_of_mem_sourceEntries h

theorem Session.Sound.sources_nodup (h : s.Sound decode broker stored) :
    (s.polled.map Polled.source).Nodup := by
  rw [List.Nodup, List.pairwise_map]
  refine h.ordered.imp fun {a b} hlt heq => ?_
  have hab : a.source.topicPartition = b.source.topicPartition := by rw [heq]
  have := hlt hab
  rw [heq] at this
  exact Nat.lt_irrefl _ this

/-- Nothing of the stream is in flight: all of it is flushed or waiting. -/
theorem Session.Cut.waiting_eq (h : s.Sound decode broker stored) (hwritten : s.written = [])
    {done rest : List (Polled Bar)} {part : List (Entry Bar)} (hcut : s.Cut done rest part) :
    part ++ s.waiting = rest.flatMap Polled.entries := by
  have hstream := h.stream
  rw [hwritten, List.nil_append, hcut.flushed, hcut.polled, List.flatMap_append,
    List.append_assoc] at hstream
  exact List.append_cancel_left hstream

/-- Every record that carries bars and is not completely flushed has an entry
waiting. -/
theorem Session.Cut.exists_waiting (h : s.Sound decode broker stored) (hwritten : s.written = [])
    {done rest : List (Polled Bar)} {part : List (Entry Bar)} (hcut : s.Cut done rest part)
    {r : Polled Bar} (hr : r ∈ rest) (hbars : r.bars ≠ []) : ∃ e ∈ s.waiting, e.source = r.source := by
  have hwaiting := hcut.waiting_eq h hwritten
  rcases hcut.next with ⟨-, rfl⟩ | ⟨first, tail, rfl, ⟨unflushed, hfirst⟩, hlt⟩
  · simp at hr
  rw [List.flatMap_cons, ← hfirst, List.append_assoc] at hwaiting
  have hwaiting := List.append_cancel_left hwaiting
  rw [hwaiting]
  rcases List.mem_cons.mp hr with rfl | hr
  · -- the part of the first record that is flushed is a proper one
    have hne : unflushed ≠ [] := by
      rintro rfl
      simp [← hfirst] at hlt
    obtain ⟨e, he⟩ := List.exists_mem_of_ne_nil _ hne
    exact ⟨e, List.mem_append_left _ he,
      Polled.source_of_mem_entries (hfirst ▸ List.mem_append_right _ he)⟩
  · have hne : r.entries ≠ [] := fun hnil => hbars ((sourceEntries_eq_nil_iff _ _).mp hnil)
    obtain ⟨e, he⟩ := List.exists_mem_of_ne_nil _ hne
    exact ⟨e, List.mem_append_right _ (List.mem_flatMap.mpr ⟨r, hr, he⟩),
      Polled.source_of_mem_entries he⟩

/-- If every polled record carries bars, the distinct sources waiting are the
records that are not completely flushed. -/
theorem Session.Sound.buffered_sources (h : s.Sound decode broker stored)
    (hwritten : s.written = []) (hbars : ∀ r ∈ s.polled, r.bars ≠ [])
    {done rest : List (Polled Bar)} {part : List (Entry Bar)} (hcut : s.Cut done rest part) :
    distinctSources s.waiting = rest.length := by
  have hwaiting := hcut.waiting_eq h hwritten
  have hnodup : (rest.map Polled.source).Nodup := by
    have := h.sources_nodup
    rw [hcut.polled, List.map_append] at this
    exact this.of_append_right
  have hmem : ∀ source, source ∈ s.waiting.map Entry.source ↔ source ∈ rest.map Polled.source := by
    intro source
    constructor
    · intro hsource
      obtain ⟨e, he, rfl⟩ := List.mem_map.mp hsource
      have he' : e ∈ rest.flatMap Polled.entries := by
        rw [← hwaiting]
        exact List.mem_append_right _ he
      obtain ⟨r, hr, her⟩ := List.mem_flatMap.mp he'
      rw [Polled.source_of_mem_entries her]
      exact List.mem_map_of_mem hr
    · intro hsource
      obtain ⟨r, hr, rfl⟩ := List.mem_map.mp hsource
      have hpolled : r ∈ s.polled := by
        rw [hcut.polled]
        exact List.mem_append_right _ hr
      obtain ⟨e, he, hsource⟩ := hcut.exists_waiting h hwritten hr (hbars r hpolled)
      exact hsource ▸ List.mem_map_of_mem he
  rw [distinctSources, ← List.card_toFinset, ← List.length_map (f := Polled.source),
    ← List.toFinset_card_of_nodup hnodup]
  congr 1
  ext source
  rw [List.mem_toFinset, List.mem_toFinset, hmem]

/-- On a log without gaps, the offsets from the committed one to the position
are the polled records that are not completely flushed. -/
theorem Session.Sound.uncommitted (h : s.Sound decode broker stored)
    (hbars : ∀ r ∈ s.polled, r.bars ≠ []) {done rest : List (Polled Bar)}
    {part : List (Entry Bar)} (hcut : s.Cut done rest part) {tp : TopicPartition}
    (hcontiguous : (broker.log tp).Contiguous) :
    s.position tp - broker.startOffset tp = (polledFrom tp rest).length := by
  obtain ⟨hresumed, hposition, carried, empty, hdone, hempty, hslice⟩ := h.committed_slice hcut tp
  have hnone : empty = [] := by
    apply List.eq_nil_iff_forall_not_mem.mpr
    intro r hr
    have hpolled : r ∈ polledFrom tp done := by
      rw [hdone]
      exact List.mem_append_right _ hr
    refine hbars r ?_ (hempty r hr)
    rw [hcut.polled]
    exact List.mem_append_left _ (mem_polledFrom.mp hpolled).1
  have hflushed := hslice.length_eq
  have hpolled := (h.delivered tp).length_eq
  rw [hcut.polled, polledFrom_append, hdone, hnone, List.append_nil, List.length_append] at hpolled
  have hend := h.le_endOffset tp
  rw [hcontiguous.length_slice (h.beginning_le tp) hresumed (hposition.trans hend)] at hflushed
  rw [hcontiguous.length_slice (h.beginning_le tp) (h.resumed_le tp) hend] at hpolled
  omega

/-- Over all assigned partitions, the uncommitted offsets are the buffered
source records. -/
theorem Session.Sound.sum_uncommitted (h : s.Sound decode broker stored)
    (hwritten : s.written = []) (hnodup : s.assignment.Nodup)
    (hbars : ∀ r ∈ s.polled, r.bars ≠ [])
    (hcontiguous : ∀ tp ∈ s.assignment, (broker.log tp).Contiguous) :
    (s.assignment.map fun tp => s.position tp - broker.startOffset tp).sum =
      distinctSources s.waiting := by
  obtain ⟨done, rest, part, hcut⟩ := h.exists_cut
  have hassigned : ∀ r ∈ rest, r.source.topicPartition ∈ s.assignment := by
    intro r hr
    apply h.assigned
    rw [hcut.polled]
    exact List.mem_append_right _ hr
  rw [h.buffered_sources hwritten hbars hcut, ← Framing.sum_filter_length _ hnodup hassigned]
  congr 1
  apply List.map_congr_left
  intro tp htp
  exact h.uncommitted hbars hcut (hcontiguous tp htp)

/-- A partition that delivered records is at one past its last one. -/
theorem Session.Sound.position_eq (h : s.Sound decode broker stored) {tp : TopicPartition}
    {r : Polled Bar} (hr : (polledFrom tp s.polled).getLast? = some r) :
    s.position tp = r.source.offset + 1 := by
  rw [h.positioned, hr]
  rfl

theorem Session.Sound.resumed_le_offset (h : s.Sound decode broker stored) {tp : TopicPartition}
    {r : Polled Bar} (hr : r ∈ polledFrom tp s.polled) : s.resumedFrom tp ≤ r.source.offset := by
  obtain ⟨record, hrecord, hdecodes⟩ := exists_of_mem_polled (h.delivered tp) hr
  rw [hdecodes.1]
  exact (PartitionLog.mem_slice.mp hrecord).2.1

/-- With nothing in flight and nothing waiting, the committed offset of a
partition is the position exactly if its last record carried bars. -/
theorem Session.Sound.committed_eq_position_iff (h : s.Sound decode broker stored)
    (hwritten : s.written = []) (hwaiting : s.waiting = []) {tp : TopicPartition} {r : Polled Bar}
    (hr : (polledFrom tp s.polled).getLast? = some r) :
    broker.committed tp = some (s.position tp) ↔ r.bars ≠ [] := by
  have hflushed : s.flushed = s.polled.flatMap Polled.entries := by
    simpa [hwritten, hwaiting] using h.stream
  have hstart : broker.startOffset tp = (lastCarrying tp s.polled).getD (s.resumedFrom tp) := by
    rw [h.committed, hflushed, lastFinal_flatMap_entries]
  have hmem := List.mem_of_getLast? hr
  have hresumed := h.resumed_le_offset hmem
  obtain ⟨init, hinit⟩ := List.getLast?_eq_some_iff.mp hr
  rw [h.position_eq hr]
  constructor
  · intro hcommitted hbars
    have hposition : broker.startOffset tp = r.source.offset + 1 := by
      simp [Broker.startOffset, hcommitted]
    rw [hstart, lastCarrying, hinit, List.filter_append,
      List.filter_cons_of_neg (by simp [hbars]), List.filter_nil, List.append_nil] at hposition
    cases hlast : (init.filter fun r => !r.bars.isEmpty).getLast? with
    | none =>
        rw [hlast] at hposition
        have : s.resumedFrom tp = r.source.offset + 1 := hposition
        omega
    | some x =>
        -- an earlier record of the partition has a smaller offset
        rw [hlast] at hposition
        have hx : x ∈ init := (List.mem_filter.mp (List.mem_of_getLast? hlast)).1
        have hordered := h.ordered.sublist (List.filter_sublist
          (p := fun r => decide (r.source.topicPartition = tp)))
        rw [← polledFrom, hinit, List.pairwise_append] at hordered
        have hxtp : x.source.topicPartition = tp := by
          refine (mem_polledFrom.mp (?_ : x ∈ polledFrom tp s.polled)).2
          rw [hinit]
          exact List.mem_append_left _ hx
        have hlt := hordered.2.2 x hx r (List.mem_singleton_self _)
          (hxtp.trans (mem_polledFrom.mp hmem).2.symm)
        have : x.source.offset + 1 = r.source.offset + 1 := hposition
        omega
  · intro hbars
    have hposition : broker.startOffset tp = r.source.offset + 1 := by
      rw [hstart, lastCarrying, hinit, List.filter_append,
        List.filter_cons_of_pos (by simpa using hbars), List.filter_nil, List.getLast?_concat]
      rfl
    unfold Broker.startOffset at hposition
    cases hcommitted : broker.committed tp with
    | none =>
        rw [hcommitted, Option.getD_none] at hposition
        have := h.beginning_le tp
        omega
    | some offset =>
        rw [hcommitted, Option.getD_some] at hposition
        rw [hposition]

end Session

/-! ### The loader between flushes -/

/-- The reporter says that a commit is in progress while a flush is between its
announcement and its end. -/
def Pc.committing : Pc Bar → Bool
  | .flushing _ _ .announce => false
  | .flushing _ _ _ => true
  | _ => false

namespace Main

variable {s : Settings Payload Bar} {w : World Payload Bar} {p : Process Bar}

theorem committing_of_reachable (h : (system s).Reachable w) (hp : w.loader = some p) :
    p.health.committing = p.pc.committing := by
  refine process_induction (P := fun p => p.health.committing = p.pc.committing) ?_ ?_ h hp
  · intro broker health batch c _ hhealth _
    have hidle := LoaderHealthReporter.committing_new hhealth
    show (health.starting c.second c.third).1.committing = false
    exact hidle
  · intro w p a w' p' ih hs hp'
    cases hs with
    | assign =>
        cases hp'
        exact ih
    | received hpc =>
        cases hp'
        have hidle : p.health.committing = false := by simpa [hpc, Pc.committing] using ih
        simp only [received, afterAdd]
        split <;> exact hidle
    | offsetsCommitted hpc houtcome hhealth =>
        cases hp'
        cases hhealth
        simp only [flushDone, afterFlush]
        split <;> rfl
    | heartbeat hpc =>
        cases hp'
        simpa [hpc, Pc.committing] using ih
    | stopped =>
        cases hp'
        exact ih
    | announced hpc =>
        cases hp'
        rfl
    | _ => cases hp' <;> simp_all [Pc.committing]

/-- The assigned partitions are a set. -/
theorem assignment_nodup_of_reachable (h : (system s).Reachable w) (hp : w.loader = some p) :
    p.assignment.Nodup := by
  refine process_induction (P := fun p => p.assignment.Nodup) ?_ ?_ h hp
  · intro broker health batch c _ _ _
    exact List.nodup_nil
  · intro w p a w' p' ih hs hp'
    cases hs with
    | assign =>
        cases hp'
        exact w.broker.nodup
    | _ =>
        cases hp' <;> exact ih

/-- The number of records of the assigned partitions that are not polled yet. -/
def unpolled (w : World Payload Bar) (p : Process Bar) : Nat :=
  (p.assignment.map fun tp =>
    ((w.broker.log tp).records.filter fun r => decide (p.position tp ≤ r.offset)).length).sum

/-- The lag a sample reports: end offset minus committed offset, or minus the
beginning of the log, over all assigned partitions. -/
theorem aggregateLag_sample (w : World Payload Bar) (p : Process Bar) :
    LoaderHealthReporter.aggregateLag (LoaderHealthReporter.offsets (sample w p)) =
      (p.assignment.map fun tp => (w.broker.log tp).endOffset - w.broker.startOffset tp).sum := by
  rw [LoaderHealthReporter.aggregateLag_offsets]
  congr 1
  apply List.map_congr_left
  intro tp _
  unfold LoaderHealthReporter.partitionOffsets sample Broker.startOffset
  dsimp only
  cases w.broker.committed tp <;> rfl

/-- On logs without gaps the unpolled records are the offsets from the position
to the end. -/
theorem unpolled_eq (h : (system s).Reachable w) (hp : w.loader = some p)
    (hcontiguous : ∀ tp ∈ p.assignment, (w.broker.log tp).Contiguous) :
    unpolled w p =
      (p.assignment.map fun tp => (w.broker.log tp).endOffset - p.position tp).sum := by
  have hsound := session_sound h hp
  unfold unpolled
  congr 1
  apply List.map_congr_left
  intro tp htp
  have hbegin : (w.broker.log tp).beginning ≤ p.position tp :=
    (hsound.beginning_le tp).trans (hsound.resumed_le tp)
  rw [← (hcontiguous tp htp).length_slice hbegin (hsound.le_endOffset tp) (Nat.le_refl _)]
  congr 1
  apply List.filter_congr
  intro r hr
  simp [PartitionLog.offset_lt_endOffset hr]

/-- The states a heartbeat can report when it does not report a stall. -/
theorem state_of_counts {bars sources unpolled : Nat} (hbars : bars = 0 ↔ sources = 0)
    {since progress : Option Instant} {now : Instant} {threshold : Duration}
    {state : LoaderHealthReporter.State}
    (hstate : state = LoaderHealthReporter.inferState true false (sources + unpolled) bars sources
      since progress now threshold) (hstall : state ≠ .stalled) :
    (state = .catchingUp ↔ 0 < unpolled) ∧ (state = .buffering ↔ unpolled = 0 ∧ bars ≠ 0) ∧
      (state = .idle ↔ unpolled = 0 ∧ bars = 0) := by
  subst hstate
  rw [LoaderHealthReporter.inferState_of_not_stalled hstall]
  by_cases hunpolled : 0 < unpolled
  · have hlt : sources < sources + unpolled := by omega
    have hne : unpolled ≠ 0 := by omega
    simp [hlt, hunpolled, hne]
  · have hzero : unpolled = 0 := by omega
    by_cases hempty : bars = 0
    · have hsources := hbars.mp hempty
      simp [hzero, hempty, hsources]
    · have hpos : 0 < bars := by omega
      simp [hzero, hempty, hpos]

/-- Up to the end of a log, lag is what is polled and not committed, and what is
not polled. -/
theorem sum_lag {decode : Payload → Except String (List Bar)} {stored : List Bar}
    {session : Session Bar} (h : session.Sound decode w.broker stored) :
    (session.assignment.map fun tp =>
        (w.broker.log tp).endOffset - w.broker.startOffset tp).sum =
      (session.assignment.map fun tp => session.position tp - w.broker.startOffset tp).sum +
        (session.assignment.map fun tp =>
          (w.broker.log tp).endOffset - session.position tp).sum := by
  obtain ⟨done, rest, part, hcut⟩ := h.exists_cut
  rw [← List.sum_map_add]
  congr 1
  apply List.map_congr_left
  intro tp _
  have hstart := (h.committed_slice hcut tp).2.1
  have hend := h.le_endOffset tp
  omega

/-- At a heartbeat of an assigned loader, on logs without gaps whose polled
frames all carry bars, lag is the buffered source records plus the unpolled
records; and a heartbeat that does not report a stall reports `catching_up` for
unpolled records, `buffering` for a non-empty buffer, and `idle` otherwise. -/
theorem lag_is_buffered_and_unpolled (h : (system s).Reachable w) (hp : w.loader = some p)
    (hpc : p.pc = .heartbeat) (hassigned : p.assignment ≠ [])
    (hcontiguous : ∀ tp ∈ p.assignment, (w.broker.log tp).Contiguous)
    (hbars : ∀ r ∈ p.polled, r.bars ≠ []) :
    unpolled w p =
        (p.assignment.map fun tp => (w.broker.log tp).endOffset - p.position tp).sum ∧
      ∀ c : Readings, p.health.due c.first = true →
        ∃ payload ∈ (p.health.maybeHeartbeat (.ok (sample w p)) p.batch c.first c.second c.third).2,
        ∃ lag : Nat, ∃ state : LoaderHealthReporter.State,
          LoaderHealthReporter.field payload "event" = some (.str "heartbeat") ∧
          LoaderHealthReporter.field payload "aggregate_lag_records" = some (.int lag) ∧
          LoaderHealthReporter.field payload "buffered_source_records" =
            some (.int p.batch.sourceRecordCount) ∧
          LoaderHealthReporter.field payload "state" = some (.str state.value) ∧
          lag = p.batch.sourceRecordCount + unpolled w p ∧
          (state ≠ .stalled →
            (state = .catchingUp ↔ 0 < unpolled w p) ∧
            (state = .buffering ↔ unpolled w p = 0 ∧ p.batch.isEmpty = false) ∧
            (state = .idle ↔ unpolled w p = 0 ∧ p.batch.isEmpty = true)) := by
  have hsound := session_sound h hp
  have hwritten : p.session.written = [] := by simp [Process.session, hpc, Pc.written]
  have hwaiting : p.session.waiting = p.batch.pending := by
    simp [Process.session, hpc, Pc.unwritten]
  have hbuffered := hsound.sum_uncommitted hwritten (assignment_nodup_of_reachable h hp) hbars
    hcontiguous
  rw [hwaiting] at hbuffered
  have hunpolled := unpolled_eq h hp hcontiguous
  have hlag : LoaderHealthReporter.aggregateLag (LoaderHealthReporter.offsets (sample w p)) =
      p.batch.sourceRecordCount + unpolled w p := by
    rw [aggregateLag_sample, BoundedBatch.sourceRecordCount, ← hbuffered, hunpolled]
    exact sum_lag hsound
  refine ⟨hunpolled, fun c hdue => ?_⟩
  obtain ⟨payload, hmem, since, progress, hevent, haggregate, hsources, hstate⟩ :=
    LoaderHealthReporter.maybeHeartbeat_reports hdue (sample w p) p.batch c.second c.third
  refine ⟨payload, hmem, _, _, hevent, haggregate, hsources, hstate, hlag, fun hstall => ?_⟩
  have hcommitting : p.health.committing = false := by
    rw [committing_of_reachable h hp, hpc]
    rfl
  have hinitialized : (!(LoaderHealthReporter.offsets (sample w p)).isEmpty) = true := by
    have hrows : LoaderHealthReporter.offsets (sample w p) ≠ [] := fun hnil =>
      hassigned ((LoaderHealthReporter.offsets_eq_nil_iff _).mp hnil)
    rw [List.isEmpty_eq_false_iff.mpr hrows]
    rfl
  have hcounts : p.batch.barCount = 0 ↔ p.batch.sourceRecordCount = 0 := by
    rw [BoundedBatch.barCount, BoundedBatch.sourceRecordCount, distinctSources_eq_zero_iff,
      List.length_eq_zero_iff]
  rw [hinitialized, hcommitting, hlag] at hstall ⊢
  simpa [BoundedBatch.barCount, BoundedBatch.isEmpty] using state_of_counts hcounts rfl hstall

/-- One bar of the first frame is buffered and the second frame is not polled. -/
def bufferedRun : List (Action (List Nat)) :=
  [.produce samplePartition 0 [1, 2, 3], .produce samplePartition 1 [4]] ++ pollSteps 1 ++
    flushSteps 1 ++ [.resetWindow (second 1), .ageCheck (second 1)]

theorem bufferedRun_facts : ∃ w p, (system sampleSettings).run sampleWorld bufferedRun = some w ∧
    w.loader = some p ∧ p.pc = .heartbeat ∧ p.assignment ≠ [] ∧
    (∀ tp ∈ p.assignment, (w.broker.log tp).Contiguous) ∧ (∀ r ∈ p.polled, r.bars ≠ []) ∧
    p.health.due (second 61).first = true ∧ p.batch.sourceRecordCount = 1 ∧ unpolled w p = 1 :=
  ⟨_, _, rfl, rfl, rfl, by decide, by decide, by decide, by decide, by decide, by decide⟩

/-- The lag of two records is one buffered and one unpolled. -/
theorem bufferedRun_lag : ∃ w p, (system sampleSettings).run sampleWorld bufferedRun = some w ∧
    w.loader = some p ∧
    ∃ payload ∈ (p.health.maybeHeartbeat (.ok (sample w p)) p.batch (second 61).first
        (second 61).second (second 61).third).2, ∃ lag : Nat, ∃ state : LoaderHealthReporter.State,
      LoaderHealthReporter.field payload "aggregate_lag_records" = some (.int lag) ∧
      LoaderHealthReporter.field payload "state" = some (.str state.value) ∧
      lag = 2 ∧ (state ≠ .stalled → state = .catchingUp) := by
  obtain ⟨w, p, hrun, hp, hpc, hassigned, hcontiguous, hbars, hdue, hsources, hunpolled⟩ :=
    bufferedRun_facts
  obtain ⟨-, hheartbeat⟩ := lag_is_buffered_and_unpolled
    (.of_run (.init sampleWorld_initial) hrun) hp hpc hassigned hcontiguous hbars
  obtain ⟨payload, hmem, lag, state, -, hlag, -, hstate, heq, hstates⟩ := hheartbeat (second 61) hdue
  rw [hunpolled] at heq hstates
  rw [hsources] at heq
  exact ⟨w, p, hrun, hp, payload, hmem, lag, state, hlag, hstate, heq, fun hstall =>
    (hstates hstall).1.mpr Nat.one_pos⟩

/-! ### Records without bars -/

/-- The last record polled from each partition carries a bar. -/
def LastCarriesBar (p : Process Bar) : Prop :=
  ∀ tp r, (polledFrom tp p.polled).getLast? = some r → r.bars ≠ []

/-- The committed offset of every partition that delivered records is the
position. -/
def AcknowledgedUpToPosition (w : World Payload Bar) (p : Process Bar) : Prop :=
  ∀ tp, polledFrom tp p.polled ≠ [] → w.broker.committed tp = some (p.position tp)

/-- Nothing polled is left to flush: the batch is empty between flushes, or no
polled record carried a bar. -/
def NothingToFlush (p : Process Bar) : Prop :=
  (p.pc.written = [] ∧ p.pc.unwritten = [] ∧ p.batch.isEmpty = true) ∨ ∀ r ∈ p.polled, r.bars = []

theorem session_of_nothingToFlush {decode : Payload → Except String (List Bar)}
    {broker : Broker Payload} {stored : List Bar} (h : p.session.Sound decode broker stored)
    (hnothing : NothingToFlush p) : p.session.written = [] ∧ p.session.waiting = [] := by
  rcases hnothing with ⟨hwritten, hunwritten, hempty⟩ | hbars
  · have hpending : p.batch.pending = [] := by simpa [BoundedBatch.isEmpty] using hempty
    exact ⟨hwritten, by simp [Process.session, hunwritten, hpending]⟩
  · have hstream : p.session.polled.flatMap Polled.entries = [] := by
      rw [List.flatMap_eq_nil_iff]
      intro r hr
      rw [Polled.entries, hbars r hr, sourceEntries_nil]
    have hsplit := h.stream
    rw [hstream, List.append_eq_nil_iff, List.append_eq_nil_iff] at hsplit
    exact hsplit.2

theorem acknowledged_iff_session {decode : Payload → Except String (List Bar)}
    {stored : List Bar} (h : p.session.Sound decode w.broker stored)
    (hnothing : NothingToFlush p) : AcknowledgedUpToPosition w p ↔ LastCarriesBar p := by
  obtain ⟨hwritten, hwaiting⟩ := session_of_nothingToFlush h hnothing
  constructor
  · intro hacknowledged tp r hr
    refine (h.committed_eq_position_iff hwritten hwaiting hr).mp (hacknowledged tp ?_)
    exact List.ne_nil_of_mem (List.mem_of_getLast? hr)
  · intro hlast tp hdelivered
    obtain ⟨r, hr⟩ := Option.isSome_iff_exists.mp (List.getLast?_isSome.mpr hdelivered)
    exact (h.committed_eq_position_iff hwritten hwaiting hr).mpr (hlast tp r hr)

/-- With every record polled, the position of an assigned partition is its end. -/
theorem position_of_unpolled_zero (h : (system s).Reachable w) (hp : w.loader = some p)
    (hunpolled : unpolled w p = 0) {tp : TopicPartition} (htp : tp ∈ p.assignment) :
    p.position tp = (w.broker.log tp).endOffset := by
  have hsound := session_sound h hp
  refine Nat.le_antisymm (hsound.le_endOffset tp) ?_
  have hnone : ∀ r ∈ (w.broker.log tp).records, r.offset < p.position tp := by
    intro r hr
    have hzero := List.sum_eq_zero_iff_forall_eq_nat.mp hunpolled _ (List.mem_map_of_mem htp)
    rw [List.length_eq_zero_iff, List.filter_eq_nil_iff] at hzero
    simpa using hzero r hr
  have hbegin : (w.broker.log tp).beginning ≤ p.position tp :=
    (hsound.beginning_le tp).trans (hsound.resumed_le tp)
  unfold PartitionLog.endOffset
  cases hlast : (w.broker.log tp).records.getLast? with
  | none => exact hbegin
  | some last => exact hnone last (List.mem_of_getLast? hlast)

/-- With every record polled, lag is zero exactly if the positions are
acknowledged. -/
theorem lag_zero_iff (h : (system s).Reachable w) (hp : w.loader = some p)
    (hunpolled : unpolled w p = 0) :
    LoaderHealthReporter.aggregateLag (LoaderHealthReporter.offsets (sample w p)) = 0 ↔
      AcknowledgedUpToPosition w p := by
  have hsound := session_sound h hp
  obtain ⟨done, rest, part, hcut⟩ := hsound.exists_cut
  rw [aggregateLag_sample, List.sum_eq_zero_iff_forall_eq_nat]
  constructor
  · intro hzero tp hdelivered
    obtain ⟨r, hr⟩ := Option.isSome_iff_exists.mp (List.getLast?_isSome.mpr hdelivered)
    have hmem := mem_polledFrom.mp (List.mem_of_getLast? hr)
    have htp : tp ∈ p.assignment := hmem.2 ▸ hsound.assigned r hmem.1
    have hlag : (w.broker.log tp).endOffset - w.broker.startOffset tp = 0 :=
      hzero _ (List.mem_map_of_mem htp)
    have hend := position_of_unpolled_zero h hp hunpolled htp
    have hposition : p.position tp = r.source.offset + 1 := hsound.position_eq hr
    have hstart : w.broker.startOffset tp ≤ p.position tp := (hsound.committed_slice hcut tp).2.1
    have hresumed : p.resumedFrom tp ≤ r.source.offset :=
      hsound.resumed_le_offset (List.mem_of_getLast? hr)
    have hbegin : (w.broker.log tp).beginning ≤ p.resumedFrom tp := hsound.beginning_le tp
    unfold Broker.startOffset at hlag hstart
    cases hcommitted : w.broker.committed tp with
    | none =>
        rw [hcommitted, Option.getD_none] at hlag
        omega
    | some offset =>
        rw [hcommitted, Option.getD_some] at hlag hstart
        congr 1
        omega
  · intro hacknowledged lag hlag
    obtain ⟨tp, htp, rfl⟩ := List.mem_map.mp hlag
    have hend := position_of_unpolled_zero h hp hunpolled htp
    have hresumed : p.resumedFrom tp ≤ w.broker.startOffset tp := (hsound.committed_slice hcut tp).1
    by_cases hdelivered : polledFrom tp p.polled = []
    · -- nothing was delivered, so the position is where the process resumed
      have hposition : p.position tp = p.resumedFrom tp := by
        have h := hsound.positioned tp
        simp only [Process.session, hdelivered, List.getLast?_nil, Option.map_none,
          Option.getD_none] at h
        exact h
      omega
    · have hstart : w.broker.startOffset tp = p.position tp := by
        simp [Broker.startOffset, hacknowledged tp hdelivered]
      omega

/-- Once nothing polled is left to flush, the committed offsets are the
positions exactly if the last record of each partition carries a bar. Only then
does a loader that has polled everything report no lag and `idle`; else it
reports `catching_up` or `stalled`. -/
theorem acknowledged_up_to_position_iff (h : (system s).Reachable w) (hp : w.loader = some p)
    (hnothing : NothingToFlush p) :
    (AcknowledgedUpToPosition w p ↔ LastCarriesBar p) ∧
      (p.pc = .heartbeat → p.assignment ≠ [] → unpolled w p = 0 →
        ∀ c : Readings, p.health.due c.first = true →
        ∃ payload ∈ (p.health.maybeHeartbeat (.ok (sample w p)) p.batch c.first c.second c.third).2,
        ∃ lag : Nat, ∃ state : LoaderHealthReporter.State,
          LoaderHealthReporter.field payload "event" = some (.str "heartbeat") ∧
          LoaderHealthReporter.field payload "aggregate_lag_records" = some (.int lag) ∧
          LoaderHealthReporter.field payload "state" = some (.str state.value) ∧
          (lag = 0 ↔ LastCarriesBar p) ∧ (state = .idle ↔ LastCarriesBar p) ∧
          (state = .catchingUp ∨ state = .stalled ↔ ¬ LastCarriesBar p)) := by
  have hsound := session_sound h hp
  have hiff := acknowledged_iff_session hsound hnothing
  refine ⟨hiff, fun hpc hassigned hunpolled c hdue => ?_⟩
  obtain ⟨payload, hmem, since, progress, hevent, haggregate, -, hstate⟩ :=
    LoaderHealthReporter.maybeHeartbeat_reports hdue (sample w p) p.batch c.second c.third
  refine ⟨payload, hmem, _, _, hevent, haggregate, hstate,
    (lag_zero_iff h hp hunpolled).trans hiff, ?_⟩
  rw [← hiff, ← lag_zero_iff h hp hunpolled]
  have hempty : p.batch.pending = [] := by
    have hwaiting := (session_of_nothingToFlush hsound hnothing).2
    simpa [Process.session, hpc, Pc.unwritten] using hwaiting
  have hcommitting : p.health.committing = false := by
    rw [committing_of_reachable h hp, hpc]
    rfl
  have hrows : LoaderHealthReporter.offsets (sample w p) ≠ [] := fun hnil =>
    hassigned ((LoaderHealthReporter.offsets_eq_nil_iff _).mp hnil)
  have hbars : p.batch.barCount = 0 := by simp [BoundedBatch.barCount, hempty]
  have hsources : p.batch.sourceRecordCount = 0 := by
    rw [BoundedBatch.sourceRecordCount, distinctSources_eq_zero_iff, hempty]
  rw [hcommitting, hbars, hsources, List.isEmpty_eq_false_iff.mpr hrows]
  exact LoaderHealthReporter.inferState_of_empty_buffer _ _ _ _ _

/-! ### A frame without bars -/

/-- An empty frame is polled, a heartbeat follows after one minute and another
one after the stall threshold. -/
def emptyFrameRun : List (Action (List Nat)) :=
  [.produce samplePartition 0 []] ++ pollSteps 1 ++
    [.ageCheck (second 1), .heartbeat none (second 61), .loopTest, .poll none (second 961),
      .ageCheck (second 961), .heartbeat none (second 961)]

/-- The `state` member of a printed health payload. -/
def reportedState : Line → Option Json
  | .health payload => LoaderHealthReporter.field payload "state"
  | .committed _ _ _ => none

/-- The offset of an empty frame is never committed: the loader has polled
everything and buffers nothing, reports that it is catching up, and then that
it has stalled. -/
theorem emptyFrameRun_unacknowledged : ∃ w p,
    (system sampleSettings).run sampleWorld emptyFrameRun = some w ∧ w.loader = some p ∧
    NothingToFlush p ∧ unpolled w p = 0 ∧ ¬ AcknowledgedUpToPosition w p ∧
    w.output.map reportedState = [some (.str "starting"), some (.str "catching_up"),
      some (.str "stalled"), some (.str "stalled")] := by
  refine ⟨_, _, rfl, rfl, Or.inr (by decide), by decide, ?_, rfl⟩
  intro hacknowledged
  have := hacknowledged samplePartition (by decide)
  revert this
  decide

theorem sampleRun_facts : ∃ w p, (system sampleSettings).run sampleWorld sampleRun = some w ∧
    w.loader = some p ∧ NothingToFlush p :=
  ⟨_, _, rfl, rfl, Or.inl ⟨rfl, rfl, by decide⟩⟩

/-- After the final flush everything polled is acknowledged, if the last frame
carried a bar. -/
theorem sampleRun_acknowledged : ∃ w p,
    (system sampleSettings).run sampleWorld sampleRun = some w ∧ w.loader = some p ∧
    (LastCarriesBar p → AcknowledgedUpToPosition w p) := by
  obtain ⟨w, p, hrun, hp, hnothing⟩ := sampleRun_facts
  exact ⟨w, p, hrun, hp,
    (acknowledged_up_to_position_iff (.of_run (.init sampleWorld_initial) hrun) hp hnothing).1.mpr⟩

end Main

end Lakehouse.Loader
