/-
Runs of `BoundedBatch`: any calls of `add`, with `drain` between them, and the
offsets `Main.flush` commits for the batches that leave the buffer.

* `run_stream`, `run_sized` — no entry is lost, repeated or reordered, and what
  the batches' sizes are.
* `written_iff` — which sources lie wholly before a cut of the stream.
* `run_segmented` — both, with the final entries and the committed offsets.
-/

import Lakehouse.Loader.Delivery

namespace Lakehouse.Loader

variable {Bar : Type}

namespace BoundedBatch

inductive Call (Bar : Type) where
  | add (source : Source) (bars : List Bar)
  | drain

/-- A batch `add` completed, or `drain` took out. -/
structure Emitted (Bar : Type) where
  batch : Batch Bar
  drained : Bool

def perform (b : BoundedBatch Bar) : Call Bar → Option (BoundedBatch Bar × List (Emitted Bar))
  | .add source bars =>
      some ((b.add source bars).1, (b.add source bars).2.map fun batch => ⟨batch, false⟩)
  | .drain => b.drain.map fun (rest, batch) => (rest, [⟨batch, true⟩])

/-- The calls in order; `none` if one of them drains an empty buffer. -/
def run (b : BoundedBatch Bar) : List (Call Bar) → Option (BoundedBatch Bar × List (Emitted Bar))
  | [] => some (b, [])
  | call :: rest =>
      (b.perform call).bind fun (next, emitted) =>
        (next.run rest).map fun (last, more) => (last, emitted ++ more)

/-- The source a call adds. -/
def Call.source? : Call Bar → Option (Polled Bar)
  | .add source bars => some ⟨source, bars⟩
  | .drain => none

def sources (calls : List (Call Bar)) : List (Polled Bar) := calls.filterMap Call.source?

def entriesOf (emitted : List (Emitted Bar)) : List (Entry Bar) :=
  emitted.flatMap fun e => e.batch.entries

@[simp] theorem entriesOf_append (first second : List (Emitted Bar)) :
    entriesOf (first ++ second) = entriesOf first ++ entriesOf second :=
  List.flatMap_append

/-- The size of a batch under the limit `m`. -/
def Emitted.Sized (m : Nat) (e : Emitted Bar) : Prop :=
  if e.drained then 1 ≤ e.batch.entries.length ∧ e.batch.entries.length ≤ m - 1
  else e.batch.entries.length = m

section Run

variable {b next : BoundedBatch Bar} {emitted : List (Emitted Bar)}

/-- What one call does to the buffer and the stream. -/
theorem perform_spec {call : Call Bar} (h : b.perform call = some (next, emitted)) :
    next.maximumRecords = b.maximumRecords ∧
      entriesOf emitted ++ next.pending = b.pending ++ call.source?.toList.flatMap Polled.entries ∧
      ∀ e ∈ emitted, e.Sized b.maximumRecords := by
  cases call with
  | add source bars =>
      cases h
      refine ⟨rfl, ?_, ?_⟩
      · rw [entriesOf, List.flatMap_map]
        simpa [Call.source?, Polled.entries] using b.add_entries source bars
      · intro e he
        obtain ⟨batch, hbatch, rfl⟩ := List.mem_map.mp he
        exact b.add_full source bars hbatch
  | drain =>
      obtain ⟨⟨rest, batch⟩, hdrain, heq⟩ := Option.map_eq_some_iff.mp h
      cases heq
      obtain ⟨hne, hentries, hpending, hmaximum⟩ := drain_eq_some hdrain
      refine ⟨hmaximum, ?_, ?_⟩
      · simp [entriesOf, hentries, hpending, Call.source?]
      · intro e he
        rw [List.mem_singleton.mp he]
        have hpos : 0 < b.pending.length := List.length_pos_of_ne_nil hne
        have hbounded := b.bounded
        simp only [Emitted.Sized, if_true, hentries]
        omega

/-- What the calls do to the buffer and the stream. -/
theorem run_spec {calls : List (Call Bar)} (h : b.run calls = some (next, emitted)) :
    next.maximumRecords = b.maximumRecords ∧
      entriesOf emitted ++ next.pending = b.pending ++ (sources calls).flatMap Polled.entries ∧
      ∀ e ∈ emitted, e.Sized b.maximumRecords := by
  induction calls generalizing b emitted with
  | nil =>
      cases h
      exact ⟨rfl, by simp [entriesOf, sources], by simp⟩
  | cons call rest ih =>
      obtain ⟨⟨middle, first⟩, hperform, h⟩ := Option.bind_eq_some_iff.mp h
      obtain ⟨⟨last, more⟩, hrest, heq⟩ := Option.map_eq_some_iff.mp h
      cases heq
      obtain ⟨hmaximum, hstream, hsized⟩ := perform_spec hperform
      obtain ⟨hmaximum', hstream', hsized'⟩ := ih hrest
      refine ⟨hmaximum'.trans hmaximum, ?_, ?_⟩
      · have hsources : sources (call :: rest) = call.source?.toList ++ sources rest := by
          cases call <;> rfl
        rw [entriesOf_append, List.append_assoc, hstream', ← List.append_assoc, hstream,
          List.append_assoc, ← List.flatMap_append, hsources]
      · intro e he
        rcases List.mem_append.mp he with hfirst | hmore
        · exact hsized e hfirst
        · exact hmaximum ▸ hsized' e hmore

end Run

/-! ### Sources -/

/-- The offsets of the sources increase within each partition, so that no source
is added twice. -/
def Increasing (added : List (Polled Bar)) : Prop :=
  added.Pairwise fun a b =>
    a.source.topicPartition = b.source.topicPartition → a.source.offset < b.source.offset

theorem Increasing.distinct {added : List (Polled Bar)} (h : Increasing added) :
    added.Pairwise fun a b => a.source ≠ b.source := by
  refine h.imp fun hlt heq => ?_
  exact absurd (hlt (congrArg Source.topicPartition heq)) (by rw [heq]; exact Nat.lt_irrefl _)

/-- All bars of a source are among the entries. -/
def Written (entries : List (Entry Bar)) (r : Polled Bar) : Prop := ∀ e ∈ r.entries, e ∈ entries

/-- The final entries of a source: its last entry, if it has bars. -/
theorem filter_final_source {added : List (Polled Bar)} (h : Increasing added) {r : Polled Bar}
    (hr : r ∈ added) :
    (added.flatMap Polled.entries).filter
      (fun e => e.finalBarOfSource && decide (e.source = r.source)) = r.entries.getLast?.toList := by
  obtain ⟨front, back, rfl⟩ := List.append_of_mem hr
  obtain ⟨_, hback, hfront⟩ := List.pairwise_append.mp h.distinct
  have hother : ∀ others : List (Polled Bar), (∀ x ∈ others, x.source ≠ r.source) →
      (others.flatMap Polled.entries).filter
        (fun e => e.finalBarOfSource && decide (e.source = r.source)) = [] := by
    intro others hne
    refine List.filter_eq_nil_iff.mpr fun e he => ?_
    obtain ⟨x, hx, hmem⟩ := List.mem_flatMap.mp he
    simp [source_of_mem_sourceEntries hmem, hne x hx]
  have hown : r.entries.filter (fun e => e.finalBarOfSource && decide (e.source = r.source)) =
      r.entries.filter Entry.finalBarOfSource := by
    refine List.filter_congr fun e he => ?_
    simp [source_of_mem_sourceEntries he]
  rw [List.flatMap_append, List.flatMap_cons, List.filter_append, List.filter_append, hown,
    r.entries_marksEnd.filter_eq, hother front fun x hx => hfront x hx r List.mem_cons_self,
    hother back fun x hx => (List.rel_of_pairwise_cons hback hx).symm, List.nil_append,
    List.append_nil]

section Cut

variable {done rest : List (Polled Bar)} {part : List (Entry Bar)}

/-- The sources with bars that are written by a cut are those before it. -/
theorem written_iff (h : Increasing (done ++ rest)) (hcut : CutPart rest part) {r : Polled Bar}
    (hr : r ∈ done ++ rest) (hbars : r.bars ≠ []) :
    Written (done.flatMap Polled.entries ++ part) r ↔ r ∈ done := by
  constructor
  · intro hwritten
    have hne : r.entries ≠ [] := fun hnil => hbars ((sourceEntries_eq_nil_iff _ _).mp hnil)
    -- The last entry is final, so it is none of the part.
    have hfinal : r.entries.getLast hne ∈ r.entries.filter Entry.finalBarOfSource := by
      rw [r.entries_marksEnd.filter_eq, List.getLast?_eq_some_getLast hne]
      exact List.mem_singleton_self _
    have hsource := source_of_mem_sourceEntries (List.getLast_mem hne)
    rcases List.mem_append.mp (hwritten _ (List.getLast_mem hne)) with hdone | hpart
    · obtain ⟨other, hother, hmem⟩ := List.mem_flatMap.mp hdone
      have hsame : other.source = r.source := (source_of_mem_sourceEntries hmem).symm.trans hsource
      rcases List.mem_append.mp hr with hr | hr
      · exact hr
      · exact absurd hsame ((List.pairwise_append.mp h.distinct).2.2 other hother r hr)
    · have hnone : r.entries.getLast hne ∈ part.filter Entry.finalBarOfSource :=
        List.mem_filter.mpr ⟨hpart, (List.mem_filter.mp hfinal).2⟩
      rw [hcut.no_final] at hnone
      exact absurd hnone List.not_mem_nil
  · intro hdone e he
    exact List.mem_append_left _ (List.mem_flatMap.mpr ⟨r, hdone, he⟩)

end Cut

/-- The last record of `tp` that carries a bar, where it stands. -/
theorem lastCarrying_eq_some {tp : TopicPartition} {done : List (Polled Bar)} {next : Nat}
    (h : lastCarrying tp done = some next) :
    ∃ front r back, done = front ++ r :: back ∧ r.source.topicPartition = tp ∧ r.bars ≠ [] ∧
      next = r.source.offset + 1 ∧
      ∀ later ∈ back, later.source.topicPartition = tp → later.bars = [] := by
  rw [lastCarrying, polledFrom, List.filter_filter] at h
  obtain ⟨r, hlast, rfl⟩ := Option.map_eq_some_iff.mp h
  obtain ⟨init, hfilter⟩ := List.getLast?_eq_some_iff.mp hlast
  obtain ⟨before, behind, rfl, -, hbehind⟩ := List.filter_eq_append_iff.mp hfilter
  obtain ⟨front, back, rfl, -, hr, hback⟩ := List.filter_eq_cons_iff.mp hbehind
  simp only [Bool.and_eq_true, decide_eq_true_eq, Bool.not_eq_true', List.isEmpty_eq_false_iff]
    at hr
  refine ⟨before ++ front, r, back, by rw [List.append_assoc], hr.2, hr.1, rfl, ?_⟩
  intro later hlater htp
  by_contra hbars
  exact List.filter_eq_nil_iff.mp hback later hlater (by simp [htp, hbars])

/-! ### The batches and the offsets of a run -/

/-- `offsets` has for `tp` one past the last source of `tp` with bars whose bars
are all among `written`. -/
def CommitsLast (added : List (Polled Bar)) (written : List (Entry Bar))
    (offsets : List (TopicPartition × Nat)) (tp : TopicPartition) : Prop :=
  ∃ front r back, added = front ++ r :: back ∧ r.source.topicPartition = tp ∧ r.bars ≠ [] ∧
    Written written r ∧
    (∀ later ∈ back, later.source.topicPartition = tp → later.bars ≠ [] →
      ¬ Written written later) ∧
    offsets.lookup tp = some (r.source.offset + 1)

/-- What leaves a buffer of `m` entries to which the sources `added` went in
order. -/
structure Segmented (m : Nat) (added : List (Polled Bar)) (emitted : List (Emitted Bar))
    (b : BoundedBatch Bar) : Prop where
  stream : entriesOf emitted ++ b.pending = added.flatMap Polled.entries
  sized : ∀ e ∈ emitted, e.Sized m
  pending : b.pending.length < m
  oneFinal : ∀ r ∈ added, r.bars ≠ [] → ∃ last, r.entries.getLast? = some last ∧
    (entriesOf emitted ++ b.pending).filter
      (fun e => e.finalBarOfSource && decide (e.source = r.source)) = [last]
  /-- The offsets `flush` commits for a batch, once it and those before it are
  written. -/
  committed : ∀ before e after, emitted = before ++ e :: after → ∀ tp,
    ((∃ entry ∈ e.batch.entries, entry.finalBarOfSource = true ∧
        entry.source.topicPartition = tp) →
      CommitsLast added (entriesOf (before ++ [e])) (flushOffsets e.batch.entries) tp) ∧
    ((∀ entry ∈ e.batch.entries, entry.finalBarOfSource = true →
        entry.source.topicPartition ≠ tp) →
      (flushOffsets e.batch.entries).lookup tp = none)

section Commit

variable {added : List (Polled Bar)} {before after : List (Entry Bar)} {batch : List (Entry Bar)}

/-- A batch cut out of the stream commits its partitions' last final entries. -/
theorem lookup_batch (h : Increasing added)
    (hstream : before ++ batch ++ after = added.flatMap Polled.entries) (tp : TopicPartition) :
    (flushOffsets batch).lookup tp = lastFinal tp batch := by
  have hordered := offsetsOrdered_entries h
  rw [← hstream] at hordered
  exact lookup_flushOffsets
    (List.pairwise_append.mp (List.pairwise_append.mp hordered).1).2.1 tp

theorem commitsLast (h : Increasing added)
    (hstream : before ++ batch ++ after = added.flatMap Polled.entries) {tp : TopicPartition}
    {entry : Entry Bar} (hentry : entry ∈ batch) (hfinal : entry.finalBarOfSource = true)
    (htp : entry.source.topicPartition = tp) :
    CommitsLast added (before ++ batch) (flushOffsets batch) tp := by
  obtain ⟨done, rest, part, rfl, hwritten, hcut⟩ := exists_cutPart hstream
  obtain ⟨next, hnext⟩ : ∃ next, lastFinal tp batch = some next := by
    have hmem : entry ∈ batch.filter fun e =>
        e.finalBarOfSource && decide (e.source.topicPartition = tp) :=
      List.mem_filter.mpr ⟨hentry, by simp [hfinal, htp]⟩
    exact ⟨_, congrArg (Option.map _) (List.getLast?_eq_some_getLast (List.ne_nil_of_mem hmem))⟩
  have hcarrying : lastCarrying tp done = some next := by
    rw [← hcut.lastFinal done tp, ← hwritten, lastFinal_append, hnext, Option.some_or]
  obtain ⟨front, r, back, rfl, hr, hbars, rfl, hlast⟩ := lastCarrying_eq_some hcarrying
  have hdone : r ∈ front ++ r :: back := List.mem_append_right _ List.mem_cons_self
  refine ⟨front, r, back ++ rest, by simp, hr, hbars, ?_, ?_, ?_⟩
  · rw [hwritten]
    exact (written_iff h hcut (List.mem_append_left _ hdone) hbars).mpr hdone
  · intro later hlater htp' hbars'
    have hmem : later ∈ (front ++ r :: back) ++ rest := by
      rw [List.append_assoc, List.cons_append]
      exact List.mem_append_right _ (List.mem_cons_of_mem _ hlater)
    rw [hwritten, written_iff h hcut hmem hbars']
    intro hearlier
    rcases List.mem_append.mp hlater with hback | hrest
    · exact hbars' (hlast later hback htp')
    · -- No source is both before and behind the cut.
      exact (List.pairwise_append.mp h.distinct).2.2 later hearlier later hrest rfl
  · rw [lookup_batch h hstream, hnext]

theorem commits_none (h : Increasing added)
    (hstream : before ++ batch ++ after = added.flatMap Polled.entries) {tp : TopicPartition}
    (hnone : ∀ entry ∈ batch, entry.finalBarOfSource = true → entry.source.topicPartition ≠ tp) :
    (flushOffsets batch).lookup tp = none := by
  have hfilter : (batch.filter fun e =>
      e.finalBarOfSource && decide (e.source.topicPartition = tp)) = [] := by
    refine List.filter_eq_nil_iff.mpr fun e he => ?_
    simp only [Bool.and_eq_true, decide_eq_true_eq, not_and]
    exact hnone e he
  rw [lookup_batch h hstream, lastFinal, hfilter]
  rfl

end Commit

/-- Any calls on a new buffer segment the stream of the sources they add, and
what is committed for each batch is exact. -/
theorem run_segmented {m : Nat} {start b : BoundedBatch Bar} {calls : List (Call Bar)}
    {emitted : List (Emitted Bar)} (hnew : BoundedBatch.new m = .ok start)
    (hrun : start.run calls = some (b, emitted)) (hincreasing : Increasing (sources calls)) :
    Segmented m (sources calls) emitted b := by
  obtain ⟨hempty, hmaximum⟩ := new_eq_ok hnew
  obtain ⟨hsame, hstream, hsized⟩ := run_spec hrun
  rw [hempty, List.nil_append] at hstream
  constructor
  · exact hstream
  · exact hmaximum ▸ hsized
  · exact hmaximum ▸ hsame ▸ b.bounded
  · intro r hr hbars
    have hne : r.entries ≠ [] := fun hnil => hbars ((sourceEntries_eq_nil_iff _ _).mp hnil)
    refine ⟨r.entries.getLast hne, List.getLast?_eq_some_getLast hne, ?_⟩
    rw [hstream, filter_final_source hincreasing hr, List.getLast?_eq_some_getLast hne]
    rfl
  · rintro before e after rfl tp
    have hbatch : entriesOf before ++ e.batch.entries ++ (entriesOf after ++ b.pending) =
        (sources calls).flatMap Polled.entries := by
      rw [← hstream, entriesOf_append]
      simp [entriesOf]
    have hwritten : entriesOf (before ++ [e]) = entriesOf before ++ e.batch.entries := by
      simp [entriesOf]
    constructor
    · rintro ⟨entry, hentry, hfinal, htp⟩
      rw [hwritten]
      exact commitsLast hincreasing hbatch hentry hfinal htp
    · exact commits_none hincreasing hbatch

/-- Three sources of one partition, one of them empty, and a drain. -/
def sampleCalls : List (Call Char) :=
  [.add ⟨"bars", 0, 4⟩ "abcd".toList, .add ⟨"bars", 0, 5⟩ [], .add ⟨"bars", 0, 6⟩ "xyz".toList,
    .drain]

def sampleStart : BoundedBatch Char := ⟨3, [], by decide⟩

theorem sampleCalls_increasing : Increasing (sources sampleCalls) := by
  simp [Increasing, sampleCalls, sources, List.filterMap_cons, Call.source?,
    Source.topicPartition]

/-- In batches of three, the second completes the first source, the drained one
the third. -/
theorem sampleCalls_segmented : ∃ b emitted, Segmented 3 (sources sampleCalls) emitted b ∧
    emitted.map (fun e => (e.batch.bars, e.drained, flushOffsets e.batch.entries)) =
      [("abc".toList, false, []), ("dxy".toList, false, [(⟨"bars", 0⟩, 5)]),
        ("z".toList, true, [(⟨"bars", 0⟩, 7)])] := by
  have hrun : sampleStart.run sampleCalls = some _ := rfl
  exact ⟨_, _, run_segmented rfl hrun sampleCalls_increasing, rfl⟩

end BoundedBatch

end Lakehouse.Loader
