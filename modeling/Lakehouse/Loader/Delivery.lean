/-
At-least-once delivery of a partitioned log into a table.

The abstract view of a loader: records are delivered from each partition in
offset order, their bars wait in one queue, a prefix of the queue is stored,
and storing is acknowledged by committing, per partition, one past the last
record whose final bar it contains. A session can end at any point; the next
one starts from the committed offsets with an empty queue.

* `Session.Sound` — what a session guarantees: its queue is the stream of the
  polled records, and what it polled is a decoded slice of each log.
* `Session.Sound.exists_cut` — the flushed entries cut the polled records into
  flushed ones and unflushed ones; the committed offsets follow from the cut.
* `Settled` — every record below a committed offset decodes, and its bars are
  stored, counted with multiplicity over all partitions.
* `Delivery.Sound.of_reaches` — both hold along every run.
-/

import Mathlib.Logic.Relation
import Lakehouse.Loader.Main

namespace Lakehouse.Loader

variable {Payload Bar : Type}

structure Session (Bar : Type) where
  assignment : List TopicPartition
  resumedFrom : TopicPartition → Nat
  position : TopicPartition → Nat
  polled : List (Polled Bar)
  /-- Stored and acknowledged. -/
  flushed : List (Entry Bar)
  /-- Stored, not yet acknowledged. -/
  written : List (Entry Bar)
  waiting : List (Entry Bar)

structure Delivery (Payload Bar : Type) where
  broker : Broker Payload
  stored : List Bar
  session : Option (Session Bar)

/-- A session that has not polled anything. -/
def Session.fresh (broker : Broker Payload) (assignment : List TopicPartition) : Session Bar :=
  ⟨assignment, broker.startOffset, broker.startOffset, [], [], [], []⟩

/-- The records of a list that came from `tp`. -/
def polledFrom (tp : TopicPartition) (polled : List (Polled Bar)) : List (Polled Bar) :=
  polled.filter fun r => decide (r.source.topicPartition = tp)

/-- A log record and the record polled from it. -/
def Decodes (decode : Payload → Except String (List Bar)) (tp : TopicPartition)
    (record : ConsumerRecord Payload) (r : Polled Bar) : Prop :=
  r.source = ⟨tp.topic, tp.partition, record.offset⟩ ∧ decode record.value = .ok r.bars

inductive Delivery.Step (decode : Payload → Except String (List Bar)) :
    Delivery Payload Bar → Delivery Payload Bar → Prop where
  | produce {d tp offset value} (h : (d.broker.log tp).endOffset ≤ offset) :
      Step decode d { d with broker := d.broker.produce tp offset value h }
  | begin {d} : d.session = none → Step decode d { d with session := some (.fresh d.broker []) }
  | assign {d s} (partitions : List TopicPartition) : d.session = some s → s.assignment = [] →
      Step decode d { d with session := some { s with
        assignment := partitions
        resumedFrom := d.broker.startOffset
        position := d.broker.startOffset } }
  | deliver {d s tp record bars} : d.session = some s → tp ∈ s.assignment →
      (d.broker.log tp).nextFrom (s.position tp) = some record →
      decode record.value = .ok bars →
      Step decode d { d with session := some { s with
        position := Function.update s.position tp (record.offset + 1)
        polled := s.polled ++ [⟨⟨tp.topic, tp.partition, record.offset⟩, bars⟩]
        waiting := s.waiting ++ sourceEntries ⟨tp.topic, tp.partition, record.offset⟩ bars } }
  | write {d s entries rest} : d.session = some s → s.written = [] → s.waiting = entries ++ rest →
      Step decode d
        { d with
          stored := d.stored ++ entries.map Entry.bar
          session := some { s with written := entries, waiting := rest } }
  | acknowledge {d s} : d.session = some s →
      Step decode d
        { d with
          broker := d.broker.commit (flushOffsets s.written)
          session := some { s with flushed := s.flushed ++ s.written, written := [] } }
  | stop {d} : Step decode d { d with session := none }

/-! ### What is stored -/

/-- The bars of a list of records. -/
def barsOf (decode : Payload → Except String (List Bar)) (records : List (ConsumerRecord Payload)) :
    List Bar :=
  records.flatMap fun r => match decode r.value with
    | .ok bars => bars
    | .error _ => []

/-- All bars of the records of `parts` below the offsets `upTo`. -/
def backlog (decode : Payload → Except String (List Bar)) (broker : Broker Payload)
    (upTo : TopicPartition → Nat) (parts : Finset TopicPartition) : Multiset Bar :=
  ∑ tp ∈ parts, ((barsOf decode ((broker.log tp).slice (broker.log tp).beginning (upTo tp)) :
    List Bar) : Multiset Bar)

/-- Every record below `upTo` decodes. -/
def Readable (decode : Payload → Except String (List Bar)) (broker : Broker Payload)
    (upTo : TopicPartition → Nat) : Prop :=
  ∀ tp, ∀ r ∈ (broker.log tp).slice (broker.log tp).beginning (upTo tp),
    ∃ bars, decode r.value = .ok bars

/-- The guarantee a restart relies on. -/
structure Settled (decode : Payload → Except String (List Bar)) (broker : Broker Payload)
    (stored : List Bar) : Prop where
  beginning_le : ∀ tp, (broker.log tp).beginning ≤ broker.startOffset tp
  le_endOffset : ∀ tp, broker.startOffset tp ≤ (broker.log tp).endOffset
  readable : Readable decode broker broker.startOffset
  covered : ∀ parts, backlog decode broker broker.startOffset parts ≤ (stored : Multiset Bar)

structure Session.Sound (decode : Payload → Except String (List Bar)) (broker : Broker Payload)
    (stored : List Bar) (s : Session Bar) : Prop where
  stream : s.flushed ++ (s.written ++ s.waiting) = s.polled.flatMap Polled.entries
  delivered : ∀ tp, List.Forall₂ (Decodes decode tp)
    ((broker.log tp).slice (s.resumedFrom tp) (s.position tp)) (polledFrom tp s.polled)
  positioned : ∀ tp, s.position tp =
    (((polledFrom tp s.polled).getLast?).map fun r => r.source.offset + 1).getD (s.resumedFrom tp)
  assigned : ∀ r ∈ s.polled, r.source.topicPartition ∈ s.assignment
  ordered : s.polled.Pairwise fun a b =>
    a.source.topicPartition = b.source.topicPartition → a.source.offset < b.source.offset
  beginning_le : ∀ tp, (broker.log tp).beginning ≤ s.resumedFrom tp
  resumed_le : ∀ tp, s.resumedFrom tp ≤ s.position tp
  le_endOffset : ∀ tp, s.position tp ≤ (broker.log tp).endOffset
  committed : ∀ tp, broker.startOffset tp = (lastFinal tp s.flushed).getD (s.resumedFrom tp)
  readable : Readable decode broker s.resumedFrom
  covered : ∃ base : List Bar, stored = base ++ (s.flushed ++ s.written).map Entry.bar ∧
    ∀ parts, backlog decode broker s.resumedFrom parts ≤ (base : Multiset Bar)

def Delivery.Sound (decode : Payload → Except String (List Bar)) (d : Delivery Payload Bar) : Prop :=
  match d.session with
  | none => Settled decode d.broker d.stored
  | some s => s.Sound decode d.broker d.stored

/-! ### Polled records of one partition -/

variable {decode : Payload → Except String (List Bar)} {broker : Broker Payload}
  {stored : List Bar} {s : Session Bar}

theorem mem_polledFrom {tp : TopicPartition} {polled : List (Polled Bar)} {r : Polled Bar} :
    r ∈ polledFrom tp polled ↔ r ∈ polled ∧ r.source.topicPartition = tp := by
  simp [polledFrom]

@[simp] theorem polledFrom_append (tp : TopicPartition) (first second : List (Polled Bar)) :
    polledFrom tp (first ++ second) = polledFrom tp first ++ polledFrom tp second :=
  List.filter_append ..

theorem polledFrom_singleton (tp : TopicPartition) (r : Polled Bar) :
    polledFrom tp [r] = if r.source.topicPartition = tp then [r] else [] := by
  simp [polledFrom, List.filter_cons]

/-- One past the last record of `tp` that carries a bar. -/
def lastCarrying (tp : TopicPartition) (polled : List (Polled Bar)) : Option Nat :=
  (((polledFrom tp polled).filter fun r => !r.bars.isEmpty).getLast?).map
    fun r => r.source.offset + 1

/-- What was polled from a slice of the log has the slice's bars. -/
theorem barsOf_of_decodes {tp : TopicPartition} {records : List (ConsumerRecord Payload)}
    {polled : List (Polled Bar)} (h : List.Forall₂ (Decodes decode tp) records polled) :
    barsOf decode records = polled.flatMap Polled.bars ∧
      ∀ r ∈ records, ∃ bars, decode r.value = .ok bars := by
  induction h with
  | nil => exact ⟨rfl, by simp⟩
  | cons hr _ ih =>
      refine ⟨?_, ?_⟩
      · simp only [barsOf, List.flatMap_cons, hr.2]
        exact congrArg _ ih.1
      · intro r hmem
        rcases List.mem_cons.mp hmem with rfl | hmem
        · exact ⟨_, hr.2⟩
        · exact ih.2 r hmem

/-- Every record polled from a slice is a record of the slice. -/
theorem exists_of_mem_polled {tp : TopicPartition} {records : List (ConsumerRecord Payload)}
    {polled : List (Polled Bar)} (h : List.Forall₂ (Decodes decode tp) records polled)
    {r : Polled Bar} (hr : r ∈ polled) : ∃ x ∈ records, Decodes decode tp x r := by
  induction h with
  | nil => simp at hr
  | @cons x r' records polled hx _ ih =>
      rcases List.mem_cons.mp hr with rfl | hr
      · exact ⟨x, List.mem_cons_self, hx⟩
      · obtain ⟨y, hy, hdecodes⟩ := ih hr
        exact ⟨y, List.mem_cons_of_mem _ hy, hdecodes⟩

theorem Polled.entries_marksEnd (r : Polled Bar) :
    Framing.MarksEnd Entry.finalBarOfSource r.entries :=
  sourceEntries_marksEnd r.source r.bars

theorem map_bar_entries (polled : List (Polled Bar)) :
    (polled.flatMap Polled.entries).map Entry.bar = polled.flatMap Polled.bars := by
  induction polled with
  | nil => rfl
  | cons r rest ih => simp [Polled.entries, ih]

/-- A record's own final entry, if it has bars. -/
theorem lastFinal_entries (tp : TopicPartition) (r : Polled Bar) :
    lastFinal tp r.entries =
      if r.source.topicPartition = tp ∧ r.bars ≠ [] then some (r.source.offset + 1) else none := by
  have hsource : ∀ e ∈ r.entries, e.source = r.source := fun e he => source_of_mem_sourceEntries he
  by_cases htp : r.source.topicPartition = tp
  · have hfinal : (r.entries.filter fun e =>
        e.finalBarOfSource && decide (e.source.topicPartition = tp)) =
          r.entries.getLast?.toList := by
      rw [← r.entries_marksEnd.filter_eq]
      apply List.filter_congr
      intro e he
      simp [hsource e he, htp]
    rw [lastFinal, hfinal]
    cases hlast : r.entries.getLast? with
    | none =>
        have : r.bars = [] := (sourceEntries_eq_nil_iff r.source r.bars).mp
          (List.getLast?_eq_none_iff.mp hlast)
        simp [this]
    | some e =>
        have hne : r.bars ≠ [] := by
          intro hbars
          simp [Polled.entries, hbars] at hlast
        simp [htp, hne, hsource e (List.mem_of_getLast? hlast)]
  · have hnone : (r.entries.filter fun e =>
        e.finalBarOfSource && decide (e.source.topicPartition = tp)) = [] := by
      apply List.filter_eq_nil_iff.mpr
      intro e he
      simp [hsource e he, htp]
    simp [lastFinal, hnone, htp]

theorem lastCarrying_append (tp : TopicPartition) (first second : List (Polled Bar)) :
    lastCarrying tp (first ++ second) = (lastCarrying tp second).or (lastCarrying tp first) := by
  simp only [lastCarrying, polledFrom_append, List.filter_append, List.getLast?_append]
  cases ((polledFrom tp second).filter _).getLast? <;> simp

theorem lastCarrying_singleton (tp : TopicPartition) (r : Polled Bar) :
    lastCarrying tp [r] =
      if r.source.topicPartition = tp ∧ r.bars ≠ [] then some (r.source.offset + 1) else none := by
  rw [lastCarrying, polledFrom_singleton]
  by_cases htp : r.source.topicPartition = tp
  · by_cases hbars : r.bars = [] <;> simp [htp, hbars]
  · simp [htp]

/-- The final entries of whole records are those of the records with bars. -/
theorem lastFinal_flatMap_entries (tp : TopicPartition) (done : List (Polled Bar)) :
    lastFinal tp (done.flatMap Polled.entries) = lastCarrying tp done := by
  induction done using List.reverseRecOn with
  | nil => rfl
  | append_singleton done r ih =>
      rw [List.flatMap_append, lastFinal_append, lastCarrying_append, ih, List.flatMap_singleton,
        lastFinal_entries, lastCarrying_singleton]

/-- Entries in polling order have their offsets in order. -/
theorem offsetsOrdered_entries {polled : List (Polled Bar)}
    (h : polled.Pairwise fun a b =>
      a.source.topicPartition = b.source.topicPartition → a.source.offset < b.source.offset) :
    OffsetsOrdered (polled.flatMap Polled.entries) := by
  rw [OffsetsOrdered, List.pairwise_flatMap]
  constructor
  · intro r _
    refine List.pairwise_of_forall_mem_list fun a ha b hb _ => ?_
    rw [source_of_mem_sourceEntries ha, source_of_mem_sourceEntries hb]
  · refine h.imp fun hlt a ha b hb hab => ?_
    rw [source_of_mem_sourceEntries ha, source_of_mem_sourceEntries hb] at hab ⊢
    exact Nat.le_of_lt (hlt hab)

/-! ### The cut between flushed and unflushed records -/

/-- What is before a cut behind the records `done` when `rest` is after it. -/
def CutPart (rest : List (Polled Bar)) (part : List (Entry Bar)) : Prop :=
  part = [] ∧ rest = [] ∨
    ∃ r tail, rest = r :: tail ∧ part <+: r.entries ∧ part.length < r.entries.length

/-- The entries of records, cut anywhere: whole records, and a part of the next. -/
theorem exists_cutPart {polled : List (Polled Bar)} {before after : List (Entry Bar)}
    (h : before ++ after = polled.flatMap Polled.entries) :
    ∃ done rest part, polled = done ++ rest ∧ before = done.flatMap Polled.entries ++ part ∧
      CutPart rest part := by
  rw [List.flatMap_def] at h
  obtain ⟨done', rest', part, hframes, hbefore, hnext⟩ := Framing.exists_cut h
  obtain ⟨done, rest, hpolled, rfl, rfl⟩ := List.map_eq_append_iff.mp hframes
  refine ⟨done, rest, part, hpolled, by rw [hbefore, List.flatMap_def], ?_⟩
  rcases hnext with ⟨hpart, hrest⟩ | ⟨frame, tail', hrest, hpre, hlt⟩
  · exact Or.inl ⟨hpart, List.map_eq_nil_iff.mp hrest⟩
  · obtain ⟨r, tail, rfl, rfl, -⟩ := List.map_eq_cons_iff.mp hrest
    exact Or.inr ⟨r, tail, rfl, hpre, hlt⟩

/-- A record that is cut has no final entry before the cut. -/
theorem CutPart.no_final {rest : List (Polled Bar)} {part : List (Entry Bar)}
    (h : CutPart rest part) : part.filter Entry.finalBarOfSource = [] := by
  rcases h with ⟨rfl, -⟩ | ⟨r, tail, -, hpre, hlt⟩
  · rfl
  · exact r.entries_marksEnd.filter_prefix hpre hlt

theorem CutPart.lastFinal {rest : List (Polled Bar)} {part : List (Entry Bar)}
    (h : CutPart rest part) (done : List (Polled Bar)) (tp : TopicPartition) :
    lastFinal tp (done.flatMap Polled.entries ++ part) = lastCarrying tp done := by
  have hnone : Loader.lastFinal tp part = none := by
    rw [Loader.lastFinal, ← List.filter_filter, List.filter_comm, h.no_final]
    rfl
  rw [lastFinal_append, hnone, Option.none_or, lastFinal_flatMap_entries]

/-- Where the flushed entries end: `done` is flushed, the first record of `rest`
only in the part `part`, the others not at all. -/
structure Session.Cut (s : Session Bar) (done rest : List (Polled Bar)) (part : List (Entry Bar)) :
    Prop where
  polled : s.polled = done ++ rest
  flushed : s.flushed = done.flatMap Polled.entries ++ part
  next : part = [] ∧ rest = [] ∨
    ∃ r tail, rest = r :: tail ∧ part <+: r.entries ∧ part.length < r.entries.length

theorem Session.Sound.exists_cut (h : s.Sound decode broker stored) :
    ∃ done rest part, s.Cut done rest part := by
  obtain ⟨done, rest, part, hpolled, hflushed, hnext⟩ := exists_cutPart h.stream
  exact ⟨done, rest, part, hpolled, hflushed, hnext⟩

/-- A partly flushed record has no final entry among the flushed ones. -/
theorem Session.Cut.lastFinal_flushed {done rest : List (Polled Bar)} {part : List (Entry Bar)}
    (hcut : s.Cut done rest part) (tp : TopicPartition) :
    lastFinal tp s.flushed = lastCarrying tp done := by
  rw [hcut.flushed]
  exact CutPart.lastFinal hcut.next done tp

/-- Cut a polled slice anywhere: up to the last record before the cut that has
bars, the slice is what was polled before the cut less some empty records. -/
theorem slice_carrying {l : PartitionLog Payload} {tp : TopicPartition} {low high : Nat}
    (hle : low ≤ high) {first second : List (Polled Bar)}
    (h : List.Forall₂ (Decodes decode tp) (l.slice low high) (first ++ second)) {upTo : Nat}
    (hupTo : upTo = (((first.filter fun r => !r.bars.isEmpty).getLast?).map
      fun r => r.source.offset + 1).getD low) :
    low ≤ upTo ∧ upTo ≤ high ∧ ∃ carried empty, first = carried ++ empty ∧
      (∀ r ∈ empty, r.bars = []) ∧ List.Forall₂ (Decodes decode tp) (l.slice low upTo) carried := by
  induction first using List.reverseRecOn generalizing second with
  | nil =>
      have : upTo = low := hupTo
      subst this
      exact ⟨Nat.le_refl _, hle, [], [], rfl, by simp, by simp⟩
  | append_singleton first r ih =>
      by_cases hbars : r.bars = []
      · -- an empty record moves the offset no further
        rw [List.filter_append, List.filter_cons_of_neg (by simp [hbars]), List.filter_nil,
          List.append_nil] at hupTo
        rw [List.append_assoc] at h
        obtain ⟨hlow, hhigh, carried, empty, rfl, hempty, hslice⟩ := ih h hupTo
        refine ⟨hlow, hhigh, carried, empty ++ [r], by simp, ?_, hslice⟩
        intro x hx
        rcases List.mem_append.mp hx with hx | hx
        · exact hempty x hx
        · rw [List.mem_singleton.mp hx]
          exact hbars
      · rw [List.filter_append, List.filter_cons_of_pos (by simpa using hbars), List.filter_nil,
          List.getLast?_concat, Option.map_some, Option.getD_some] at hupTo
        rw [List.append_assoc, List.singleton_append] at h
        have hbefore := List.forall₂_take_append _ _ _ h
        obtain ⟨record, after, hr, -, hdrop⟩ :=
          List.forall₂_cons_right_iff.mp (List.forall₂_drop_append _ _ _ h)
        have hslice : l.slice low high =
            (l.slice low high).take first.length ++ record :: after := by
          rw [← hdrop, List.take_append_drop]
        have hoffset : r.source.offset = record.offset := by rw [hr.1]
        have hmem : record ∈ l.slice low high := by
          rw [hslice]
          simp
        obtain ⟨-, hlow, hhigh⟩ := PartitionLog.mem_slice.mp hmem
        rw [hupTo, hoffset]
        refine ⟨by omega, by omega, first ++ [r], [], by simp, by simp, ?_⟩
        rw [PartitionLog.slice_cut hslice]
        exact List.rel_append hbefore (.cons hr .nil)

/-- The committed offset of a partition lies in the polled slice, and the slice
below it is what was flushed less some empty records. -/
theorem Session.Sound.committed_slice (h : s.Sound decode broker stored)
    {done rest : List (Polled Bar)} {part : List (Entry Bar)} (hcut : s.Cut done rest part)
    (tp : TopicPartition) :
    s.resumedFrom tp ≤ broker.startOffset tp ∧ broker.startOffset tp ≤ s.position tp ∧
      ∃ carried empty, polledFrom tp done = carried ++ empty ∧ (∀ r ∈ empty, r.bars = []) ∧
        List.Forall₂ (Decodes decode tp)
          ((broker.log tp).slice (s.resumedFrom tp) (broker.startOffset tp)) carried := by
  have hdelivered := h.delivered tp
  rw [hcut.polled, polledFrom_append] at hdelivered
  refine slice_carrying (h.resumed_le tp) hdelivered ?_
  rw [h.committed, hcut.lastFinal_flushed]
  rfl

/-- The bars below the committed offset are those of the flushed records. -/
theorem Session.Sound.committed_bars (h : s.Sound decode broker stored)
    {done rest : List (Polled Bar)} {part : List (Entry Bar)} (hcut : s.Cut done rest part)
    (tp : TopicPartition) :
    barsOf decode ((broker.log tp).slice (s.resumedFrom tp) (broker.startOffset tp)) =
      (polledFrom tp done).flatMap Polled.bars := by
  obtain ⟨-, -, carried, empty, hdone, hempty, hslice⟩ := h.committed_slice hcut tp
  have hnone : empty.flatMap Polled.bars = [] := by
    rw [List.flatMap_eq_nil_iff]
    exact hempty
  rw [(barsOf_of_decodes hslice).1, hdone, List.flatMap_append, hnone, List.append_nil]

/-- A sound session can stop at any point. -/
theorem Session.Sound.settled (h : s.Sound decode broker stored) :
    Settled decode broker stored := by
  obtain ⟨done, rest, part, hcut⟩ := h.exists_cut
  have hslice := fun tp => h.committed_slice hcut tp
  have hsplit : ∀ tp, (broker.log tp).slice (broker.log tp).beginning (broker.startOffset tp) =
      (broker.log tp).slice (broker.log tp).beginning (s.resumedFrom tp) ++
        (broker.log tp).slice (s.resumedFrom tp) (broker.startOffset tp) := fun tp =>
    (PartitionLog.slice_append (h.beginning_le tp) (hslice tp).1).symm
  refine ⟨fun tp => (h.beginning_le tp).trans (hslice tp).1,
    fun tp => (hslice tp).2.1.trans (h.le_endOffset tp), ?_, ?_⟩
  · intro tp r hr
    rw [hsplit tp] at hr
    rcases List.mem_append.mp hr with hr | hr
    · exact h.readable tp r hr
    · obtain ⟨hmem, hlow, hhigh⟩ := PartitionLog.mem_slice.mp hr
      exact (barsOf_of_decodes (h.delivered tp)).2 r
        (PartitionLog.mem_slice.mpr ⟨hmem, hlow, Nat.lt_of_lt_of_le hhigh (hslice tp).2.1⟩)
  · intro parts
    obtain ⟨base, hstored, hbase⟩ := h.covered
    have hbacklog : backlog decode broker broker.startOffset parts =
        backlog decode broker s.resumedFrom parts +
          ∑ tp ∈ parts, (((polledFrom tp done).flatMap Polled.bars : List Bar) : Multiset Bar) := by
      rw [backlog, backlog, ← Finset.sum_add_distrib]
      refine Finset.sum_congr rfl fun tp _ => ?_
      rw [hsplit tp, ← h.committed_bars hcut tp, Multiset.coe_add]
      simp [barsOf]
    calc backlog decode broker broker.startOffset parts
        ≤ (base : Multiset Bar) + (done.flatMap Polled.bars : List Bar) := by
          rw [hbacklog]
          exact add_le_add (hbase parts) (Framing.sum_filter_flatMap_le _ _ parts done)
      _ ≤ (stored : Multiset Bar) := by
          rw [hstored, hcut.flushed, ← Multiset.coe_add]
          refine add_le_add (le_refl _) ?_
          rw [List.map_append, List.map_append, map_bar_entries, List.append_assoc]
          exact Multiset.coe_le.mpr (List.sublist_append_left _ _).subperm

/-! ### Each step keeps a session sound -/

section Produce

variable {upTo : TopicPartition → Nat} {tp : TopicPartition} {offset : Nat} {value : Payload}
  {hend : (broker.log tp).endOffset ≤ offset}

theorem backlog_produce (hupTo : ∀ tp, upTo tp ≤ (broker.log tp).endOffset)
    (parts : Finset TopicPartition) :
    backlog decode (broker.produce tp offset value hend) upTo parts =
      backlog decode broker upTo parts := by
  refine Finset.sum_congr rfl fun other _ => ?_
  rw [Broker.produce_beginning, Broker.produce_slice _ _ _ _ (hupTo other)]

theorem Readable.produce (h : Readable decode broker upTo)
    (hupTo : ∀ tp, upTo tp ≤ (broker.log tp).endOffset) :
    Readable decode (broker.produce tp offset value hend) upTo := by
  intro other r hr
  rw [Broker.produce_beginning, Broker.produce_slice _ _ _ _ (hupTo other)] at hr
  exact h other r hr

theorem Settled.produce (h : Settled decode broker stored) :
    Settled decode (broker.produce tp offset value hend) stored := by
  constructor
  · simpa using h.beginning_le
  · intro other
    rw [Broker.produce_startOffset]
    exact (h.le_endOffset other).trans (Broker.le_produce_endOffset ..)
  · rw [Broker.produce_startOffset]
    exact h.readable.produce h.le_endOffset
  · intro parts
    rw [Broker.produce_startOffset, backlog_produce h.le_endOffset]
    exact h.covered parts

theorem Session.Sound.produce (h : s.Sound decode broker stored) :
    s.Sound decode (broker.produce tp offset value hend) stored := by
  have hresumed : ∀ tp, s.resumedFrom tp ≤ (broker.log tp).endOffset := fun tp =>
    (h.resumed_le tp).trans (h.le_endOffset tp)
  obtain ⟨base, hstored, hbase⟩ := h.covered
  exact { h with
    delivered := fun other => by
      rw [Broker.produce_slice _ _ _ _ (h.le_endOffset other)]
      exact h.delivered other
    beginning_le := by simpa using h.beginning_le
    le_endOffset := fun other => (h.le_endOffset other).trans (Broker.le_produce_endOffset ..)
    committed := by simpa using h.committed
    readable := h.readable.produce hresumed
    covered := ⟨base, hstored, fun parts => by
      rw [backlog_produce hresumed]
      exact hbase parts⟩ }

end Produce

/-- A new session starts from a settled broker. -/
theorem Settled.fresh (h : Settled decode broker stored) (assignment : List TopicPartition) :
    (Session.fresh broker assignment : Session Bar).Sound decode broker stored where
  stream := rfl
  delivered tp := by simp [Session.fresh, polledFrom]
  positioned tp := rfl
  assigned := by simp [Session.fresh]
  ordered := List.Pairwise.nil
  beginning_le := h.beginning_le
  resumed_le tp := Nat.le_refl _
  le_endOffset := h.le_endOffset
  committed tp := rfl
  readable := h.readable
  covered := ⟨stored, by simp [Session.fresh], h.covered⟩

/-- Before its assignment a session holds nothing, so it may start over. -/
theorem Session.Sound.assign (h : s.Sound decode broker stored) (hnone : s.assignment = [])
    (partitions : List TopicPartition) :
    Session.Sound decode broker stored { s with
      assignment := partitions
      resumedFrom := broker.startOffset
      position := broker.startOffset } := by
  have hpolled : s.polled = [] := by
    apply List.eq_nil_iff_forall_not_mem.mpr
    intro r hr
    simpa [hnone] using h.assigned r hr
  have hstream := h.stream
  rw [hpolled, List.flatMap_nil, List.append_eq_nil_iff, List.append_eq_nil_iff] at hstream
  obtain ⟨hflushed, hwritten, hwaiting⟩ := hstream
  simpa [Session.fresh, hpolled, hflushed, hwritten, hwaiting] using
    h.settled.fresh partitions

theorem Session.Sound.deliver (h : s.Sound decode broker stored) {tp : TopicPartition}
    (htp : tp ∈ s.assignment) {record : ConsumerRecord Payload}
    (hnext : (broker.log tp).nextFrom (s.position tp) = some record) {bars : List Bar}
    (hdecode : decode record.value = .ok bars) :
    Session.Sound decode broker stored { s with
      position := Function.update s.position tp (record.offset + 1)
      polled := s.polled ++ [⟨⟨tp.topic, tp.partition, record.offset⟩, bars⟩]
      waiting := s.waiting ++ sourceEntries ⟨tp.topic, tp.partition, record.offset⟩ bars } := by
  obtain ⟨hmem, hposition⟩ := PartitionLog.nextFrom_mem hnext
  -- the records of the other partitions are what they were
  have hpolled : ∀ other, polledFrom other
      (s.polled ++ [⟨⟨tp.topic, tp.partition, record.offset⟩, bars⟩]) =
        polledFrom other s.polled ++
          if tp = other then [⟨⟨tp.topic, tp.partition, record.offset⟩, bars⟩] else [] := by
    intro other
    rw [polledFrom_append, polledFrom_singleton]
    rfl
  have hbelow : ∀ r ∈ s.polled, r.source.topicPartition = tp → r.source.offset < record.offset := by
    intro r hr hrtp
    obtain ⟨x, hx, hdecodes⟩ := 
      exists_of_mem_polled (h.delivered tp) (mem_polledFrom.mpr ⟨hr, hrtp⟩)
    have := (PartitionLog.mem_slice.mp hx).2.2
    rw [hdecodes.1]
    exact Nat.lt_of_lt_of_le this hposition
  constructor
  · have hstream := h.stream
    simp only [List.flatMap_append, List.flatMap_singleton, ← hstream]
    simp [Polled.entries]
  · intro other
    dsimp only
    rw [hpolled other]
    by_cases hother : tp = other
    · subst hother
      rw [if_pos rfl, Function.update_self,
        ← PartitionLog.slice_append (h.resumed_le tp) (Nat.le_succ_of_le hposition),
        PartitionLog.slice_nextFrom hnext]
      exact List.rel_append (h.delivered tp) (.cons ⟨rfl, hdecode⟩ .nil)
    · rw [if_neg hother, List.append_nil, Function.update_of_ne (Ne.symm hother)]
      exact h.delivered other
  · intro other
    dsimp only
    rw [hpolled other]
    by_cases hother : tp = other
    · subst hother
      simp
    · rw [if_neg hother, List.append_nil, Function.update_of_ne (Ne.symm hother)]
      exact h.positioned other
  · intro r hr
    rcases List.mem_append.mp hr with hr | hr
    · exact h.assigned r hr
    · rw [List.mem_singleton.mp hr]
      exact htp
  · rw [List.pairwise_append]
    refine ⟨h.ordered, List.pairwise_singleton _ _, ?_⟩
    intro a ha b hb hab
    rw [List.mem_singleton.mp hb] at hab ⊢
    exact hbelow a ha hab
  · exact h.beginning_le
  · intro other
    by_cases hother : tp = other
    · subst hother
      have := h.resumed_le tp
      simp only [Function.update_self]
      omega
    · dsimp only
      rw [Function.update_of_ne (Ne.symm hother)]
      exact h.resumed_le other
  · intro other
    by_cases hother : tp = other
    · subst hother
      simp only [Function.update_self]
      exact PartitionLog.offset_lt_endOffset hmem
    · dsimp only
      rw [Function.update_of_ne (Ne.symm hother)]
      exact h.le_endOffset other
  · exact h.committed
  · exact h.readable
  · exact h.covered

theorem Session.Sound.write (h : s.Sound decode broker stored) (hwritten : s.written = [])
    {entries rest : List (Entry Bar)} (hwaiting : s.waiting = entries ++ rest) :
    Session.Sound decode broker (stored ++ entries.map Entry.bar)
      { s with written := entries, waiting := rest } := by
  obtain ⟨base, hstored, hbase⟩ := h.covered
  exact { h with
    stream := by simpa [hwritten, hwaiting] using h.stream
    covered := ⟨base, by simp [hstored, hwritten], hbase⟩ }

theorem Session.Sound.offsetsOrdered (h : s.Sound decode broker stored) :
    OffsetsOrdered s.written := by
  have hentries := offsetsOrdered_entries h.ordered
  rw [← h.stream] at hentries
  exact (List.pairwise_append.mp (List.pairwise_append.mp hentries).2.1).1

theorem Session.Sound.acknowledge (h : s.Sound decode broker stored) :
    Session.Sound decode (broker.commit (flushOffsets s.written)) stored
      { s with flushed := s.flushed ++ s.written, written := [] } where
  stream := by simpa using h.stream
  delivered := h.delivered
  positioned := h.positioned
  assigned := h.assigned
  ordered := h.ordered
  beginning_le := h.beginning_le
  resumed_le := h.resumed_le
  le_endOffset := h.le_endOffset
  committed tp := by
    have hcommitted := h.committed tp
    simp only [Broker.startOffset, Broker.commit, commitSync] at hcommitted ⊢
    rw [lookup_flushOffsets h.offsetsOrdered, lastFinal_append]
    cases lastFinal tp s.written with
    | none => simpa using hcommitted
    | some offset => simp
  readable := h.readable
  covered := by
    obtain ⟨base, hstored, hbase⟩ := h.covered
    exact ⟨base, by simpa using hstored, hbase⟩

/-! ### Runs -/

namespace Delivery

theorem Sound.step {d d' : Delivery Payload Bar} (h : d.Sound decode) (hstep : Step decode d d') :
    d'.Sound decode := by
  cases hstep with
  | produce hend =>
      cases hsession : d.session with
      | none =>
          simp only [Sound, hsession] at h ⊢
          exact h.produce
      | some s =>
          simp only [Sound, hsession] at h ⊢
          exact h.produce
  | begin hnone =>
      simp only [Sound, hnone] at h
      exact h.fresh []
  | assign partitions hsession hnone =>
      simp only [Sound, hsession] at h
      exact h.assign hnone partitions
  | deliver hsession htp hnext hdecode =>
      simp only [Sound, hsession] at h
      exact h.deliver htp hnext hdecode
  | write hsession hwritten hwaiting =>
      simp only [Sound, hsession] at h
      exact h.write hwritten hwaiting
  | acknowledge hsession =>
      simp only [Sound, hsession] at h
      exact h.acknowledge
  | stop =>
      cases hsession : d.session with
      | none => simpa only [Sound, hsession] using h
      | some s =>
          simp only [Sound, hsession] at h
          exact h.settled

/-- Along every run, and so also after every restart, the state is sound. -/
theorem Sound.of_reaches {d d' : Delivery Payload Bar} (h : d.Sound decode)
    (hrun : Relation.ReflTransGen (Step decode) d d') : d'.Sound decode := by
  induction hrun with
  | refl => exact h
  | tail _ hstep ih => exact ih.step hstep

/-- A sound state is settled, whether a session runs or not. -/
theorem Sound.settled {d : Delivery Payload Bar} (h : d.Sound decode) :
    Settled decode d.broker d.stored := by
  cases hsession : d.session with
  | none => simpa only [Sound, hsession] using h
  | some s =>
      simp only [Sound, hsession] at h
      exact h.settled

/-- Nothing committed and nothing stored is settled. -/
theorem sound_of_initial {d : Delivery Payload Bar} (hsession : d.session = none)
    (hcommitted : ∀ tp, d.broker.committed tp = none) : d.Sound decode := by
  have hstart : ∀ tp, d.broker.startOffset tp = (d.broker.log tp).beginning := by
    intro tp
    simp [Broker.startOffset, hcommitted]
  simp only [Sound, hsession]
  constructor
  · intro tp
    exact Nat.le_of_eq (hstart tp).symm
  · intro tp
    rw [hstart]
    exact PartitionLog.beginning_le_endOffset
  · intro tp r hr
    rw [hstart, PartitionLog.slice_self] at hr
    simp at hr
  · intro parts
    simp only [backlog, hstart, PartitionLog.slice_self, barsOf, List.flatMap_nil,
      Multiset.coe_nil, Finset.sum_const_zero]
    exact Multiset.zero_le _

end Delivery

end Lakehouse.Loader
