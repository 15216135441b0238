/-
`BoundedBatch.java`: the in-memory write batch with its source-record
boundaries.

Bars are appended one at a time; the batch is drained into a full `Batch` each
time it reaches `maximumRecords`. The entry of a record's last bar carries
`finalBarOfSource`, and only that entry makes the record's offset eligible for
commit. Nothing here looks inside a bar, so the model is generic in `Bar`.

* `BoundedBatch.add_eq_fill` — `add` is `Framing.fill` of the record's tagged
  bars, so the library's chunk facts apply.
* `add_entries`, `add_full` — no entry is lost or reordered, and full batches
  are full; that the pending part stays below the limit is a field.
* `sourceEntries_marksEnd` — in a record's entries exactly the last is final.
-/

import Lakehouse.Lib.Framing

namespace Lakehouse.Loader

/-- A partition of a Kafka topic. -/
structure TopicPartition where
  topic : String
  partition : Nat
deriving DecidableEq, Repr

/-- The Kafka record a bar came from. -/
structure Source where
  topic : String
  partition : Nat
  offset : Nat
deriving DecidableEq, Repr

/-- `new TopicPartition(source.topic(), source.partition())`. -/
def Source.topicPartition (s : Source) : TopicPartition := ⟨s.topic, s.partition⟩

structure Entry (Bar : Type) where
  bar : Bar
  source : Source
  finalBarOfSource : Bool
deriving DecidableEq, Repr

variable {Bar : Type}

/-- `entries.stream().map(Entry::source).distinct().count()`. -/
def distinctSources (entries : List (Entry Bar)) : Nat :=
  (entries.map Entry.source).dedup.length

theorem distinctSources_eq_zero_iff (entries : List (Entry Bar)) :
    distinctSources entries = 0 ↔ entries = [] := by
  rw [distinctSources, List.length_eq_zero_iff, List.dedup_eq_nil, List.map_eq_nil_iff]

structure Batch (Bar : Type) where
  entries : List (Entry Bar)
deriving DecidableEq, Repr

namespace Batch

def bars (b : Batch Bar) : List Bar := b.entries.map Entry.bar

def barCount (b : Batch Bar) : Nat := b.entries.length

def sourceRecordCount (b : Batch Bar) : Nat := distinctSources b.entries

end Batch

/-- The buffer. Between calls it holds fewer than `maximumRecords` entries. -/
structure BoundedBatch (Bar : Type) where
  maximumRecords : Nat
  pending : List (Entry Bar)
  bounded : pending.length < maximumRecords

/-- The entries a record contributes; the last one is final. -/
def sourceEntries (source : Source) : List Bar → List (Entry Bar)
  | [] => []
  | bar :: rest => ⟨bar, source, rest.isEmpty⟩ :: sourceEntries source rest

section Entries

variable (source : Source) (bars : List Bar)

@[simp] theorem sourceEntries_nil : sourceEntries source ([] : List Bar) = [] := rfl

@[simp] theorem map_bar_sourceEntries : (sourceEntries source bars).map Entry.bar = bars := by
  induction bars with
  | nil => rfl
  | cons bar rest ih => simp [sourceEntries, ih]

@[simp] theorem length_sourceEntries : (sourceEntries source bars).length = bars.length := by
  induction bars with
  | nil => rfl
  | cons bar rest ih => simp [sourceEntries, ih]

theorem source_of_mem_sourceEntries {source : Source} {bars : List Bar} {e : Entry Bar}
    (h : e ∈ sourceEntries source bars) : e.source = source := by
  induction bars with
  | nil => simp at h
  | cons bar rest ih =>
      rcases List.mem_cons.mp h with rfl | h
      · rfl
      · exact ih h

theorem sourceEntries_eq_nil_iff : sourceEntries source bars = [] ↔ bars = [] := by
  rw [← List.length_eq_zero_iff, length_sourceEntries, List.length_eq_zero_iff]

/-- Exactly the last entry of a record is final. -/
theorem sourceEntries_marksEnd :
    Framing.MarksEnd Entry.finalBarOfSource (sourceEntries source bars) := by
  induction bars with
  | nil => trivial
  | cons bar rest ih =>
      cases rest with
      | nil => rfl
      | cons next rest => exact ⟨rfl, ih⟩

end Entries

namespace BoundedBatch

/-- `new BoundedBatch(maximumRecords)`. -/
def new (maximumRecords : Nat) : Except String (BoundedBatch Bar) :=
  if h : maximumRecords < 1 then .error "LOADER_MAX_RECORDS must be positive"
  else .ok ⟨maximumRecords, [], by simp only [List.length_nil]; omega⟩

/-- The loop of `add`: append a bar, drain when the batch is full, go on. -/
def addLoop (maximumRecords : Nat) (source : Source) :
    List Bar → List (Entry Bar) → List (Batch Bar) → List (Entry Bar) × List (Batch Bar)
  | [], pending, completed => (pending, completed)
  | bar :: rest, pending, completed =>
      let pending := pending ++ [⟨bar, source, rest.isEmpty⟩]
      if pending.length = maximumRecords then
        addLoop maximumRecords source rest [] (completed ++ [⟨pending⟩])
      else addLoop maximumRecords source rest pending completed

/-- The loop fills the buffer with the record's entries. -/
theorem addLoop_eq_fill (maximumRecords : Nat) (source : Source) (bars : List Bar)
    (pending : List (Entry Bar)) (completed : List (Batch Bar)) :
    addLoop maximumRecords source bars pending completed =
      ((Framing.fill maximumRecords pending (sourceEntries source bars)).1,
        completed ++
          (Framing.fill maximumRecords pending (sourceEntries source bars)).2.map Batch.mk) := by
  induction bars generalizing pending completed with
  | nil => simp [addLoop]
  | cons bar rest ih =>
      simp only [addLoop, sourceEntries, Framing.fill]
      split
      · rw [ih]
        simp
      · rw [ih]

/-- `add(source, bars)`: the new buffer and the batches it completed. -/
def add (b : BoundedBatch Bar) (source : Source) (bars : List Bar) :
    BoundedBatch Bar × List (Batch Bar) :=
  let result := addLoop b.maximumRecords source bars b.pending []
  (⟨b.maximumRecords, result.1, by
    have hpos : 0 < b.maximumRecords := Nat.zero_lt_of_lt b.bounded
    simp only [result, addLoop_eq_fill]
    exact Framing.fill_buffer_length hpos b.bounded⟩, result.2)

def isEmpty (b : BoundedBatch Bar) : Bool := b.pending.isEmpty

def barCount (b : BoundedBatch Bar) : Nat := b.pending.length

def sourceRecordCount (b : BoundedBatch Bar) : Nat := distinctSources b.pending

/-- `drain()`; `none` is the `IllegalStateException` on an empty buffer. -/
def drain (b : BoundedBatch Bar) : Option (BoundedBatch Bar × Batch Bar) :=
  if b.pending.isEmpty then none
  else some (⟨b.maximumRecords, [], Nat.zero_lt_of_lt b.bounded⟩, ⟨b.pending⟩)

section Add

variable (b : BoundedBatch Bar) (source : Source) (bars : List Bar)

theorem add_eq_fill :
    (b.add source bars).1.pending =
        (Framing.fill b.maximumRecords b.pending (sourceEntries source bars)).1 ∧
      (b.add source bars).2 =
        (Framing.fill b.maximumRecords b.pending (sourceEntries source bars)).2.map Batch.mk := by
  simp [add, addLoop_eq_fill]

@[simp] theorem add_maximumRecords : (b.add source bars).1.maximumRecords = b.maximumRecords := rfl

/-- The completed batches followed by the pending entries are the old pending
entries followed by the record's. -/
theorem add_entries :
    (b.add source bars).2.flatMap Batch.entries ++ (b.add source bars).1.pending =
      b.pending ++ sourceEntries source bars := by
  obtain ⟨hpending, hfull⟩ := add_eq_fill b source bars
  rw [hpending, hfull, List.flatMap_map]
  simpa [List.flatMap_def] using
    Framing.fill_flatten b.maximumRecords b.pending (sourceEntries source bars)

/-- Every batch `add` returns has exactly `maximumRecords` entries. -/
theorem add_full {batch : Batch Bar} (h : batch ∈ (b.add source bars).2) :
    batch.entries.length = b.maximumRecords := by
  rw [(add_eq_fill b source bars).2] at h
  obtain ⟨entries, hmem, rfl⟩ := List.mem_map.mp h
  exact Framing.fill_chunk_length hmem

/-- A record without bars changes nothing. -/
@[simp] theorem add_nil : b.add source [] = (b, []) := rfl

end Add

theorem new_eq_ok {maximumRecords : Nat} {b : BoundedBatch Bar} (h : new maximumRecords = .ok b) :
    b.pending = [] ∧ b.maximumRecords = maximumRecords := by
  unfold new at h
  split at h
  · simp at h
  · cases h
    exact ⟨rfl, rfl⟩

theorem drain_eq_some {b b' : BoundedBatch Bar} {batch : Batch Bar}
    (h : b.drain = some (b', batch)) :
    b.pending ≠ [] ∧ batch.entries = b.pending ∧ b'.pending = [] ∧
      b'.maximumRecords = b.maximumRecords := by
  unfold drain at h
  split at h
  · simp at h
  · rename_i hne
    cases h
    exact ⟨by simpa using hne, rfl, rfl, rfl⟩

end BoundedBatch

/-- A 900-bar batch and a 500-bar record under a limit of 1000, scaled down. -/
example :
    ((BoundedBatch.mk 10 (sourceEntries ⟨"bars", 0, 41⟩ (List.replicate 9 'x')) (by decide)).add
      ⟨"bars", 0, 42⟩ (List.replicate 5 'y')).2.map (fun b => (b.barCount, b.sourceRecordCount)) =
      [(10, 2)] := by decide

end Lakehouse.Loader
