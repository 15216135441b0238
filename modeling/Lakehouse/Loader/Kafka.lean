/-
The Kafka side of the loader: partition logs, the group's committed offsets,
and the offset map a flush commits.

A partition log is append-only with strictly increasing offsets, not
necessarily contiguous. Broker, consumer position and group offsets are the
documented behaviour of a group with one member: records of a partition are
delivered in offset order from the position.

* `PartitionLog.nextFrom`, `PartitionLog.append` — delivery and production.
* `flushOffsets` — the `HashMap.merge` loop of `Main.flush`;
  `lookup_flushOffsets` — on entries whose offsets do not decrease inside a
  partition it holds one past the partition's last final entry.
-/

import Mathlib.Data.List.Induction
import Mathlib.Logic.Function.Basic
import Lakehouse.Loader.BoundedBatch

namespace Lakehouse.Loader

structure ConsumerRecord (Payload : Type) where
  offset : Nat
  value : Payload
deriving DecidableEq, Repr

/-- An append-only partition: `beginning` is its first offset ever used. -/
structure PartitionLog (Payload : Type) where
  beginning : Nat
  records : List (ConsumerRecord Payload)
  increasing : records.Pairwise fun a b => a.offset < b.offset
  beginning_le : ∀ r ∈ records, beginning ≤ r.offset

namespace PartitionLog

variable {Payload : Type}

def empty (beginning : Nat) : PartitionLog Payload :=
  ⟨beginning, [], List.Pairwise.nil, by simp⟩

/-- The offset after the newest record. -/
def endOffset (l : PartitionLog Payload) : Nat :=
  match l.records.getLast? with
  | none => l.beginning
  | some r => r.offset + 1

/-- The record a consumer at `position` receives next. -/
def nextFrom (l : PartitionLog Payload) (position : Nat) : Option (ConsumerRecord Payload) :=
  l.records.find? fun r => decide (position ≤ r.offset)

/-- The records with offsets in `[low, high)`, in order. -/
def slice (l : PartitionLog Payload) (low high : Nat) : List (ConsumerRecord Payload) :=
  l.records.filter fun r => decide (low ≤ r.offset) && decide (r.offset < high)

/-- The offsets are `beginning, beginning + 1, …` without a gap. -/
def Contiguous (l : PartitionLog Payload) : Prop :=
  l.records.map ConsumerRecord.offset = List.range' l.beginning l.records.length

instance (l : PartitionLog Payload) : Decidable l.Contiguous :=
  inferInstanceAs (Decidable (l.records.map ConsumerRecord.offset = _))

variable {l : PartitionLog Payload}

theorem offset_lt_endOffset {r : ConsumerRecord Payload} (h : r ∈ l.records) :
    r.offset < l.endOffset := by
  unfold endOffset
  cases hlast : l.records.getLast? with
  | none => simp [List.getLast?_eq_none_iff.mp hlast] at h
  | some last =>
      obtain ⟨init, hsplit⟩ := List.getLast?_eq_some_iff.mp hlast
      rw [hsplit] at h
      rcases List.mem_append.mp h with h | h
      · have hinc := l.increasing
        rw [hsplit, List.pairwise_append] at hinc
        have := hinc.2.2 r h last (List.mem_singleton_self _)
        show r.offset < last.offset + 1
        omega
      · rw [List.mem_singleton.mp h]
        exact Nat.lt_succ_self _

theorem beginning_le_endOffset : l.beginning ≤ l.endOffset := by
  unfold endOffset
  cases hlast : l.records.getLast? with
  | none => exact Nat.le_refl _
  | some last =>
      have := l.beginning_le last (List.mem_of_getLast? hlast)
      show l.beginning ≤ last.offset + 1
      omega

/-- Append a record at an unused offset. -/
def append (l : PartitionLog Payload) (offset : Nat) (value : Payload) (h : l.endOffset ≤ offset) :
    PartitionLog Payload where
  beginning := l.beginning
  records := l.records ++ [⟨offset, value⟩]
  increasing := by
    rw [List.pairwise_append]
    refine ⟨l.increasing, List.pairwise_singleton _ _, ?_⟩
    intro a ha b hb
    rw [List.mem_singleton.mp hb]
    have := offset_lt_endOffset ha
    show a.offset < offset
    omega
  beginning_le := by
    intro r hr
    rcases List.mem_append.mp hr with hr | hr
    · exact l.beginning_le r hr
    · rw [List.mem_singleton.mp hr]
      have := l.beginning_le_endOffset
      show l.beginning ≤ offset
      omega

section Append

variable {offset : Nat} {value : Payload} {h : l.endOffset ≤ offset}

@[simp] theorem append_beginning : (l.append offset value h).beginning = l.beginning := rfl

@[simp] theorem append_endOffset : (l.append offset value h).endOffset = offset + 1 := by
  simp [endOffset, append]

/-- Records below an already reached offset are not affected by production. -/
theorem append_slice {low high : Nat} (hhigh : high ≤ l.endOffset) :
    (l.append offset value h).slice low high = l.slice low high := by
  have hdrop : ¬ offset < high := by omega
  simp [slice, append, List.filter_append, hdrop]

end Append

/-! ### Slices -/

theorem mem_slice {low high : Nat} {r : ConsumerRecord Payload} :
    r ∈ l.slice low high ↔ r ∈ l.records ∧ low ≤ r.offset ∧ r.offset < high := by
  simp [slice, List.mem_filter]

theorem nextFrom_mem {position : Nat} {r : ConsumerRecord Payload}
    (h : l.nextFrom position = some r) : r ∈ l.records ∧ position ≤ r.offset :=
  ⟨List.mem_of_find?_eq_some h, by simpa using List.find?_some h⟩

@[simp] theorem slice_self (low : Nat) : l.slice low low = [] := by
  apply List.filter_eq_nil_iff.mpr
  intro r _
  simp only [Bool.and_eq_true, decide_eq_true_eq, not_and]
  omega

/-- A slice cut just after one of its records. -/
theorem slice_cut {low high : Nat} {before after : List (ConsumerRecord Payload)}
    {r : ConsumerRecord Payload} (h : l.slice low high = before ++ r :: after) :
    l.slice low (r.offset + 1) = before ++ [r] := by
  have hr : r ∈ l.slice low high := by simp [h]
  have hhigh := (mem_slice.mp hr).2.2
  have hinc : (before ++ r :: after).Pairwise fun a b => a.offset < b.offset := by
    rw [← h]
    exact l.increasing.sublist List.filter_sublist
  obtain ⟨-, hafter, hbefore⟩ := List.pairwise_append.mp hinc
  have hcut : l.slice low (r.offset + 1) =
      (l.slice low high).filter fun x => decide (x.offset < r.offset + 1) := by
    simp only [slice, List.filter_filter]
    apply List.filter_congr
    intro x _
    by_cases hx : x.offset < r.offset + 1
    · have : x.offset < high := by omega
      simp [hx, this]
    · simp [hx]
  rw [hcut, h, List.filter_append, List.filter_eq_self.mpr, List.filter_cons_of_pos (by simp),
    List.filter_eq_nil_iff.mpr]
  · intro x hx
    have := (List.pairwise_cons.mp hafter).1 x hx
    simp only [decide_eq_true_eq]
    omega
  · intro x hx
    have := hbefore x hx r List.mem_cons_self
    simp only [decide_eq_true_eq]
    omega

/-- Two adjacent slices are one slice. -/
theorem slice_append {low middle high : Nat} (hlow : low ≤ middle) (hhigh : middle ≤ high) :
    l.slice low middle ++ l.slice middle high = l.slice low high := by
  obtain ⟨beginning, records, increasing, hbegin⟩ := l
  simp only [slice]
  clear hbegin
  induction records with
  | nil => rfl
  | cons r rest ih =>
      obtain ⟨hr, hrest⟩ := List.pairwise_cons.mp increasing
      by_cases hmid : r.offset < middle
      · have : ¬ middle ≤ r.offset := by omega
        have hhigh' : r.offset < high := by omega
        simp only [List.filter_cons, hmid, this, hhigh', decide_true, decide_false,
          Bool.and_true, Bool.false_eq_true, if_false]
        split
        · simp [ih hrest]
        · exact ih hrest
      · -- nothing from `r` on lies below the middle
        have hnone : (r :: rest).filter
            (fun r => decide (low ≤ r.offset) && decide (r.offset < middle)) = [] := by
          apply List.filter_eq_nil_iff.mpr
          intro x hx
          have : middle ≤ x.offset := by
            rcases List.mem_cons.mp hx with rfl | hx
            · omega
            · have := hr x hx
              omega
          simp only [Bool.and_eq_true, decide_eq_true_eq, not_and]
          omega
        rw [hnone, List.nil_append]
        apply List.filter_congr
        intro x hx
        have : middle ≤ x.offset := by
          rcases List.mem_cons.mp hx with rfl | hx
          · omega
          · have := hr x hx
            omega
        have hlow' : low ≤ x.offset := by omega
        simp [this, hlow']

/-- The slice up to just past the next record is that record. -/
theorem slice_nextFrom {position : Nat} {r : ConsumerRecord Payload}
    (h : l.nextFrom position = some r) : l.slice position (r.offset + 1) = [r] := by
  obtain ⟨hr, before, after, hsplit, hbefore⟩ := List.find?_eq_some_iff_append.mp h
  have hinc := l.increasing
  rw [hsplit, List.pairwise_append, List.pairwise_cons] at hinc
  have hposition : position ≤ r.offset := by simpa using hr
  have hleft : before.filter
      (fun x => decide (position ≤ x.offset) && decide (x.offset < r.offset + 1)) = [] := by
    apply List.filter_eq_nil_iff.mpr
    intro x hx
    have := hbefore x hx
    simp only [Bool.not_eq_true', decide_eq_false_iff_not] at this
    simp [this]
  have hright : after.filter
      (fun x => decide (position ≤ x.offset) && decide (x.offset < r.offset + 1)) = [] := by
    apply List.filter_eq_nil_iff.mpr
    intro x hx
    have := hinc.2.1.1 x hx
    have hge : ¬ x.offset < r.offset + 1 := by omega
    simp [hge]
  have hself : (r :: after).filter
      (fun x => decide (position ≤ x.offset) && decide (x.offset < r.offset + 1)) = [r] := by
    rw [List.filter_cons_of_pos, hright]
    rw [decide_eq_true hposition, decide_eq_true (Nat.lt_succ_self _), Bool.and_true]
  rw [slice, hsplit, List.filter_append, hself, hleft, List.nil_append]

/-! ### Contiguous logs -/

theorem Contiguous.endOffset_eq (h : l.Contiguous) :
    l.endOffset = l.beginning + l.records.length := by
  unfold endOffset
  cases hlast : l.records.getLast? with
  | none => simp [List.getLast?_eq_none_iff.mp hlast]
  | some last =>
      obtain ⟨init, hsplit⟩ := List.getLast?_eq_some_iff.mp hlast
      have hlength : l.records.length = init.length + 1 := by simp [hsplit]
      rw [Contiguous, hlength, List.range'_1_concat, hsplit, List.map_append] at h
      have : last.offset = l.beginning + init.length := by
        simpa using (List.append_inj_right' h rfl)
      show last.offset + 1 = _
      omega

/-- Without gaps a slice has as many records as offsets. -/
theorem Contiguous.length_slice (h : l.Contiguous) {low high : Nat} (hlow : l.beginning ≤ low)
    (hle : low ≤ high) (hhigh : high ≤ l.endOffset) : (l.slice low high).length = high - low := by
  rw [h.endOffset_eq] at hhigh
  have hoffsets : (l.slice low high).map ConsumerRecord.offset =
      (List.range' l.beginning l.records.length).filter
        fun x => decide (low ≤ x) && decide (x < high) := by
    rw [← h, List.filter_map]
    rfl
  have hsplit : List.range' l.beginning l.records.length =
      List.range' l.beginning (low - l.beginning) ++ List.range' low (high - low) ++
        List.range' high (l.beginning + l.records.length - high) := by
    have hfirst := List.range'_append_1 (s := l.beginning) (m := low - l.beginning) (n := high - low)
    have hsecond := List.range'_append_1 (s := l.beginning) (m := high - l.beginning)
      (n := l.beginning + l.records.length - high)
    rw [show l.beginning + (low - l.beginning) = low by omega,
      show low - l.beginning + (high - low) = high - l.beginning by omega] at hfirst
    rw [show l.beginning + (high - l.beginning) = high by omega,
      show high - l.beginning + (l.beginning + l.records.length - high) = l.records.length by
        omega] at hsecond
    rw [hfirst, hsecond]
  rw [← List.length_map, hoffsets, hsplit, List.filter_append, List.filter_append,
    List.filter_eq_nil_iff.mpr, List.filter_eq_self.mpr, List.filter_eq_nil_iff.mpr]
  · simp
  · intro x hx
    have := List.mem_range'_1.mp hx
    simp only [Bool.and_eq_true, decide_eq_true_eq]
    omega
  · intro x hx
    have := List.mem_range'_1.mp hx
    simp only [Bool.and_eq_true, decide_eq_true_eq]
    omega
  · intro x hx
    have := List.mem_range'_1.mp hx
    simp only [Bool.and_eq_true, decide_eq_true_eq]
    omega

end PartitionLog

/-- The broker: the partitions of the subscribed topic with their logs, and the
group's committed offsets. -/
structure Broker (Payload : Type) where
  partitions : List TopicPartition
  nodup : partitions.Nodup
  log : TopicPartition → PartitionLog Payload
  committed : TopicPartition → Option Nat

/-- Where a consumer of the group starts: the committed offset, or the earliest
one (`auto.offset.reset`) if there is none. -/
def Broker.startOffset {Payload : Type} (b : Broker Payload) (tp : TopicPartition) : Nat :=
  (b.committed tp).getD (b.log tp).beginning

/-- A record is appended to one partition. -/
def Broker.produce {Payload : Type} (b : Broker Payload) (tp : TopicPartition) (offset : Nat)
    (value : Payload) (h : (b.log tp).endOffset ≤ offset) : Broker Payload :=
  { b with log := Function.update b.log tp ((b.log tp).append offset value h) }

section Produce

variable {Payload : Type} (b : Broker Payload) (tp other : TopicPartition) {offset : Nat}
  {value : Payload} (h : (b.log tp).endOffset ≤ offset)

@[simp] theorem Broker.produce_beginning :
    ((b.produce tp offset value h).log other).beginning = (b.log other).beginning := by
  by_cases hother : other = tp
  · subst hother
    simp [produce]
  · simp [produce, hother]

@[simp] theorem Broker.produce_startOffset :
    (b.produce tp offset value h).startOffset = b.startOffset := by
  funext other
  rw [startOffset, produce_beginning]
  rfl

theorem Broker.le_produce_endOffset :
    (b.log other).endOffset ≤ ((b.produce tp offset value h).log other).endOffset := by
  by_cases hother : other = tp
  · subst hother
    simp only [produce, Function.update_self, PartitionLog.append_endOffset]
    omega
  · simp [produce, hother]

/-- Production changes no slice below the end of a log. -/
theorem Broker.produce_slice {low high : Nat} (hhigh : high ≤ (b.log other).endOffset) :
    ((b.produce tp offset value h).log other).slice low high = (b.log other).slice low high := by
  by_cases hother : other = tp
  · subst hother
    simpa [produce] using PartitionLog.append_slice hhigh
  · simp [produce, hother]

end Produce

/-! ### The offset map of a flush -/

/-- `offsets.merge(partition, offset, max)`. -/
def mergeOffset (tp : TopicPartition) (offset : Nat) :
    List (TopicPartition × Nat) → List (TopicPartition × Nat)
  | [] => [(tp, offset)]
  | (key, left) :: rest =>
      if key = tp then (key, if offset ≤ left then left else offset) :: rest
      else (key, left) :: mergeOffset tp offset rest

section Offsets

variable {Bar : Type}

/-- The offsets `Main.flush` commits: the loop over the batch's entries. -/
def flushOffsets (entries : List (Entry Bar)) : List (TopicPartition × Nat) :=
  entries.foldl (fun offsets entry =>
    if entry.finalBarOfSource then
      mergeOffset entry.source.topicPartition (entry.source.offset + 1) offsets
    else offsets) []

/-- `commitSync(offsets)`, once it has taken effect. -/
def commitSync (offsets : List (TopicPartition × Nat)) (committed : TopicPartition → Option Nat) :
    TopicPartition → Option Nat :=
  fun tp => (offsets.lookup tp).or (committed tp)

/-- The broker applies an offset commit. -/
def Broker.commit {Payload : Type} (b : Broker Payload) (offsets : List (TopicPartition × Nat)) :
    Broker Payload :=
  { b with committed := commitSync offsets b.committed }

@[simp] theorem commitSync_nil (committed : TopicPartition → Option Nat) :
    commitSync [] committed = committed := by
  funext tp
  simp [commitSync]

/-- One past the last record of `tp` whose final entry is among `entries`. -/
def lastFinal (tp : TopicPartition) (entries : List (Entry Bar)) : Option Nat :=
  ((entries.filter fun e => e.finalBarOfSource && decide (e.source.topicPartition = tp)).getLast?).map
    fun e => e.source.offset + 1

theorem lookup_mergeOffset (tp other : TopicPartition) (offset : Nat)
    (offsets : List (TopicPartition × Nat)) :
    (mergeOffset tp offset offsets).lookup other =
      if other = tp then some (max ((offsets.lookup tp).getD 0) offset)
      else offsets.lookup other := by
  induction offsets with
  | nil =>
      by_cases h : other = tp
      · simp [mergeOffset, h]
      · have hbeq : (other == tp) = false := by simpa using h
        simp [mergeOffset, h, List.lookup_cons, hbeq]
  | cons head rest ih =>
      obtain ⟨key, left⟩ := head
      simp only [mergeOffset]
      by_cases hkey : key = tp
      · subst hkey
        by_cases hother : other = key
        · subst hother
          simp only [if_true, List.lookup_cons, beq_self_eq_true, Option.getD_some, Option.some.injEq]
          split <;> omega
        · have hbeq : (other == key) = false := by simpa using hother
          simp [List.lookup_cons, hother, hbeq]
      · rw [if_neg hkey, List.lookup_cons, ih]
        by_cases hother : other = key
        · have : ¬ other = tp := fun h => hkey (hother ▸ h)
          simp [hother, hkey]
        · have hbeq : (other == key) = false := by simpa using hother
          have htp : (tp == key) = false := by simpa using Ne.symm hkey
          simp [List.lookup_cons, hbeq, htp]

theorem lastFinal_append (tp : TopicPartition) (first second : List (Entry Bar)) :
    lastFinal tp (first ++ second) = (lastFinal tp second).or (lastFinal tp first) := by
  simp only [lastFinal, List.filter_append, List.getLast?_append]
  cases (second.filter _).getLast? <;> simp

/-- Source offsets do not decrease inside a partition. -/
def OffsetsOrdered (entries : List (Entry Bar)) : Prop :=
  entries.Pairwise fun a b =>
    a.source.topicPartition = b.source.topicPartition → a.source.offset ≤ b.source.offset

/-- On ordered entries the merged maximum is the last final entry's. -/
theorem lookup_flushOffsets {entries : List (Entry Bar)} (h : OffsetsOrdered entries)
    (tp : TopicPartition) : (flushOffsets entries).lookup tp = lastFinal tp entries := by
  induction entries using List.reverseRecOn with
  | nil => rfl
  | append_singleton entries e ih =>
      obtain ⟨hinit, -, hlast⟩ := List.pairwise_append.mp h
      have ih := ih hinit
      rw [lastFinal_append]
      by_cases hfinal : e.finalBarOfSource = true
      · have hstep : flushOffsets (entries ++ [e]) =
            mergeOffset e.source.topicPartition (e.source.offset + 1) (flushOffsets entries) := by
          simp [flushOffsets, hfinal]
        rw [hstep, lookup_mergeOffset]
        by_cases htp : tp = e.source.topicPartition
        · -- the earlier maximum is at most one past this entry's offset
          subst htp
          have hle : ((flushOffsets entries).lookup e.source.topicPartition).getD 0 ≤
              e.source.offset + 1 := by
            rw [ih]
            simp only [lastFinal]
            cases hl : (entries.filter _).getLast? with
            | none => simp
            | some x =>
                have hx := List.mem_filter.mp (List.mem_of_getLast? hl)
                simp only [Bool.and_eq_true, decide_eq_true_eq] at hx
                have := hlast x hx.1 e (List.mem_singleton_self _) hx.2.2
                simpa using this
          simp [lastFinal, hfinal, Nat.max_eq_right hle]
        · have : ¬ e.source.topicPartition = tp := fun h => htp h.symm
          simp [htp, ih, lastFinal, this]
      · have hstep : flushOffsets (entries ++ [e]) = flushOffsets entries := by
          simp [flushOffsets, hfinal]
        rw [hstep, ih]
        simp [lastFinal, hfinal]

end Offsets

end Lakehouse.Loader
