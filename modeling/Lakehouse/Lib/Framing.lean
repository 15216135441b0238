/-
Streams of frames cut into bounded chunks.

A producer hands over *frames* (finite lists, possibly empty); their items are
laid end to end in one stream, and the stream is cut into chunks of a fixed
size without regard to frame boundaries. This module has the general facts
about such a pipeline:

* `fill` — feed items into a buffer and cut off a chunk each time it is full;
  `fill_flatten` (nothing lost, nothing reordered), `fill_chunk_length`,
  `fill_buffer_length`.
* `exists_cut` — wherever the stream is cut, the part before the cut is some
  whole frames followed by a proper prefix of the next one.
* `MarksEnd` — a predicate true of exactly the last item of a frame;
  `MarksEnd.filter_eq`, `MarksEnd.filter_prefix` — the marked items of a whole
  frame and of a cut one.
* `sum_filter_flatMap_le`, `sum_filter_flatMap_eq`, `sum_filter_length` — the
  frames of a list sorted by a key, as multisets of items and as numbers of frames.
-/

import Mathlib.Algebra.BigOperators.Group.Finset.Piecewise
import Mathlib.Algebra.GroupWithZero.Nat
import Mathlib.Algebra.Order.Group.Multiset
import Mathlib.Data.List.Dedup

namespace Framing

variable {α : Type*}

/-! ### Chunks of a fixed size -/

/-- Append items one at a time to `buffer`, cutting off the buffer as a chunk
whenever it has `size` items. Returns the last buffer and the chunks in order. -/
def fill (size : Nat) : List α → List α → List α × List (List α)
  | buffer, [] => (buffer, [])
  | buffer, x :: xs =>
      if (buffer ++ [x]).length = size then
        ((fill size [] xs).1, (buffer ++ [x]) :: (fill size [] xs).2)
      else fill size (buffer ++ [x]) xs

@[simp] theorem fill_nil (size : Nat) (buffer : List α) : fill size buffer [] = (buffer, []) := rfl

/-- The chunks followed by the last buffer are the items in order. -/
theorem fill_flatten (size : Nat) (buffer xs : List α) :
    (fill size buffer xs).2.flatten ++ (fill size buffer xs).1 = buffer ++ xs := by
  induction xs generalizing buffer with
  | nil => simp
  | cons x xs ih =>
      simp only [fill]
      split
      · simp only [List.flatten_cons, List.append_assoc]
        rw [ih []]
        simp
      · rw [ih (buffer ++ [x])]
        simp

/-- Every chunk has exactly `size` items. -/
theorem fill_chunk_length {size : Nat} {buffer xs chunk : List α}
    (h : chunk ∈ (fill size buffer xs).2) : chunk.length = size := by
  induction xs generalizing buffer with
  | nil => simp at h
  | cons x xs ih =>
      simp only [fill] at h
      split at h
      · rename_i hfull
        rcases List.mem_cons.mp h with rfl | h
        · exact hfull
        · exact ih h
      · exact ih h

/-- The buffer never reaches `size`. -/
theorem fill_buffer_length {size : Nat} (hsize : 0 < size) {buffer xs : List α}
    (h : buffer.length < size) : (fill size buffer xs).1.length < size := by
  induction xs generalizing buffer with
  | nil => exact h
  | cons x xs ih =>
      simp only [fill]
      split
      · exact ih hsize
      · rename_i hopen
        apply ih
        simp only [List.length_append, List.length_singleton] at hopen ⊢
        omega

/-! ### Cutting a stream of frames -/

/-- Cut the concatenation of `frames` anywhere: the part before the cut is some
whole frames `done` and a proper prefix `part` of the next frame, if any. -/
theorem exists_cut {before after : List α} {frames : List (List α)}
    (h : before ++ after = frames.flatten) :
    ∃ done rest part, frames = done ++ rest ∧ before = done.flatten ++ part ∧
      (part = [] ∧ rest = [] ∨
        ∃ frame tail, rest = frame :: tail ∧ part <+: frame ∧ part.length < frame.length) := by
  induction frames generalizing before with
  | nil =>
      simp only [List.flatten_nil, List.append_eq_nil_iff] at h
      exact ⟨[], [], [], rfl, by simp [h.1], Or.inl ⟨rfl, rfl⟩⟩
  | cons frame frames ih =>
      rw [List.flatten_cons] at h
      by_cases hlen : frame.length ≤ before.length
      · -- the whole frame lies before the cut
        obtain ⟨before', rfl⟩ : frame <+: before :=
          List.prefix_of_prefix_length_le (List.prefix_append frame frames.flatten)
            (h ▸ List.prefix_append before after) hlen
        rw [List.append_assoc, List.append_cancel_left_eq] at h
        obtain ⟨done, rest, part, hframes, hbefore, hpart⟩ := ih h
        exact ⟨frame :: done, rest, part, by simp [hframes], by simp [hbefore], hpart⟩
      · have hlt : before.length < frame.length := by omega
        have hpre : before <+: frame :=
          List.prefix_of_prefix_length_le (h ▸ List.prefix_append before after)
            (List.prefix_append frame frames.flatten) (Nat.le_of_lt hlt)
        exact ⟨[], frame :: frames, before, rfl, by simp,
          Or.inr ⟨frame, frames, rfl, hpre, hlt⟩⟩

/-! ### Marks at the end of a frame -/

/-- `mark` is true of the last item of the frame and of no other. -/
def MarksEnd (mark : α → Bool) : List α → Prop
  | [] => True
  | [x] => mark x = true
  | x :: y :: rest => mark x = false ∧ MarksEnd mark (y :: rest)

/-- The marked items of a frame: its last item, if it has one. -/
theorem MarksEnd.filter_eq {mark : α → Bool} {frame : List α} (h : MarksEnd mark frame) :
    frame.filter mark = frame.getLast?.toList := by
  induction frame with
  | nil => rfl
  | cons x rest ih =>
      cases rest with
      | nil => simpa [MarksEnd] using h
      | cons y rest =>
          obtain ⟨hx, hrest⟩ := h
          rw [List.filter_cons_of_neg (by simp [hx]), ih hrest, List.getLast?_cons_cons]

/-- A proper prefix of a frame holds no mark. -/
theorem MarksEnd.filter_prefix {mark : α → Bool} {frame part : List α} (h : MarksEnd mark frame)
    (hpre : part <+: frame) (hlt : part.length < frame.length) : part.filter mark = [] := by
  induction part generalizing frame with
  | nil => rfl
  | cons x part ih =>
      obtain ⟨rest, rfl⟩ := hpre
      cases part with
      | nil =>
          cases rest with
          | nil => simp at hlt
          | cons y rest => simp [h.1]
      | cons y part =>
          obtain ⟨hx, hrest⟩ := h
          rw [List.filter_cons_of_neg (by simp [hx])]
          exact ih hrest ⟨rest, rfl⟩ (by simpa using hlt)

/-! ### Frames sorted by a key -/

section Keys

variable {ι β : Type*} [DecidableEq ι]

theorem filter_flatMap_cons (key : α → ι) (items : α → List β) (x : α) (xs : List α) (k : ι) :
    ((((x :: xs).filter fun x => decide (key x = k)).flatMap items : List β) : Multiset β) =
      (if key x = k then (items x : Multiset β) else 0) +
        ((xs.filter fun x => decide (key x = k)).flatMap items : List β) := by
  by_cases hk : key x = k <;> simp [hk]

/-- Each frame has one key, so the items found under any set of keys are among
all items, with multiplicity. -/
theorem sum_filter_flatMap_le (key : α → ι) (items : α → List β) (keys : Finset ι) (xs : List α) :
    ∑ k ∈ keys, (((xs.filter fun x => decide (key x = k)).flatMap items : List β) : Multiset β) ≤
      (xs.flatMap items : List β) := by
  induction xs with
  | nil => simp
  | cons x xs ih =>
      rw [Finset.sum_congr rfl fun k _ => filter_flatMap_cons key items x xs k,
        Finset.sum_add_distrib, Finset.sum_ite_eq, List.flatMap_cons, ← Multiset.coe_add]
      refine add_le_add ?_ ih
      split
      · exact le_refl _
      · exact Multiset.zero_le _

/-- If every key is among them, all items are found. -/
theorem sum_filter_flatMap_eq {key : α → ι} (items : α → List β) {keys : Finset ι} {xs : List α}
    (h : ∀ x ∈ xs, key x ∈ keys) :
    ∑ k ∈ keys, (((xs.filter fun x => decide (key x = k)).flatMap items : List β) : Multiset β) =
      (xs.flatMap items : List β) := by
  induction xs with
  | nil => simp
  | cons x xs ih =>
      rw [Finset.sum_congr rfl fun k _ => filter_flatMap_cons key items x xs k,
        Finset.sum_add_distrib, Finset.sum_ite_eq, if_pos (h x List.mem_cons_self),
        ih fun y hy => h y (List.mem_cons_of_mem _ hy), List.flatMap_cons, ← Multiset.coe_add]

/-- If every key is listed once, every frame is counted once. -/
theorem sum_filter_length (key : α → ι) {keys : List ι} (hkeys : keys.Nodup) {xs : List α}
    (h : ∀ x ∈ xs, key x ∈ keys) :
    (keys.map fun k => (xs.filter fun x => decide (key x = k)).length).sum = xs.length := by
  rw [← List.sum_toFinset _ hkeys]
  induction xs with
  | nil => simp
  | cons x xs ih =>
      have hsplit : ∀ k, ((x :: xs).filter fun x => decide (key x = k)).length =
          (if key x = k then 1 else 0) + (xs.filter fun x => decide (key x = k)).length := by
        intro k
        by_cases hk : key x = k <;> simp [hk, Nat.add_comm]
      have hx : key x ∈ keys.toFinset := List.mem_toFinset.mpr (h x List.mem_cons_self)
      rw [Finset.sum_congr rfl fun k _ => hsplit k, Finset.sum_add_distrib, Finset.sum_ite_eq,
        if_pos hx, ih fun y hy => h y (List.mem_cons_of_mem _ hy), List.length_cons, Nat.add_comm]

end Keys

end Framing
