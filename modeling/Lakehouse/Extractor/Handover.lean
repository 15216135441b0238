/-
Handing frames from one task to another.

The abstract view of the extractor: one task reads payloads and offers them to
a bounded channel, the other takes them out, hands each to the network and
waits for its answer. A payload read is in exactly one of six places, in
reading order: finished with, being handed over, in the channel, waiting to be
sent, thrown away with the channel, or refused by the closed channel.

* `Handover.Sound` — the invariant, preserved by `Handover.Sound.step`.
* `Handover.Sound.open_stream` — as long as the channel is received from,
  nothing is thrown away.
* `Handover.Sound.closed_count` — once it is not, every payload read is settled,
  thrown away or refused, and counted once.
-/

import Mathlib.Logic.Relation

namespace Lakehouse.Extractor

structure Handover (α : Type) where
  capacity : Nat
  read : List α
  received : Nat
  /-- Waiting to be sent into the channel; at most one. -/
  forwarding : List α
  refused : List α
  items : List α
  receiving : Bool
  /-- Taken from the channel and being handed over; at most one. -/
  enqueueing : List α
  finished : List α
  inflight : Nat
  settled : Nat
  discarded : List α

namespace Handover

variable {α : Type}

inductive Step : Handover α → Handover α → Prop where
  | read {h} (x : α) : h.forwarding = [] → h.refused = [] →
      Step h { h with read := h.read ++ [x], received := h.received + 1, forwarding := [x] }
  | send {h x} : h.forwarding = [x] → h.receiving = true → h.items.length < h.capacity →
      Step h { h with forwarding := [], items := h.items ++ [x] }
  | refuse {h x} : h.forwarding = [x] → h.receiving = false →
      Step h { h with forwarding := [], refused := h.refused ++ [x] }
  | take {h x rest} : h.enqueueing = [] → h.items = x :: rest →
      Step h { h with enqueueing := [x], items := rest }
  | accept {h x} : h.enqueueing = [x] →
      Step h { h with enqueueing := [], finished := h.finished ++ [x], inflight := h.inflight + 1 }
  | fail {h x} : h.enqueueing = [x] →
      Step h { h with enqueueing := [], finished := h.finished ++ [x], settled := h.settled + 1 }
  | settle {h n} : h.inflight = n + 1 →
      Step h { h with inflight := n, settled := h.settled + 1 }
  | stop {h} : h.receiving = true → h.enqueueing = [] → h.inflight = 0 →
      Step h { h with receiving := false, discarded := h.items, items := [] }

structure Sound (h : Handover α) : Prop where
  stream : h.finished ++ (h.enqueueing ++ (h.items ++ (h.discarded ++ (h.refused ++ h.forwarding))))
    = h.read
  received : h.received = h.read.length
  settled : h.settled + h.inflight = h.finished.length
  bounded : h.items.length ≤ h.capacity ∧ h.discarded.length ≤ h.capacity
  refused : h.refused.length ≤ 1 ∧ (h.refused ≠ [] → h.forwarding = [])
  isOpen : h.receiving = true → h.discarded = [] ∧ h.refused = []
  isClosed : h.receiving = false → h.enqueueing = [] ∧ h.items = [] ∧ h.inflight = 0

/-- Nothing read yet. -/
theorem sound_empty (capacity : Nat) :
    Sound (⟨capacity, [], 0, [], [], [], true, [], [], 0, 0, []⟩ : Handover α) := by
  constructor <;> simp

theorem Sound.step {h next : Handover α} (hs : h.Sound) (hstep : Step h next) : next.Sound := by
  have hstream := hs.stream
  cases hstep with
  | read x hforwarding hrefused =>
      refine { hs with stream := ?_, received := ?_, refused := ?_ }
      · rw [← hstream, hforwarding, hrefused]
        simp
      · simp [hs.received]
      · simp [hrefused]
  | send hforwarding hreceiving hroom =>
      obtain ⟨hdiscarded, hrefused⟩ := hs.isOpen hreceiving
      refine { hs with stream := ?_, bounded := ?_, refused := ?_, isClosed := ?_ }
      · simpa [hforwarding, hdiscarded, hrefused] using hstream
      · refine ⟨?_, hs.bounded.2⟩
        rw [List.length_append, List.length_singleton]
        exact hroom
      · simp [hrefused]
      · simp [hreceiving]
  | refuse hforwarding hreceiving =>
      have hnone : h.refused = [] := by
        cases hrefused : h.refused with
        | nil => rfl
        | cons y rest => simpa [hforwarding] using hs.refused.2 (by simp [hrefused])
      refine { hs with stream := ?_, refused := ?_, isOpen := ?_ }
      · simpa [hforwarding] using hstream
      · simp [hnone]
      · simp [hreceiving]
  | take henqueueing hitems =>
      refine { hs with stream := ?_, bounded := ?_, isClosed := ?_ }
      · simpa [henqueueing, hitems] using hstream
      · have hlength := hs.bounded.1
        rw [hitems, List.length_cons] at hlength
        exact ⟨Nat.le_of_succ_le hlength, hs.bounded.2⟩
      · intro hreceiving
        simpa [hitems] using (hs.isClosed hreceiving).2.1
  | accept henqueueing =>
      refine { hs with stream := ?_, settled := ?_, isClosed := ?_ }
      · simpa [henqueueing] using hstream
      · simp only [List.length_append, List.length_singleton, ← hs.settled]
        omega
      · intro hreceiving
        simpa [henqueueing] using (hs.isClosed hreceiving).1
  | fail henqueueing =>
      refine { hs with stream := ?_, settled := ?_, isClosed := ?_ }
      · simpa [henqueueing] using hstream
      · simp only [List.length_append, List.length_singleton, ← hs.settled]
        omega
      · intro hreceiving
        simpa [henqueueing] using (hs.isClosed hreceiving).1
  | settle hinflight =>
      refine { hs with settled := ?_, isClosed := ?_ }
      · rw [← hs.settled, hinflight]
        exact Nat.succ_add_eq_add_succ _ _
      · intro hreceiving
        simpa [hinflight] using (hs.isClosed hreceiving).2.2
  | stop hreceiving henqueueing hinflight =>
      obtain ⟨hdiscarded, hrefused⟩ := hs.isOpen hreceiving
      refine { hs with stream := ?_, bounded := ?_, isOpen := ?_, isClosed := ?_ }
      · simpa [hdiscarded] using hstream
      · exact ⟨Nat.zero_le _, hs.bounded.1⟩
      · simp
      · exact fun _ => ⟨henqueueing, rfl, hinflight⟩

theorem Sound.of_reaches {h next : Handover α} (hs : h.Sound)
    (hrun : Relation.ReflTransGen Step h next) : next.Sound := by
  induction hrun with
  | refl => exact hs
  | tail _ hstep ih => exact ih.step hstep

theorem capacity_of_reaches {h next : Handover α} (hrun : Relation.ReflTransGen Step h next) :
    next.capacity = h.capacity := by
  induction hrun with
  | refl => rfl
  | tail _ hstep ih => cases hstep <;> exact ih

/-- While the channel is received from, the payloads read are, in order, those
finished with, handed over, in the channel and waiting. -/
theorem Sound.open_stream {h : Handover α} (hs : h.Sound) (hreceiving : h.receiving = true) :
    h.finished ++ h.enqueueing ++ h.items ++ h.forwarding = h.read := by
  obtain ⟨hdiscarded, hrefused⟩ := hs.isOpen hreceiving
  simpa [hdiscarded, hrefused] using hs.stream

/-- Once the channel is not received from and nothing waits, every payload read
is settled, thrown away with the channel, or refused. -/
theorem Sound.closed_count {h : Handover α} (hs : h.Sound) (hreceiving : h.receiving = false)
    (hforwarding : h.forwarding = []) :
    h.received = h.settled + h.discarded.length + h.refused.length ∧
      h.finished ++ h.discarded ++ h.refused = h.read := by
  obtain ⟨henqueueing, hitems, hinflight⟩ := hs.isClosed hreceiving
  have hstream := hs.stream
  rw [henqueueing, hitems, hforwarding, List.nil_append, List.nil_append, List.append_nil] at hstream
  refine ⟨?_, by simpa using hstream⟩
  have hsettled := hs.settled
  rw [hs.received, ← hstream, List.length_append, List.length_append]
  omega

end Handover

end Lakehouse.Extractor
