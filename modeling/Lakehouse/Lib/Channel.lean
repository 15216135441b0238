/-
A bounded first-in first-out channel with counted senders and one receiver.

The channel closes from either side: after the receiver is gone a send is
refused, after the last sender is gone a receive on the empty channel reports
the end. Between those, a send waits while the channel is full and a receive
waits while it is empty.

* `send`, `recv` — the two operations with their three answers each.
* `send_sent`, `recv_item` — a sent item is the newest, a received item the
  oldest, and nothing else moves.
* `dropReceiver` — the items nobody will receive any more.
-/

namespace Channels

universe u

/-- The items in transit, oldest first. -/
structure Channel (α : Type u) where
  capacity : Nat
  items : List α
  bounded : items.length ≤ capacity
  senders : Nat
  receiving : Bool

namespace Channel

variable {α : Type u}

/-- An empty channel. -/
def create (capacity senders : Nat) : Channel α :=
  ⟨capacity, [], Nat.zero_le _, senders, true⟩

inductive SendReply (α : Type u) where
  | sent (c : Channel α)
  | full
  | closed

/-- Offer an item. -/
def send (c : Channel α) (x : α) : SendReply α :=
  if c.receiving then
    if h : c.items.length < c.capacity then
      .sent { c with
        items := c.items ++ [x]
        bounded := by simp only [List.length_append, List.length_singleton]; omega }
    else .full
  else .closed

inductive RecvReply (α : Type u) where
  | item (x : α) (c : Channel α)
  | empty
  | closed

/-- Take the oldest item. -/
def recv (c : Channel α) : RecvReply α :=
  match h : c.items with
  | x :: rest =>
      .item x { c with
        items := rest
        bounded := by have := c.bounded; simp only [h, List.length_cons] at this; omega }
  | [] => if c.senders = 0 then .closed else .empty

/-- The receiver goes away, and the items in transit with it. -/
def dropReceiver (c : Channel α) : Channel α :=
  { c with items := [], bounded := Nat.zero_le _, receiving := false }

def dropSender (c : Channel α) : Channel α := { c with senders := c.senders - 1 }

variable {c next : Channel α} {x : α}

theorem send_sent (h : c.send x = .sent next) :
    c.receiving = true ∧ c.items.length < c.capacity ∧
      ∃ hbounded, next = { c with items := c.items ++ [x], bounded := hbounded } := by
  unfold send at h
  split at h
  · rename_i hreceiving
    split at h
    · rename_i hroom
      cases h
      exact ⟨hreceiving, hroom, _, rfl⟩
    · simp at h
  · simp at h

theorem send_closed (h : c.send x = .closed) : c.receiving = false := by
  unfold send at h
  split at h
  · split at h <;> simp at h
  · simp_all

theorem recv_item (h : c.recv = .item x next) :
    ∃ rest, c.items = x :: rest ∧ ∃ hbounded, next = { c with items := rest, bounded := hbounded } := by
  unfold recv at h
  split at h
  · rename_i hitems
    cases h
    exact ⟨_, hitems, _, rfl⟩
  · split at h <;> simp at h

/-- The end is reported only when nothing is in transit. -/
theorem recv_closed (h : c.recv = .closed) : c.items = [] ∧ c.senders = 0 := by
  unfold recv at h
  split at h
  · simp at h
  · rename_i hitems
    split at h
    · exact ⟨hitems, by assumption⟩
    · simp at h

end Channel

end Channels
