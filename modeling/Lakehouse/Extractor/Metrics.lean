/-
`metrics.rs`: the counters every task of the extractor shares.

The counters are relaxed atomics that only grow, so a step of a task is one
update of this record. Times are milliseconds since the epoch; `0` stands for
"never", as in the source.
-/

namespace Lakehouse.Extractor

structure Metrics where
  messages_received : Nat
  messages_sent : Nat
  delivery_failures : Nat
  errors : Nat
  last_message_ts : Int
  last_delivery_ts : Int
  connection_status : Bool
deriving DecidableEq, Repr

namespace Metrics

/-- `Metrics::new`. -/
def new : Metrics := ⟨0, 0, 0, 0, 0, 0, false⟩

/-- `forward` counts the frame and touches the time of the last message. -/
def received (m : Metrics) (now_ms : Int) : Metrics :=
  { m with messages_received := m.messages_received + 1, last_message_ts := now_ms }

/-- An acknowledged delivery. -/
def sent (m : Metrics) (now_ms : Int) : Metrics :=
  { m with messages_sent := m.messages_sent + 1, last_delivery_ts := now_ms }

/-- A failed or cancelled delivery, or a send that failed synchronously. -/
def failed (m : Metrics) : Metrics := { m with delivery_failures := m.delivery_failures + 1 }

/-- A transient error of an attempt. -/
def error (m : Metrics) : Metrics := { m with errors := m.errors + 1 }

def connected (m : Metrics) (status : Bool) : Metrics := { m with connection_status := status }

/-- The watchdog's test: no data message for `idle_ms`, counted from its start
as long as there has been none. -/
def idle (m : Metrics) (start_ms idle_ms now_ms : Int) : Bool :=
  let baseline := if m.last_message_ts = 0 then start_ms else m.last_message_ts
  decide (idle_ms ≤ now_ms - baseline)

end Metrics

end Lakehouse.Extractor
