/-
`producer_task` in any environment.

The task shares the channel, the token and the counters with the rest of the
process. `Producer.Environment` says how little it relies on: nobody else counts
deliveries, the token stays cancelled, a channel without senders gets none. A
`Producer.Run` interleaves its steps with such changes and records the payloads
it takes from the channel.

* `Producer.Accounted`, `Producer.Run.accounted` — the invariant of the loop.
* `Producer.deliveries_accounted` — deliveries in flight are bounded, every
  payload taken is counted once, and the loop ends with nothing in flight.
* `exists_producer_run` — the task of the whole process runs so.
-/

import Lakehouse.Extractor.Accounting

namespace Lakehouse.Extractor

open Channels (Channel)

namespace Producer

/-- What the other tasks may do between two steps of the producer task. -/
structure Environment (w w' : World) : Prop where
  producer : w'.producer = w.producer
  sent : w'.metrics.messages_sent = w.metrics.messages_sent
  failures : w'.metrics.delivery_failures = w.metrics.delivery_failures
  cancelled : w.cancelled = true → w'.cancelled = true
  closed : w.channel.senders = 0 → w'.channel.senders = 0

/-- A run of the task from `start`, with the payloads it has taken from the
channel in order. -/
inductive Run (cfg : Config) (start : World) : List Bytes → World → Prop where
  | start : Run cfg start [] start
  | environment {taken w w'} : Run cfg start taken w → Environment w w' → Run cfg start taken w'
  | pollShutdown {taken w w'} : Run cfg start taken w → pollShutdown w = some w' →
      Run cfg start taken w'
  | pollInflight {taken w w'} (ready : Option (Nat × DeliveryResult)) (now_ms : Int) :
      Run cfg start taken w → pollInflight w ready now_ms = some w' → Run cfg start taken w'
  | pollRecv {taken w w'} : Run cfg start taken w → pollRecv cfg w = some w' →
      Run cfg start (taken ++ w'.producer.pc.enqueueing) w'
  | sendResult {taken w w'} (reply : SendReply) : Run cfg start taken w →
      sendResult cfg w reply = some w' → Run cfg start taken w'

/-- Before the loop: nothing taken, nothing counted. -/
structure Fresh (w : World) : Prop where
  producer : w.producer = Producer.new
  sent : w.metrics.messages_sent = 0
  failures : w.metrics.delivery_failures = 0

/-- The token is cancelled, or every sender of the channel is gone. -/
def Ending (w : World) : Prop := w.cancelled = true ∨ w.channel.senders = 0

/-- The invariant of the loop. -/
structure Accounted (cfg : Config) (taken : List Bytes) (w : World) : Prop where
  payloads : w.producer.finished.map Finished.payload ++ w.producer.pc.enqueueing = taken
  counted : w.metrics.messages_sent + w.metrics.delivery_failures + w.producer.inflight.length =
    w.producer.finished.length
  room : w.producer.inflight.length + w.producer.pc.enqueueing.length ≤ cfg.max_inflight
  draining : w.producer.draining = true → Ending w
  ended : w.producer.pc = .done → Ending w ∧ w.producer.inflight = []

variable {cfg : Config} {taken : List Bytes} {w w' : World}

theorem Fresh.accounted (h : Fresh w) : Accounted cfg [] w := by
  obtain ⟨hproducer, hsent, hfailures⟩ := h
  constructor <;> simp [hproducer, hsent, hfailures, Producer.new, Pc.enqueueing]

namespace Accounted

variable (ha : Accounted cfg taken w)

include ha

theorem environment (h : Environment w w') : Accounted cfg taken w' := by
  have hending : Ending w → Ending w' := Or.imp h.cancelled h.closed
  constructor
  case payloads => rw [h.producer]; exact ha.payloads
  case counted => rw [h.producer, h.sent, h.failures]; exact ha.counted
  case room => rw [h.producer]; exact ha.room
  case draining => rw [h.producer]; exact fun hd => hending (ha.draining hd)
  case ended => rw [h.producer]; exact fun hd => (ha.ended hd).imp_left hending

/-- The loop may be left when it is draining and nothing is in flight. -/
theorem finish (hpc : w.producer.pc.enqueueing = []) (hdraining : w.producer.draining = true)
    (hinflight : w.producer.inflight = []) : Accounted cfg taken (finish w) := by
  have hending : Ending (Producer.finish w) := ha.draining hdraining
  have hpayloads := ha.payloads
  rw [hpc, List.append_nil] at hpayloads
  exact {
    payloads := by simpa [Producer.finish, Pc.enqueueing] using hpayloads
    counted := ha.counted
    room := by simp [Producer.finish, Pc.enqueueing, hinflight]
    draining := fun _ => hending
    ended := fun _ => ⟨hending, hinflight⟩ }

theorem goto {pc : Pc} (hold : w.producer.pc.enqueueing = []) (hnew : pc.enqueueing = [])
    (hpc : pc ≠ .done) : Accounted cfg taken (goto w pc) := by
  have hpayloads := ha.payloads
  have hroom := ha.room
  rw [hold] at hpayloads hroom
  exact {
    payloads := by simpa [Producer.goto, hnew] using hpayloads
    counted := ha.counted
    room := by simpa [Producer.goto, hnew] using hroom
    draining := ha.draining
    ended := fun hdone => absurd hdone hpc }

theorem pollShutdown (h : pollShutdown w = some w') : Accounted cfg taken w' := by
  unfold Producer.pollShutdown at h
  split at h
  · rename_i hpc
    have hnone : w.producer.pc.enqueueing = [] := by rw [hpc]; rfl
    split at h
    · rename_i hdraining
      split at h
      · rename_i hempty
        cases h
        exact ha.finish hnone hdraining (List.isEmpty_iff.mp hempty)
      · cases h
        exact ha.goto hnone rfl (by simp)
    · split at h
      · rename_i hcancelled
        cases h
        exact { ha with draining := fun _ => .inl hcancelled, ended := by simp [hpc] }
      · cases h
        exact ha.goto hnone rfl (by simp)
  · simp at h

theorem pollInflight {ready : Option (Nat × DeliveryResult)} {now_ms : Int}
    (h : pollInflight w ready now_ms = some w') : Accounted cfg taken w' := by
  unfold Producer.pollInflight at h
  split at h
  · rename_i hpc
    have hnone : w.producer.pc.enqueueing = [] := by rw [hpc]; rfl
    split at h
    · rename_i index result
      split at h
      · rename_i hindex
        cases h
        have hlength := List.length_eraseIdx_add_one hindex
        have hpayloads := ha.payloads
        have hroom := ha.room
        rw [hnone] at hpayloads hroom
        have hcounted : Accounted cfg taken (countDelivery w index result now_ms) := by
          constructor
          case payloads => simpa [countDelivery, Pc.enqueueing] using hpayloads
          case counted =>
            have hbefore := ha.counted
            cases result <;>
              simp only [countDelivery, Metrics.sent, Metrics.failed] <;> omega
          case room =>
            simp only [countDelivery, Pc.enqueueing, List.length_nil] at hroom ⊢
            omega
          case draining => exact ha.draining
          case ended => simp [countDelivery]
        unfold breakIfDrained
        split
        · rename_i hlast
          simp only [Bool.and_eq_true, List.isEmpty_iff] at hlast
          exact hcounted.finish rfl hlast.1 hlast.2
        · exact hcounted
      · simp at h
    · cases h
      exact ha.goto hnone rfl (by simp)
  · simp at h

theorem pollRecv (h : pollRecv cfg w = some w') :
    Accounted cfg (taken ++ w'.producer.pc.enqueueing) w' := by
  unfold Producer.pollRecv at h
  split at h
  · rename_i hpc
    have hnone : w.producer.pc.enqueueing = [] := by rw [hpc]; rfl
    have hskip : Accounted cfg (taken ++ (Producer.goto w .pollShutdown).producer.pc.enqueueing)
        (Producer.goto w .pollShutdown) := by
      simpa [Producer.goto, Pc.enqueueing] using ha.goto hnone rfl (by simp : Pc.pollShutdown ≠ .done)
    split at h
    · rename_i hguard
      simp only [Bool.and_eq_true, Bool.not_eq_true', decide_eq_true_eq] at hguard
      split at h
      · rename_i payload channel hrecv
        cases h
        obtain ⟨rest, hitems, _, rfl⟩ := Channel.recv_item hrecv
        have hpayloads := ha.payloads
        rw [hnone, List.append_nil] at hpayloads
        exact {
          payloads := by simp [Producer.goto, Pc.enqueueing, hpayloads]
          counted := ha.counted
          room := by
            simp only [Producer.goto, Pc.enqueueing, List.length_singleton]
            omega
          draining := ha.draining
          ended := by simp [Producer.goto] }
      · cases h
        exact hskip
      · rename_i hrecv
        -- the end of the channel: the task drains from here on
        have hclosed : Ending w := .inr (Channel.recv_closed hrecv).2
        have hdraining : Accounted cfg taken
            { w with producer := { w.producer with draining := true } } :=
          { ha with draining := fun _ => hclosed, ended := by simp [hpc] }
        dsimp only at h
        split at h
        · rename_i hempty
          cases h
          simpa [Producer.finish, Pc.enqueueing] using
            hdraining.finish hnone rfl (List.isEmpty_iff.mp hempty)
        · cases h
          simpa [Producer.goto, Pc.enqueueing] using
            hdraining.goto hnone rfl (by simp : Pc.pollShutdown ≠ .done)
    · cases h
      exact hskip
  · simp at h

theorem sendResult {reply : SendReply} (h : sendResult cfg w reply = some w') :
    Accounted cfg taken w' := by
  unfold Producer.sendResult at h
  split at h
  · rename_i payload hpc
    obtain ⟨hpayloads, hcounted, hroom, hdraining, _⟩ := ha
    simp only [hpc, Pc.enqueueing, List.length_singleton] at hpayloads hroom
    cases reply with
    | accepted =>
        cases h
        constructor
        case payloads => simp [Pc.enqueueing, record, hpayloads]
        case counted => simp only [List.length_append, List.length_singleton]; omega
        case room =>
          simp only [List.length_append, List.length_singleton, Pc.enqueueing, List.length_nil]
          omega
        case draining => exact hdraining
        case ended => simp
    | queueFull =>
        cases h
        constructor
        case payloads => simp [Producer.goto, Pc.enqueueing, record, hpayloads]
        case counted => exact hcounted
        case room => simpa [Producer.goto, Pc.enqueueing] using hroom
        case draining => exact hdraining
        case ended => simp [Producer.goto]
    | failed e =>
        cases h
        constructor
        case payloads => simp [Pc.enqueueing, record, hpayloads]
        case counted =>
          simp only [Metrics.failed, List.length_append, List.length_singleton]
          omega
        case room => simp only [Pc.enqueueing, List.length_nil]; omega
        case draining => exact hdraining
        case ended => simp
  · simp at h

end Accounted

theorem Run.accounted {start : World} (hstart : Fresh start) (hrun : Run cfg start taken w) :
    Accounted cfg taken w := by
  induction hrun with
  | start => exact hstart.accounted
  | environment _ h ih => exact ih.environment h
  | pollShutdown _ h ih => exact ih.pollShutdown h
  | pollInflight ready now_ms _ h ih => exact ih.pollInflight h
  | pollRecv _ h ih => exact ih.pollRecv h
  | sendResult reply _ h ih => exact ih.sendResult h

/-- In any environment: at most `max_inflight` deliveries are in flight; every
payload taken from the channel is counted as sent or failed, in flight, or
inside `enqueue`; the loop does not end before the token is cancelled or the
channel closed; and when it ends nothing is in flight, so that the counters
count every payload taken once. -/
theorem deliveries_accounted {start : World} (hstart : Fresh start)
    (hrun : Run cfg start taken w) :
    w.producer.inflight.length ≤ cfg.max_inflight ∧
    w.metrics.messages_sent + w.metrics.delivery_failures + w.producer.inflight.length +
      w.producer.pc.enqueueing.length = taken.length ∧
    (w.producer.pc = .done →
      (w.cancelled = true ∨ w.channel.senders = 0) ∧ w.producer.inflight = [] ∧
      w.producer.finished.map Finished.payload = taken ∧
      w.metrics.messages_sent + w.metrics.delivery_failures = taken.length) := by
  have ha := hrun.accounted hstart
  have hlength := congrArg List.length ha.payloads
  rw [List.length_append, List.length_map] at hlength
  have hcounted := ha.counted
  have hroom := ha.room
  refine ⟨by omega, by omega, ?_⟩
  intro hdone
  obtain ⟨hending, hinflight⟩ := ha.ended hdone
  have hpayloads := ha.payloads
  simp only [hdone, Pc.enqueueing, List.append_nil, List.length_nil] at hpayloads hlength
  rw [hinflight, List.length_nil] at hcounted
  exact ⟨hending, hinflight, hpayloads, by omega⟩

end Producer

/-! ### The task in the whole process -/

variable {cfg : Config} {w w' : World}

theorem Ws.Frame.environment (h : Ws.Frame w w') : Producer.Environment w w' where
  producer := h.producer
  sent := h.sent
  failures := h.failures
  cancelled hc := by rw [h.cancelled]; exact hc
  closed hclosed := Nat.eq_zero_of_le_zero (hclosed ▸ h.senders)

theorem Main.Frame.environment (h : Main.Frame w w') : Producer.Environment w w' where
  producer := h.producer
  sent := by rw [h.metrics]
  failures := by rw [h.metrics]
  cancelled := h.cancelled
  closed hclosed := Nat.eq_zero_of_le_zero (hclosed ▸ h.senders)

/-- A step of the process is a step of the producer task, or one it relies on. -/
theorem Producer.Run.process_step {taken : List Bytes} {start : World}
    (hrun : Producer.Run cfg start taken w) {a : Action} (h : step cfg w a = some w') :
    ∃ taken', Producer.Run cfg start taken' w' := by
  obtain ⟨_, hf⟩ | ⟨hproducer, _⟩ | hf | htorn := step_cases h
  · exact ⟨taken, hrun.environment hf.environment⟩
  · cases a with
    | prodPollShutdown => exact ⟨_, hrun.pollShutdown h⟩
    | prodPollInflight ready now_ms => exact ⟨_, hrun.pollInflight ready now_ms h⟩
    | prodPollRecv => exact ⟨_, hrun.pollRecv h⟩
    | sendResult reply => exact ⟨_, hrun.sendResult reply h⟩
    | _ => simp [Action.ofProducer] at hproducer
  · exact ⟨taken, hrun.environment hf.toFrame.environment⟩
  · exact ⟨taken, hrun.environment htorn.frame.environment⟩

/-- In the whole process the producer task runs as it does in any environment. -/
theorem exists_producer_run (h : (system cfg).Reachable w) :
    ∃ taken, Producer.Run cfg (World.new cfg) taken w := by
  induction h with
  | init hinit =>
      obtain rfl := hinit
      exact ⟨[], .start⟩
  | step _ hstep ih =>
      obtain ⟨taken, hrun⟩ := ih
      exact hrun.process_step hstep

/-- One frame goes to Kafka and is acknowledged after the token has fired. -/
def oneDeliveryRun : List Action :=
  [.startAttempt, .setup (.ok ()),
   .wsPollShutdown, .wsPollRead (some (.message (.binary [1]))) 1, .send,
   .prodPollShutdown, .prodPollInflight none 1, .prodPollRecv, .sendResult .accepted,
   .signal, .prodPollShutdown, .prodPollShutdown, .prodPollInflight (some (0, .delivered)) 2]

theorem oneDeliveryRun_accounted : ∃ w taken,
    Producer.Run sampleConfig (World.new sampleConfig) taken w ∧ w.producer.pc = .done ∧
      w.producer.inflight = [] ∧ taken.length = 1 := by
  obtain ⟨w, hrun, hdone, hsent, hfailed⟩ : ∃ w,
      (system sampleConfig).run (World.new sampleConfig) oneDeliveryRun = some w ∧
        w.producer.pc = .done ∧ w.metrics.messages_sent = 1 ∧ w.metrics.delivery_failures = 0 :=
    ⟨_, rfl, rfl, rfl, rfl⟩
  obtain ⟨taken, htaken⟩ := exists_producer_run (.of_run (.init rfl) hrun)
  obtain ⟨_, _, hended⟩ := Producer.deliveries_accounted ⟨rfl, rfl, rfl⟩ htaken
  obtain ⟨_, hinflight, _, hcount⟩ := hended hdone
  rw [hsent, hfailed] at hcount
  exact ⟨w, taken, htaken, hdone, hinflight, hcount.symm⟩

end Lakehouse.Extractor
