/-
Every frame of the extractor is accounted for.

`World.handover` forgets the control state of the tasks: what is left is a
`Handover`. Every step of the process is some steps of that machine
(`step_refines`), so its invariant holds in every reachable world.

* `frames_in_order` — until the producer task drops its receiver, the frames
  read are in order those finished, enqueued, in the channel and in `forward`.
* `final_metrics_account` — in the `final metrics` snapshot every frame received
  is counted as sent or failed, or was thrown away with the channel, or refused.
* `frameAtShutdownRun_lost` — a run that throws a frame away.
-/

import Lakehouse.Extractor.Handover
import Lakehouse.Extractor.Frame

namespace Lakehouse.Extractor

open Channels (Channel)
open Relation (ReflTransGen)

/-! ### The hand-over of a world -/

/-- The payload waiting in `forward`. -/
def Ws.Pc.forwarded : Ws.Pc → List Bytes
  | .forwarding bytes => [bytes]
  | _ => []

/-- The payload `enqueue` is working on. -/
def Producer.Pc.enqueueing : Producer.Pc → List Bytes
  | .enqueue payload => [payload]
  | _ => []

def World.handover (w : World) : Handover Bytes where
  capacity := w.channel.capacity
  read := w.ws.read.filterMap Ws.Message.payload?
  received := w.metrics.messages_received
  forwarding := w.ws.pc.forwarded
  refused := w.ws.refused
  items := w.channel.items
  receiving := w.channel.receiving
  enqueueing := w.producer.pc.enqueueing
  finished := w.producer.finished.map Producer.Finished.payload
  inflight := w.producer.inflight.length
  settled := w.metrics.messages_sent + w.metrics.delivery_failures
  discarded := w.producer.discarded

/-- The result of `run` that `main` holds. -/
def MainPc.returned : MainPc → Option Ws.Result
  | .running => none
  | .cancelling result | .closing result | .joining result => some result
  | .flushing result | .reporting result => some result
  | .exited (.ok result) => some result
  | .exited (.error _) => none

/-- `main` has joined the tasks. -/
def MainPc.joined : MainPc → Bool
  | .flushing _ | .reporting _ | .exited (.ok _) => true
  | _ => false

/-- The control states that go together. -/
structure Coherent (w : World) : Prop where
  done_iff : w.producer.pc = .done ↔ w.channel.receiving = false
  refused : w.ws.refused ≠ [] → w.ws.pc = .attemptEnded Ws.channelClosed ∨
    w.ws.pc = .done Ws.channelClosed
  returned : ∀ result, w.main.returned = some result → w.ws.pc = .done result
  joined : w.main.joined = true → w.producer.pc = .done
  final : ∀ m, w.final = some m → m = w.metrics ∧ ∃ result, w.main = .exited (.ok result)

variable {cfg : Config} {w w' : World}

theorem Coherent.receiving (hc : Coherent w) (hpc : w.producer.pc ≠ .done) :
    w.channel.receiving = true := by
  cases hr : w.channel.receiving with
  | true => rfl
  | false => exact absurd (hc.done_iff.mpr hr) hpc

/-! ### The ws task -/

namespace Ws

theorem handover_goto {pc : Pc} (hold : w.ws.pc.forwarded = []) (hnew : pc.forwarded = []) :
    (goto w pc).handover = w.handover := by
  simp [World.handover, goto, hold, hnew]

theorem startAttempt_handover (h : startAttempt w = some w') : w'.handover = w.handover := by
  unfold startAttempt at h
  split at h
  · rename_i hpc
    cases h
    simp [World.handover, hpc, Pc.forwarded]
  · simp at h

theorem setup_handover {outcome : Result} (h : setup w outcome = some w') :
    w'.handover = w.handover := by
  unfold setup at h
  split at h
  · rename_i hpc
    split at h
    · cases h
      simp [World.handover, hpc, Pc.forwarded, Metrics.connected]
    · cases h
      exact handover_goto (by rw [hpc]; rfl) rfl
  · simp at h

theorem pollShutdown_handover (h : pollShutdown w = some w') : w'.handover = w.handover := by
  unfold pollShutdown at h
  split at h
  · rename_i hpc
    cases h
    exact handover_goto (by rw [hpc]; rfl) (by split <;> rfl)
  · simp at h

theorem pollTimer_handover {elapsed : Bool} (h : pollTimer cfg w elapsed = some w') :
    w'.handover = w.handover := by
  unfold pollTimer at h
  split at h
  · rename_i hpc
    cases h
    exact handover_goto (by rw [hpc]; rfl) (by split <;> rfl)
  · simp at h

theorem close_handover (h : close w = some w') : w'.handover = w.handover := by
  unfold close at h
  split at h
  · rename_i result hpc
    cases h
    exact handover_goto (by rw [hpc]; rfl) rfl
  · simp at h

theorem endAttempt_handover (h : endAttempt cfg w = some w') : w'.handover = w.handover := by
  unfold endAttempt at h
  split at h
  · rename_i result hpc
    -- the reset of the attempt counter touches no frame
    have hread : ∀ ws : Ws, (if w.ws.connected then { w.ws with backoff := 1, attempt := 0 }
        else w.ws) = ws → ws.read = w.ws.read ∧ ws.refused = w.ws.refused := by
      rintro ws rfl
      split <;> exact ⟨rfl, rfl⟩
    generalize hws : (if w.ws.connected then { w.ws with backoff := 1, attempt := 0 } else w.ws) =
      ws at h
    obtain ⟨hread, hrefused⟩ := hread ws hws
    dsimp only at h
    split at h
    · cases h
      simp [World.handover, finish, Channel.dropSender, hpc, Pc.forwarded, hread, hrefused,
        Metrics.connected]
    · cases h
      simp [World.handover, finish, Channel.dropSender, hpc, Pc.forwarded, hread, hrefused,
        Metrics.connected]
    · split at h
      · cases h
        simp [World.handover, finish, Channel.dropSender, hpc, Pc.forwarded, hread, hrefused,
          Metrics.connected, Metrics.error]
      · cases h
        simp [World.handover, goto, hpc, Pc.forwarded, hread, hrefused, Metrics.connected,
          Metrics.error]
  · simp at h

theorem backOff_handover {elapsed : Bool} (h : backOff cfg w elapsed = some w') :
    w'.handover = w.handover := by
  unfold backOff at h
  split at h
  · rename_i hpc
    split at h
    · cases h
      simp [World.handover, hpc, Pc.forwarded]
    · split at h
      · cases h
        simp [World.handover, finish, Channel.dropSender, hpc, Pc.forwarded]
      · simp at h
  · simp at h

/-- Reading a text or binary message is the `read` of its payload; any other
message touches no frame. -/
theorem pollRead_refines (hc : Coherent w) {event : Option ReadEvent} {now_ms : Int}
    (h : pollRead w event now_ms = some w') :
    ReflTransGen Handover.Step w.handover w'.handover := by
  unfold pollRead at h
  split at h
  · rename_i hpc
    have hnone : w.ws.pc.forwarded = [] := by rw [hpc]; rfl
    have hrefused : w.ws.refused = [] := by
      cases hrefused : w.ws.refused with
      | nil => rfl
      | cons x rest =>
          rcases hc.refused (by simp [hrefused]) with hended | hended
          · simp [hpc] at hended
          · simp [hpc] at hended
    split at h
    · cases h
      rw [handover_goto hnone rfl]
    · rename_i m
      cases h
      unfold handle
      cases hpayload : m.payload? with
      | some bytes =>
          have hstep := Handover.Step.read (h := w.handover) bytes hnone hrefused
          refine .single ?_
          simpa [World.handover, goto, Pc.forwarded, Metrics.received, List.filterMap_append,
            hpayload] using hstep
      | none =>
          have hsame : ({ w with ws := { w.ws with read := w.ws.read ++ [m] } } : World).handover =
              w.handover := by
            simp [World.handover, List.filterMap_append, hpayload]
          have hgoto : ∀ pc : Pc, pc.forwarded = [] →
              (goto { w with ws := { w.ws with read := w.ws.read ++ [m] } } pc).handover =
                w.handover := fun pc hpc => Eq.trans (handover_goto hnone hpc) hsame
          dsimp only
          split
          · rw [hgoto _ rfl]
          · rw [hgoto _ rfl]
    · cases h
      rw [handover_goto hnone rfl]
    · cases h
      rw [handover_goto hnone rfl]
  · simp at h

/-- The end of `tx.send` is a `send`, or a `refuse` by the closed channel. -/
theorem send_refines (h : send w = some w') : Handover.Step w.handover w'.handover := by
  unfold send at h
  split at h
  · rename_i bytes hpc
    have hforwarding : w.handover.forwarding = [bytes] := by
      simp [World.handover, hpc, Pc.forwarded]
    cases hsend : w.channel.send bytes with
    | sent channel =>
        rw [hsend] at h
        cases h
        obtain ⟨hreceiving, hroom, _, rfl⟩ := Channel.send_sent hsend
        exact .send hforwarding hreceiving hroom
    | full => simp [hsend] at h
    | closed =>
        rw [hsend] at h
        cases h
        exact .refuse hforwarding (Channel.send_closed hsend)
  · simp at h

end Ws

/-! ### The producer task -/

namespace Producer

/-- The end of the task is a `stop`. -/
theorem finish_refines (hreceiving : w.channel.receiving = true)
    (henqueueing : w.producer.pc.enqueueing = []) (hinflight : w.producer.inflight = []) :
    Handover.Step w.handover (finish w).handover := by
  have hstep := Handover.Step.stop (h := w.handover) hreceiving henqueueing
    (by simp [World.handover, hinflight])
  have htarget : (finish w).handover = { w.handover with
      receiving := false, discarded := w.handover.items, items := [] } := by
    rw [World.handover, World.handover, henqueueing]
    rfl
  rwa [htarget]

theorem handover_goto {pc : Pc} (hold : w.producer.pc.enqueueing = [])
    (hnew : pc.enqueueing = []) : (goto w pc).handover = w.handover := by
  simp [World.handover, goto, hold, hnew]

theorem pollShutdown_refines (hc : Coherent w) (h : pollShutdown w = some w') :
    ReflTransGen Handover.Step w.handover w'.handover := by
  unfold pollShutdown at h
  split at h
  · rename_i hpc
    have hnone : w.producer.pc.enqueueing = [] := by rw [hpc]; rfl
    split at h
    · split at h
      · rename_i hempty
        cases h
        have hreceiving := hc.receiving (by simp [hpc])
        exact .single (finish_refines hreceiving hnone (by simpa using hempty))
      · cases h
        rw [handover_goto hnone rfl]
    · split at h
      · cases h
        exact .refl
      · cases h
        rw [handover_goto hnone rfl]
  · simp at h

theorem sendResult_refines {reply : SendReply} (h : sendResult cfg w reply = some w') :
    ReflTransGen Handover.Step w.handover w'.handover := by
  unfold sendResult at h
  split at h
  · rename_i payload hpc
    have henqueueing : w.handover.enqueueing = [payload] := by
      simp [World.handover, hpc, Pc.enqueueing]
    cases reply with
    | accepted =>
        cases h
        have hstep := Handover.Step.accept henqueueing
        refine .single ?_
        simpa [World.handover, Pc.enqueueing, record] using hstep
    | queueFull =>
        cases h
        have hsame : (goto w (.enqueue payload)).handover = w.handover := by
          simp [World.handover, goto, hpc]
        exact hsame ▸ .refl
    | failed e =>
        cases h
        have hstep := Handover.Step.fail henqueueing
        refine .single ?_
        simpa [World.handover, Pc.enqueueing, record, Metrics.failed, Nat.add_assoc] using hstep
  · simp at h

theorem countDelivery_refines {index : Nat} {result : DeliveryResult} {now_ms : Int}
    (hnone : w.producer.pc.enqueueing = []) (hindex : index < w.producer.inflight.length) :
    Handover.Step w.handover (countDelivery w index result now_ms).handover := by
  have hlength := List.length_eraseIdx_add_one hindex
  have hstep := Handover.Step.settle (h := w.handover) hlength.symm
  have htarget : (countDelivery w index result now_ms).handover = { w.handover with
      inflight := (w.producer.inflight.eraseIdx index).length
      settled := w.handover.settled + 1 } := by
    rw [World.handover, World.handover, hnone]
    cases result <;>
      simp [countDelivery, Pc.enqueueing, Metrics.sent, Metrics.failed] <;> omega
  rwa [htarget]

/-- A delivery that resolved is a `settle`, and the end of the task if it was the
last one of a draining task. -/
theorem pollInflight_refines (hc : Coherent w) {ready : Option (Nat × DeliveryResult)}
    {now_ms : Int} (h : pollInflight w ready now_ms = some w') :
    ReflTransGen Handover.Step w.handover w'.handover := by
  unfold pollInflight at h
  split at h
  · rename_i hpc
    have hnone : w.producer.pc.enqueueing = [] := by rw [hpc]; rfl
    split at h
    · rename_i index result
      split at h
      · rename_i hindex
        cases h
        have hstep : Handover.Step w.handover (countDelivery w index result now_ms).handover :=
          countDelivery_refines hnone hindex
        have hreceiving := hc.receiving (by simp [hpc])
        unfold breakIfDrained
        split
        · rename_i hlast
          simp only [Bool.and_eq_true, List.isEmpty_iff] at hlast
          exact .tail (.single hstep)
            (finish_refines (w := countDelivery w index result now_ms) hreceiving rfl hlast.2)
        · exact .single hstep
      · simp at h
    · cases h
      rw [handover_goto hnone rfl]
  · simp at h

/-- Receiving a payload is a `take`. The channel reports its end only when it is
empty, so a task that ends on it throws nothing away. -/
theorem pollRecv_refines (hc : Coherent w) (h : pollRecv cfg w = some w') :
    ReflTransGen Handover.Step w.handover w'.handover := by
  unfold pollRecv at h
  split at h
  · rename_i hpc
    have hnone : w.producer.pc.enqueueing = [] := by rw [hpc]; rfl
    split at h
    · split at h
      · rename_i payload channel hrecv
        cases h
        obtain ⟨rest, hitems, _, rfl⟩ := Channel.recv_item hrecv
        exact .single (.take hnone hitems)
      · cases h
        rw [handover_goto hnone rfl]
      · dsimp only at h
        split at h
        · rename_i hempty
          cases h
          have hstep := finish_refines (w := { w with
            producer := { w.producer with draining := true } }) (hc.receiving (by simp [hpc]))
            hnone (by simpa using hempty)
          exact .single hstep
        · cases h
          have hsame : (goto { w with producer := { w.producer with draining := true } }
              .pollShutdown).handover = w.handover := handover_goto hnone rfl
          rw [hsame]
    · cases h
      rw [handover_goto hnone rfl]
  · simp at h

end Producer

/-! ### The control states -/

/-- A step of the ws task happens before `run` returns, so before `main` goes on. -/
theorem Coherent.ws_step (hc : Coherent w) (h : Ws.Local w w') : Coherent w' where
  done_iff := by rw [h.producer, h.receiving]; exact hc.done_iff
  refused hrefused := by
    obtain hended | ⟨hsame, hnext⟩ := h.refused
    · exact .inl hended
    · rw [hsame] at hrefused
      rcases hc.refused hrefused with hpc | hpc
      · exact .inr (hnext hpc)
      · exact absurd hpc (h.running _)
  returned result hresult := by
    rw [h.main] at hresult
    exact absurd (hc.returned result hresult) (h.running _)
  joined hjoined := by
    rw [h.main] at hjoined
    rw [h.producer]
    exact hc.joined hjoined
  final m hm := by
    rw [h.final] at hm
    obtain ⟨_, result, hmain⟩ := hc.final m hm
    exact absurd (hc.returned result (by rw [hmain]; rfl)) (h.running _)

/-- A step of the producer task happens before it ends, so before `main` has
joined it. -/
theorem Coherent.producer_step (hc : Coherent w) (h : Producer.Local w w') : Coherent w' where
  done_iff := h.done_iff (hc.receiving h.running)
  refused := by rw [h.ws]; exact hc.refused
  returned := by rw [h.main, h.ws]; exact hc.returned
  joined hjoined := by
    rw [h.main] at hjoined
    exact absurd (hc.joined hjoined) h.running
  final m hm := by
    rw [h.final] at hm
    obtain ⟨_, result, hmain⟩ := hc.final m hm
    exact absurd (hc.joined (by rw [hmain]; rfl)) h.running

/-- `main` and the helpers have no part in the stream. -/
theorem Coherent.main_frame (hc : Coherent w) (h : Main.Frame w w')
    (hreturned : ∀ result, w'.main.returned = some result → w.ws.pc = .done result)
    (hjoined : w'.main.joined = true → w.producer.pc = .done)
    (hfinal : ∀ m, w'.final = some m → m = w.metrics ∧ ∃ result, w'.main = .exited (.ok result)) :
    Coherent w' where
  done_iff := by rw [h.producer, h.receiving]; exact hc.done_iff
  refused := by rw [h.ws]; exact hc.refused
  returned := by rw [h.ws]; exact hreturned
  joined := by rw [h.producer]; exact hjoined
  final := by rw [h.metrics]; exact hfinal

theorem Coherent.helper_step (hc : Coherent w) (h : Main.HelperFrame w w') : Coherent w' := by
  refine hc.main_frame h.toFrame ?_ ?_ ?_
  · rw [h.main]
    exact hc.returned
  · rw [h.main]
    exact hc.joined
  · rw [h.main, h.final]
    exact hc.final

/-- `final metrics` is the last thing `main` logs. -/
theorem Coherent.unreported (hc : Coherent w) (hmain : ∀ result, w.main ≠ .exited (.ok result)) :
    ∀ m, w.final ≠ some m := by
  intro m hm
  obtain ⟨_, result, hexited⟩ := hc.final m hm
  exact hmain result hexited

namespace Main

theorem Frame.handover (h : Frame w w') : w'.handover = w.handover := by
  unfold World.handover
  rw [h.ws, h.producer, h.metrics]
  rcases h.channel with hsame | hdropped
  · rw [hsame]
  · rw [hdropped]
    rfl

theorem Teardown.coherent (h : Teardown w w') (hc : Coherent w) : Coherent w' := by
  cases h with
  | cancel hmain hws =>
      have hfinal := hc.unreported (by simp [hmain])
      refine hc.main_frame (Teardown.cancel hmain hws).frame ?_ ?_ (fun m hm => absurd hm (hfinal m))
      · rintro _ ⟨⟩
        exact hws
      · simp [MainPc.joined]
  | close hmain =>
      have hfinal := hc.unreported (by simp [hmain])
      refine hc.main_frame (Teardown.close hmain).frame ?_ ?_ (fun m hm => absurd hm (hfinal m))
      · rintro _ ⟨⟩
        exact hc.returned _ (by rw [hmain]; rfl)
      · simp [MainPc.joined]
  | join hmain =>
      have hfinal := hc.unreported (by simp [hmain])
      refine hc.main_frame (Teardown.join hmain).frame ?_ ?_ (fun m hm => absurd hm (hfinal m))
      · rintro _ ⟨⟩
        exact hc.returned _ (by rw [hmain]; rfl)
      · simp [MainPc.joined]
  | flush hmain hproducer hemitter =>
      have hfinal := hc.unreported (by simp [hmain])
      refine hc.main_frame (Teardown.flush hmain hproducer hemitter).frame ?_ (fun _ => hproducer)
        (fun m hm => absurd hm (hfinal m))
      rintro _ ⟨⟩
      exact hc.returned _ (by rw [hmain]; rfl)
  | report hmain =>
      have hfinal := hc.unreported (by simp [hmain])
      have hjoined := hc.joined (by rw [hmain]; rfl)
      refine hc.main_frame (Teardown.report hmain).frame ?_ (fun _ => hjoined)
        (fun m hm => absurd hm (hfinal m))
      rintro _ ⟨⟩
      exact hc.returned _ (by rw [hmain]; rfl)
  | fail e hmain =>
      have hfinal := hc.unreported (by simp [hmain])
      have hjoined := hc.joined (by rw [hmain]; rfl)
      refine hc.main_frame (Teardown.fail e hmain).frame ?_ (fun _ => hjoined)
        (fun m hm => absurd hm (hfinal m))
      simp [MainPc.returned]
  | exit hmain =>
      have hjoined := hc.joined (by rw [hmain]; rfl)
      refine hc.main_frame (Teardown.exit hmain).frame ?_ (fun _ => hjoined) ?_
      · rintro _ ⟨⟩
        exact hc.returned _ (by rw [hmain]; rfl)
      · rintro m ⟨⟩
        exact ⟨rfl, _, rfl⟩

end Main

/-! ### Every step -/

/-- Every step of the process is some steps of the hand-over. -/
theorem step_refines (hc : Coherent w) {a : Action} (h : step cfg w a = some w') :
    ReflTransGen Handover.Step w.handover w'.handover := by
  have hsame : w'.handover = w.handover → ReflTransGen Handover.Step w.handover w'.handover := by
    intro heq
    rw [heq]
  cases a with
  | startAttempt => exact hsame (Ws.startAttempt_handover h)
  | setup outcome => exact hsame (Ws.setup_handover h)
  | wsPollShutdown => exact hsame (Ws.pollShutdown_handover h)
  | wsPollRead event now_ms => exact Ws.pollRead_refines hc h
  | wsPollTimer elapsed => exact hsame (Ws.pollTimer_handover h)
  | send => exact .single (Ws.send_refines h)
  | close => exact hsame (Ws.close_handover h)
  | endAttempt => exact hsame (Ws.endAttempt_handover h)
  | backOff elapsed => exact hsame (Ws.backOff_handover h)
  | prodPollShutdown => exact Producer.pollShutdown_refines hc h
  | prodPollInflight ready now_ms => exact Producer.pollInflight_refines hc h
  | prodPollRecv => exact Producer.pollRecv_refines hc h
  | sendResult reply => exact Producer.sendResult_refines h
  | signal =>
      cases h
      exact .refl
  | watchdogTick start_ms now_ms => exact hsame (Main.watchdogTick_frame h).handover
  | watchdogStop => exact hsame (Main.watchdogStop_frame h).handover
  | emitterStop => exact hsame (Main.emitterStop_frame h).handover
  | teardown flushed => exact hsame (Main.teardown_cases h).frame.handover

theorem step_coherent (hc : Coherent w) {a : Action} (h : step cfg w a = some w') :
    Coherent w' := by
  obtain ⟨_, hf⟩ | ⟨_, hf⟩ | hf | htorn := step_cases h
  · exact hc.ws_step hf.toLocal
  · exact hc.producer_step hf.toLocal
  · exact hc.helper_step hf
  · exact htorn.coherent hc

theorem reachable_coherent (h : (system cfg).Reachable w) : Coherent w := by
  induction h with
  | init hinit =>
      obtain rfl := hinit
      constructor <;> simp [World.new, Producer.new, Channel.create, Ws.new, MainPc.returned,
        MainPc.joined]
  | step _ hstep ih => exact step_coherent ih hstep

/-- The run of the hand-over a run of the process follows. -/
theorem reachable_reaches (h : (system cfg).Reachable w) :
    ReflTransGen Handover.Step (World.new cfg).handover w.handover := by
  refine Transition.System.Inductive.reachable_of
    (P := fun w : World => ReflTransGen Handover.Step (World.new cfg).handover w.handover)
    (fun _ => reachable_coherent) ?_ ?_ h
  · rintro _ rfl
    exact .refl
  · intro w a w' hc hreaches hstep
    exact hreaches.trans (step_refines hc hstep)

theorem reachable_sound (h : (system cfg).Reachable w) : w.handover.Sound :=
  (Handover.sound_empty cfg.channel_capacity).of_reaches (reachable_reaches h)

/-- Until the producer task drops its receiver, the payloads read from the
socket are, in reading order, those `enqueue` has finished, the one it is
working on, those in the channel, and the one waiting in `forward`. -/
theorem frames_in_order (h : (system cfg).Reachable w) (hopen : w.channel.receiving = true) :
    w.producer.finished.map Producer.Finished.payload ++ w.producer.pc.enqueueing ++
      w.channel.items ++ w.ws.pc.forwarded = w.ws.read.filterMap Ws.Message.payload? :=
  (reachable_sound h).open_stream hopen

def sampleConfig : Config where
  kafka_topic := "bars"
  max_retries := 3
  timeout_secs := 30
  data_idle_timeout_secs := 0
  backoff_max_secs := 8
  channel_capacity := 2
  max_inflight := 1

/-- Two frames are read; the first is on its way to Kafka, the second is still
in the channel. -/
def twoFrames : List Action :=
  [.startAttempt, .setup (.ok ()),
   .wsPollShutdown, .wsPollRead (some (.message (.binary [1]))) 1, .send,
   .prodPollShutdown, .prodPollInflight none 1, .prodPollRecv, .sendResult .queueFull,
   .sendResult .accepted,
   .wsPollShutdown, .wsPollRead (some (.message (.ping [9]))) 2,
   .wsPollShutdown, .wsPollRead (some (.message (.binary [2]))) 3, .send]

theorem twoFrames_facts : ∃ w, (system sampleConfig).run (World.new sampleConfig) twoFrames =
    some w ∧ w.channel.receiving = true ∧ w.channel.items = [[2]] :=
  ⟨_, rfl, rfl, rfl⟩

theorem twoFrames_in_order : ∃ w : World, w.channel.items = [[2]] ∧
    w.producer.finished.map Producer.Finished.payload ++ w.producer.pc.enqueueing ++
      w.channel.items ++ w.ws.pc.forwarded = w.ws.read.filterMap Ws.Message.payload? := by
  obtain ⟨w, hrun, hopen, hitems⟩ := twoFrames_facts
  exact ⟨w, hitems, frames_in_order (.of_run (.init rfl) hrun) hopen⟩

/-- The `final metrics` snapshot counts every frame received once: as sent or
failed, unless it was thrown away with the channel or refused by it. -/
theorem final_metrics_account (h : (system cfg).Reachable w) {m : Metrics}
    (hfinal : w.final = some m) :
    m.messages_received = m.messages_sent + m.delivery_failures +
        w.producer.discarded.length + w.ws.refused.length ∧
      w.producer.discarded.length ≤ cfg.channel_capacity ∧
      w.ws.refused.length ≤ 1 ∧
      (w.ws.refused ≠ [] → w.main = .exited (.ok Ws.channelClosed)) ∧
      w.producer.finished.map Producer.Finished.payload ++ w.producer.discarded ++
        w.ws.refused = w.ws.read.filterMap Ws.Message.payload? := by
  have hc := reachable_coherent h
  have hs := reachable_sound h
  have hcapacity : w.handover.capacity = cfg.channel_capacity :=
    Handover.capacity_of_reaches (reachable_reaches h)
  obtain ⟨rfl, result, hmain⟩ := hc.final m hfinal
  have hws : w.ws.pc = .done result := hc.returned result (by rw [hmain]; rfl)
  have hclosed : w.channel.receiving = false :=
    hc.done_iff.mp (hc.joined (by rw [hmain]; rfl))
  obtain ⟨hcount, hpayloads⟩ := hs.closed_count hclosed (by
    simp [World.handover, hws, Ws.Pc.forwarded])
  refine ⟨hcount, hcapacity ▸ hs.bounded.2, hs.refused.1, ?_, hpayloads⟩
  intro hrefused
  rcases hc.refused hrefused with hpc | hpc
  · simp [hws] at hpc
  · rw [hws] at hpc
    cases hpc
    exact hmain

/-- The token fires while the second frame is in the channel: the producer task
drains its delivery and ends. -/
def frameAtShutdownRun : List Action :=
  twoFrames ++
    [.signal, .prodPollShutdown, .prodPollShutdown, .prodPollInflight (some (0, .delivered)) 4,
     .wsPollShutdown, .close, .endAttempt, .emitterStop,
     .teardown (.ok ()), .teardown (.ok ()), .teardown (.ok ()), .teardown (.ok ()),
     .teardown (.ok ()), .teardown (.ok ())]

theorem frameAtShutdownRun_facts : ∃ w m,
    (system sampleConfig).run (World.new sampleConfig) frameAtShutdownRun = some w ∧
      w.final = some m ∧ m.messages_received = 2 ∧ m.messages_sent = 1 ∧
      m.delivery_failures = 0 :=
  ⟨_, _, rfl, rfl, rfl, rfl, rfl⟩

theorem frameAtShutdownRun_account : ∃ (w : World) (m : Metrics), w.final = some m ∧
    m.messages_received = m.messages_sent + m.delivery_failures +
      w.producer.discarded.length + w.ws.refused.length := by
  obtain ⟨w, m, hrun, hfinal, _⟩ := frameAtShutdownRun_facts
  exact ⟨w, m, hfinal, (final_metrics_account (.of_run (.init rfl) hrun) hfinal).1⟩

/-- The second frame was received, and neither sent nor failed. -/
theorem frameAtShutdownRun_lost : ∃ w m, (system sampleConfig).Reachable w ∧
    w.final = some m ∧ m.messages_received ≠ m.messages_sent + m.delivery_failures := by
  obtain ⟨w, m, hrun, hfinal, hreceived, hsent, hfailed⟩ := frameAtShutdownRun_facts
  refine ⟨w, m, .of_run (.init rfl) hrun, hfinal, ?_⟩
  rw [hreceived, hsent, hfailed]
  decide

end Lakehouse.Extractor
