/-
What a step of one task leaves alone of the others.

Every step is one of the ws task, of the producer task, of a helper (the signal
handler, the watchdog, the emitter) or of `main`. What holds across the steps of
the other tasks follows from their frames, without going through them again.

* `Ws.frame_of_step`, `Producer.frame_of_step`, `Main.helperFrame_of_step`.
* `Main.Teardown` — the steps of `main`.
* `step_cases` — whose step it is, with its frame.
-/

import Lakehouse.Extractor.Pipeline

namespace Lakehouse.Extractor

open Channels (Channel)

/-- The actions of `run`. -/
def Action.ofWs : Action → Bool
  | .startAttempt | .setup _ | .wsPollShutdown | .wsPollRead _ _ | .wsPollTimer _ => true
  | .send | .close | .endAttempt | .backOff _ => true
  | _ => false

/-- The actions of `producer_task`. -/
def Action.ofProducer : Action → Bool
  | .prodPollShutdown | .prodPollInflight _ _ | .prodPollRecv | .sendResult _ => true
  | _ => false

variable {cfg : Config} {w w' : World}

/-! ### The ws task -/

/-- What an attempt ends with when the channel refuses its frame. -/
def Ws.channelClosed : Ws.Result := .error (.fatal "producer channel closed")

/-- What a step of the ws task leaves alone. -/
structure Ws.Local (w w' : World) : Prop where
  running : ∀ result, w.ws.pc ≠ .done result
  producer : w'.producer = w.producer
  receiving : w'.channel.receiving = w.channel.receiving
  main : w'.main = w.main
  final : w'.final = w.final
  refused : w'.ws.pc = .attemptEnded channelClosed ∨ w'.ws.refused = w.ws.refused ∧
    (w.ws.pc = .attemptEnded channelClosed → w'.ws.pc = .done channelClosed)

namespace Ws

/-- And of what `main`, the emitter and the producer task read or count. -/
structure Frame (w w' : World) : Prop extends Local w w' where
  emitter : w'.emitter = w.emitter
  cancelled : w'.cancelled = w.cancelled
  senders : w'.channel.senders ≤ w.channel.senders
  sent : w'.metrics.messages_sent = w.metrics.messages_sent
  failures : w'.metrics.delivery_failures = w.metrics.delivery_failures

/-- Moving on without an end and without a refusal. -/
theorem frame_within {ws : Ws} {metrics : Metrics} (hrunning : ∀ result, w.ws.pc ≠ .done result)
    (hopen : w.ws.pc ≠ .attemptEnded channelClosed) (hrefused : ws.refused = w.ws.refused)
    (hsent : metrics.messages_sent = w.metrics.messages_sent)
    (hfailures : metrics.delivery_failures = w.metrics.delivery_failures) :
    Frame w { w with ws := ws, metrics := metrics } where
  running := hrunning
  producer := rfl
  receiving := rfl
  main := rfl
  final := rfl
  refused := .inr ⟨hrefused, fun hpc => absurd hpc hopen⟩
  emitter := rfl
  cancelled := rfl
  senders := Nat.le_refl _
  sent := hsent
  failures := hfailures

theorem goto_frame {pc : Pc} (hrunning : ∀ result, w.ws.pc ≠ .done result)
    (hopen : w.ws.pc ≠ .attemptEnded channelClosed) : Frame w (goto w pc) :=
  frame_within hrunning hopen rfl rfl rfl

theorem startAttempt_frame (h : startAttempt w = some w') : Frame w w' := by
  unfold startAttempt at h
  split at h
  · rename_i hpc
    cases h
    exact frame_within (by simp [hpc]) (by simp [hpc]) rfl rfl rfl
  · simp at h

theorem setup_frame {outcome : Result} (h : setup w outcome = some w') : Frame w w' := by
  unfold setup at h
  split at h
  · rename_i hpc
    split at h
    · cases h
      exact frame_within (by simp [hpc]) (by simp [hpc]) rfl rfl rfl
    · cases h
      exact goto_frame (by simp [hpc]) (by simp [hpc])
  · simp at h

theorem pollShutdown_frame (h : pollShutdown w = some w') : Frame w w' := by
  unfold pollShutdown at h
  split at h
  · rename_i hpc
    cases h
    exact goto_frame (by simp [hpc]) (by simp [hpc])
  · simp at h

theorem handle_frame (m : Message) (now_ms : Int) (hpc : w.ws.pc = .pollRead) :
    Frame w (handle w m now_ms) := by
  unfold handle
  dsimp only
  split
  · exact frame_within (by simp [hpc]) (by simp [hpc]) rfl rfl rfl
  · split
    · exact frame_within (by simp [hpc]) (by simp [hpc]) rfl rfl rfl
    · exact frame_within (by simp [hpc]) (by simp [hpc]) rfl rfl rfl

theorem pollRead_frame {event : Option ReadEvent} {now_ms : Int}
    (h : pollRead w event now_ms = some w') : Frame w w' := by
  unfold pollRead at h
  split at h
  · rename_i hpc
    split at h
    · cases h
      exact goto_frame (by simp [hpc]) (by simp [hpc])
    · cases h
      exact handle_frame _ _ hpc
    · cases h
      exact goto_frame (by simp [hpc]) (by simp [hpc])
    · cases h
      exact goto_frame (by simp [hpc]) (by simp [hpc])
  · simp at h

theorem pollTimer_frame {elapsed : Bool} (h : pollTimer cfg w elapsed = some w') : Frame w w' := by
  unfold pollTimer at h
  split at h
  · rename_i hpc
    cases h
    exact goto_frame (by simp [hpc]) (by simp [hpc])
  · simp at h

theorem send_frame (h : send w = some w') : Frame w w' := by
  unfold send at h
  split at h
  · rename_i bytes hpc
    have hgoto : ∀ pc, Frame w (goto w pc) := fun pc => goto_frame (by simp [hpc]) (by simp [hpc])
    cases hsend : w.channel.send bytes with
    | sent channel =>
        rw [hsend] at h
        cases h
        obtain ⟨_, _, _, rfl⟩ := Channel.send_sent hsend
        exact { hgoto .pollShutdown with }
    | full => simp [hsend] at h
    | closed =>
        rw [hsend] at h
        cases h
        exact { hgoto (.attemptEnded channelClosed) with refused := .inl rfl }
  · simp at h

theorem close_frame (h : close w = some w') : Frame w w' := by
  unfold close at h
  split at h
  · rename_i result hpc
    cases h
    exact goto_frame (by simp [hpc]) (by simp [hpc])
  · simp at h

theorem finish_frame {result : Result} {ws : Ws} {metrics : Metrics}
    (hpc : w.ws.pc = .attemptEnded result ∨ w.ws.pc = .backingOff)
    (hrefused : ws.refused = w.ws.refused)
    (hsent : metrics.messages_sent = w.metrics.messages_sent)
    (hfailures : metrics.delivery_failures = w.metrics.delivery_failures) {last : Result}
    (hlast : result = channelClosed → last = channelClosed) :
    Frame w (finish { w with ws := ws, metrics := metrics } last) where
  running := by
    rcases hpc with hpc | hpc <;> simp [hpc]
  producer := rfl
  receiving := rfl
  main := rfl
  final := rfl
  refused := by
    refine .inr ⟨hrefused, fun hclosed => ?_⟩
    rcases hpc with hpc | hpc
    · rw [hpc] at hclosed
      cases hclosed
      exact congrArg Pc.done (hlast rfl)
    · simp [hpc] at hclosed
  emitter := rfl
  cancelled := rfl
  senders := Nat.sub_le _ _
  sent := hsent
  failures := hfailures

theorem endAttempt_frame (h : endAttempt cfg w = some w') : Frame w w' := by
  unfold endAttempt at h
  split at h
  · rename_i result hpc
    generalize hws : (if w.ws.connected then { w.ws with backoff := 1, attempt := 0 } else w.ws) =
      ws at h
    have hrefused : ws.refused = w.ws.refused := by
      rw [← hws]
      split <;> rfl
    have hsent : (w.metrics.connected false).messages_sent = w.metrics.messages_sent := rfl
    dsimp only at h
    split at h
    · cases h
      exact finish_frame (.inl hpc) hrefused hsent rfl id
    · cases h
      exact finish_frame (.inl hpc) hrefused hsent rfl id
    · split at h
      · cases h
        have hsent : (w.metrics.connected false).error.messages_sent = w.metrics.messages_sent := rfl
        exact finish_frame (.inl hpc) hrefused hsent rfl (by simp [channelClosed])
      · cases h
        exact frame_within (by simp [hpc]) (by simp [hpc, channelClosed]) hrefused rfl rfl
  · simp at h

theorem backOff_frame {elapsed : Bool} (h : backOff cfg w elapsed = some w') : Frame w w' := by
  unfold backOff at h
  split at h
  · rename_i hpc
    split at h
    · cases h
      exact frame_within (by simp [hpc]) (by simp [hpc]) rfl rfl rfl
    · split at h
      · cases h
        exact finish_frame (.inr hpc) rfl rfl rfl id
      · simp at h
  · simp at h

theorem frame_of_step {a : Action} (hws : a.ofWs = true) (h : step cfg w a = some w') :
    Frame w w' := by
  cases a with
  | startAttempt => exact startAttempt_frame h
  | setup outcome => exact setup_frame h
  | wsPollShutdown => exact pollShutdown_frame h
  | wsPollRead event now_ms => exact pollRead_frame h
  | wsPollTimer elapsed => exact pollTimer_frame h
  | send => exact send_frame h
  | close => exact close_frame h
  | endAttempt => exact endAttempt_frame h
  | backOff elapsed => exact backOff_frame h
  | _ => simp [Action.ofWs] at hws

end Ws

/-! ### The producer task -/

/-- What a step of the producer task leaves alone. -/
structure Producer.Local (w w' : World) : Prop where
  running : w.producer.pc ≠ .done
  ws : w'.ws = w.ws
  main : w'.main = w.main
  final : w'.final = w.final
  done_iff : w.channel.receiving = true → (w'.producer.pc = .done ↔ w'.channel.receiving = false)

namespace Producer

/-- And of what `main`, the emitter and `run` read or count. -/
structure Frame (w w' : World) : Prop extends Local w w' where
  emitter : w'.emitter = w.emitter
  cancelled : w'.cancelled = w.cancelled
  errors : w'.metrics.errors = w.metrics.errors
  status : w'.metrics.connection_status = w.metrics.connection_status

/-- Moving on without an end. -/
theorem frame_within {producer : Producer} {metrics : Metrics} {channel : Channel Bytes}
    (hrunning : w.producer.pc ≠ .done) (hpc : producer.pc ≠ .done)
    (hreceiving : channel.receiving = w.channel.receiving)
    (herrors : metrics.errors = w.metrics.errors)
    (hstatus : metrics.connection_status = w.metrics.connection_status) :
    Frame w { w with producer := producer, metrics := metrics, channel := channel } where
  running := hrunning
  ws := rfl
  main := rfl
  final := rfl
  done_iff := by simp [hpc, hreceiving]
  emitter := rfl
  cancelled := rfl
  errors := herrors
  status := hstatus

theorem finish_frame {producer : Producer} {metrics : Metrics} (hrunning : w.producer.pc ≠ .done)
    (herrors : metrics.errors = w.metrics.errors)
    (hstatus : metrics.connection_status = w.metrics.connection_status) :
    Frame w (finish { w with producer := producer, metrics := metrics }) where
  running := hrunning
  ws := rfl
  main := rfl
  final := rfl
  done_iff := fun _ => ⟨fun _ => rfl, fun _ => rfl⟩
  emitter := rfl
  cancelled := rfl
  errors := herrors
  status := hstatus

theorem pollShutdown_frame (h : pollShutdown w = some w') : Frame w w' := by
  unfold pollShutdown at h
  split at h
  · rename_i hpc
    have hrunning : w.producer.pc ≠ .done := by simp [hpc]
    split at h
    · split at h
      · cases h
        exact finish_frame hrunning rfl rfl
      · cases h
        exact frame_within hrunning (by simp) rfl rfl rfl
    · split at h
      · cases h
        exact frame_within hrunning hrunning rfl rfl rfl
      · cases h
        exact frame_within hrunning (by simp) rfl rfl rfl
  · simp at h

theorem pollInflight_frame {ready : Option (Nat × DeliveryResult)} {now_ms : Int}
    (h : pollInflight w ready now_ms = some w') : Frame w w' := by
  unfold pollInflight at h
  split at h
  · rename_i hpc
    have hrunning : w.producer.pc ≠ .done := by simp [hpc]
    split at h
    · rename_i index result
      split at h
      · cases h
        have herrors : (countDelivery w index result now_ms).metrics.errors = w.metrics.errors := by
          cases result <;> rfl
        have hstatus : (countDelivery w index result now_ms).metrics.connection_status =
            w.metrics.connection_status := by
          cases result <;> rfl
        unfold breakIfDrained
        split
        · exact finish_frame hrunning herrors hstatus
        · exact frame_within hrunning (by simp) rfl herrors hstatus
      · simp at h
    · cases h
      exact frame_within hrunning (by simp) rfl rfl rfl
  · simp at h

theorem pollRecv_frame (h : pollRecv cfg w = some w') : Frame w w' := by
  unfold pollRecv at h
  split at h
  · rename_i hpc
    have hrunning : w.producer.pc ≠ .done := by simp [hpc]
    have hgoto : Frame w (goto w .pollShutdown) := frame_within hrunning (by simp) rfl rfl rfl
    split at h
    · split at h
      · rename_i payload channel hrecv
        cases h
        obtain ⟨_, _, _, rfl⟩ := Channel.recv_item hrecv
        exact frame_within hrunning (by simp [goto]) rfl rfl rfl
      · cases h
        exact hgoto
      · dsimp only at h
        split at h
        · cases h
          exact finish_frame hrunning rfl rfl
        · cases h
          exact frame_within hrunning (by simp) rfl rfl rfl
    · cases h
      exact hgoto
  · simp at h

theorem sendResult_frame {reply : SendReply} (h : sendResult cfg w reply = some w') :
    Frame w w' := by
  unfold sendResult at h
  split at h
  · rename_i payload hpc
    have hrunning : w.producer.pc ≠ .done := by simp [hpc]
    cases reply with
    | accepted =>
        cases h
        exact frame_within hrunning (by simp) rfl rfl rfl
    | queueFull =>
        cases h
        exact frame_within hrunning (by simp) rfl rfl rfl
    | failed e =>
        cases h
        exact frame_within hrunning (by simp) rfl rfl rfl
  · simp at h

theorem frame_of_step {a : Action} (hproducer : a.ofProducer = true)
    (h : step cfg w a = some w') : Frame w w' := by
  cases a with
  | prodPollShutdown => exact pollShutdown_frame h
  | prodPollInflight ready now_ms => exact pollInflight_frame h
  | prodPollRecv => exact pollRecv_frame h
  | sendResult reply => exact sendResult_frame h
  | _ => simp [Action.ofProducer] at hproducer

end Producer

/-! ### `main`, the signal handler, the watchdog and the emitter -/

/-- What a step of `main` or of a helper leaves alone. -/
structure Main.Frame (w w' : World) : Prop where
  ws : w'.ws = w.ws
  producer : w'.producer = w.producer
  metrics : w'.metrics = w.metrics
  cancelled : w.cancelled = true → w'.cancelled = true
  channel : w'.channel = w.channel ∨ w'.channel = w.channel.dropSender

/-- A step of a helper leaves `main` alone too. -/
structure Main.HelperFrame (w w' : World) : Prop extends Main.Frame w w' where
  main : w'.main = w.main
  final : w'.final = w.final
  emitter : w.emitter = false → w'.emitter = false

/-- The actions of the signal handler, the watchdog and the emitter. -/
def Action.ofHelper : Action → Bool
  | .signal | .watchdogTick _ _ | .watchdogStop | .emitterStop => true
  | _ => false

namespace Main

theorem Frame.receiving (h : Frame w w') : w'.channel.receiving = w.channel.receiving := by
  rcases h.channel with hsame | hdropped
  · rw [hsame]
  · rw [hdropped]
    rfl

theorem Frame.senders (h : Frame w w') : w'.channel.senders ≤ w.channel.senders := by
  rcases h.channel with hsame | hdropped
  · exact Nat.le_of_eq (congrArg Channel.senders hsame)
  · rw [hdropped]
    exact Nat.sub_le _ _

theorem watchdogTick_frame {start_ms now_ms : Int} (h : watchdogTick w cfg start_ms now_ms = some w') :
    HelperFrame w w' := by
  unfold watchdogTick at h
  split at h
  · split at h
    · cases h
      exact ⟨⟨rfl, rfl, rfl, fun _ => rfl, .inl rfl⟩, rfl, rfl, id⟩
    · cases h
      exact ⟨⟨rfl, rfl, rfl, id, .inl rfl⟩, rfl, rfl, id⟩
  · simp at h

theorem watchdogStop_frame (h : watchdogStop w = some w') : HelperFrame w w' := by
  unfold watchdogStop at h
  split at h
  · cases h
    exact ⟨⟨rfl, rfl, rfl, id, .inl rfl⟩, rfl, rfl, id⟩
  · simp at h

theorem emitterStop_frame (h : emitterStop w = some w') : HelperFrame w w' := by
  unfold emitterStop at h
  split at h
  · cases h
    exact ⟨⟨rfl, rfl, rfl, id, .inr rfl⟩, rfl, rfl, fun _ => rfl⟩
  · simp at h

/-- The steps of `main`, with what each has waited for. -/
inductive Teardown (w : World) : World → Prop where
  | cancel {result} : w.main = .running → w.ws.pc = .done result →
      Teardown w { w with main := .cancelling result }
  | close {result} : w.main = .cancelling result →
      Teardown w { w with cancelled := true, main := .closing result }
  | join {result} : w.main = .closing result →
      Teardown w { w with channel := w.channel.dropSender, main := .joining result }
  | flush {result} : w.main = .joining result → w.producer.pc = .done → w.emitter = false →
      Teardown w { w with main := .flushing result }
  | report {result} : w.main = .flushing result → Teardown w { w with main := .reporting result }
  | fail {result} (e : String) : w.main = .flushing result →
      Teardown w { w with main := .exited (.error e) }
  | exit {result} : w.main = .reporting result →
      Teardown w { w with final := some w.metrics, main := .exited (.ok result) }

theorem teardown_cases {flushed : Except String Unit} (h : teardown w flushed = some w') :
    Teardown w w' := by
  unfold teardown at h
  split at h
  · rename_i hmain
    split at h
    · rename_i result hws
      cases h
      exact .cancel hmain hws
    · simp at h
  · rename_i result hmain
    cases h
    exact .close hmain
  · rename_i result hmain
    cases h
    exact .join hmain
  · rename_i result hmain
    split at h
    · rename_i hproducer
      split at h
      · simp at h
      · rename_i htasks
        cases h
        simp only [Bool.or_eq_true, not_or, Bool.not_eq_true] at htasks
        exact .flush hmain hproducer htasks.1
    · simp at h
  · rename_i result hmain
    split at h
    · cases h
      exact .report hmain
    · rename_i e
      cases h
      exact .fail e hmain
  · rename_i result hmain
    cases h
    exact .exit hmain
  · simp at h

theorem Teardown.frame (h : Teardown w w') : Frame w w' := by
  cases h with
  | close => exact ⟨rfl, rfl, rfl, fun _ => rfl, .inl rfl⟩
  | join => exact ⟨rfl, rfl, rfl, id, .inr rfl⟩
  | _ => exact ⟨rfl, rfl, rfl, id, .inl rfl⟩

theorem helperFrame_of_step {a : Action} (hhelper : a.ofHelper = true)
    (h : step cfg w a = some w') : HelperFrame w w' := by
  cases a with
  | signal =>
      cases h
      exact ⟨⟨rfl, rfl, rfl, fun _ => rfl, .inl rfl⟩, rfl, rfl, id⟩
  | watchdogTick start_ms now_ms => exact watchdogTick_frame h
  | watchdogStop => exact watchdogStop_frame h
  | emitterStop => exact emitterStop_frame h
  | _ => simp [Action.ofHelper] at hhelper

end Main

/-! ### Whose step it is -/

/-- A step of the ws task, of the producer task, of a helper, or of `main`. -/
theorem step_cases {a : Action} (h : step cfg w a = some w') :
    (a.ofWs = true ∧ Ws.Frame w w') ∨ (a.ofProducer = true ∧ Producer.Frame w w') ∨
      Main.HelperFrame w w' ∨ Main.Teardown w w' := by
  by_cases hws : a.ofWs = true
  · exact .inl ⟨hws, Ws.frame_of_step hws h⟩
  by_cases hproducer : a.ofProducer = true
  · exact .inr (.inl ⟨hproducer, Producer.frame_of_step hproducer h⟩)
  by_cases hhelper : a.ofHelper = true
  · exact .inr (.inr (.inl (Main.helperFrame_of_step hhelper h)))
  cases a with
  | teardown flushed => exact .inr (.inr (.inr (Main.teardown_cases h)))
  | _ => simp [Action.ofWs, Action.ofProducer, Action.ofHelper] at hws hproducer hhelper

/-- Nothing un-cancels the token. -/
theorem cancelled_step {a : Action} (h : step cfg w a = some w') (hc : w.cancelled = true) :
    w'.cancelled = true := by
  obtain ⟨_, hf⟩ | ⟨_, hf⟩ | hf | htorn := step_cases h
  · rw [hf.cancelled]
    exact hc
  · rw [hf.cancelled]
    exact hc
  · exact hf.cancelled hc
  · exact htorn.frame.cancelled hc

end Lakehouse.Extractor
