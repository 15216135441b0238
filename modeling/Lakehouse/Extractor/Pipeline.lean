/-
The extractor process: `main.rs` with the tasks of `ws.rs` and `kafka.rs`.

A `World` holds the shared state (counters, shutdown token, channel) and the
control state of each task. An action is what one task does between two points
where another task can run: each arm a `select!` polls is an action of its own,
because the token can fire between two polls. The network answers through the
actions' arguments.

* `Ws` — `run`, `stream_frames` and `forward`.
* `Producer` — `producer_task` and `enqueue`.
* `MainPc` — the teardown of `main`.
* `read`, `finished`, `discarded`, `refused` are history variables no step
  reads: the messages `stream_frames` took from the socket, the payloads
  `enqueue` is done with, what was in the channel when its receiver went away,
  and the frames the closed channel refused.
-/

import Mathlib.Algebra.Group.Int.Defs
import Mathlib.Algebra.Group.Nat.Defs
import Mathlib.Data.List.Basic
import Lakehouse.Extractor.Metrics
import Lakehouse.Lib.Channel
import Lakehouse.Lib.Transition

namespace Lakehouse.Extractor

open Channels (Channel)

abbrev Bytes := List UInt8

/-- The settings of `Config` these tasks read. -/
structure Config where
  kafka_topic : String
  max_retries : Nat
  timeout_secs : Nat
  data_idle_timeout_secs : Nat
  backoff_max_secs : Nat
  channel_capacity : Nat
  max_inflight : Nat
deriving DecidableEq, Repr

/-! ### `ws.rs` -/

namespace Ws

inductive Error where
  | transient (msg : String)
  | fatal (msg : String)
deriving DecidableEq, Repr

/-- A message of the server. `frame` is any other kind. -/
inductive Message where
  | text (s : String)
  | binary (bytes : Bytes)
  | ping (bytes : Bytes)
  | pong (bytes : Bytes)
  | close
  | frame
deriving DecidableEq, Repr

/-- The payload `stream_frames` forwards for a message: the bytes of a text or
binary message. -/
def Message.payload? : Message → Option Bytes
  | .text s => some s.toUTF8.data.toList
  | .binary bytes => some bytes
  | _ => none

/-- What `read.next()` resolves to. -/
inductive ReadEvent where
  | message (m : Message)
  | failed (e : String)
  | ended
deriving DecidableEq, Repr

/-- The result of an attempt; `ok` is `Outcome::Shutdown`. -/
abbrev Result := Except Error Unit

inductive Pc where
  | loopHead
  | setup
  | pollShutdown
  | pollRead
  | pollTimer
  | forwarding (bytes : Bytes)
  | closing (result : Result)
  | attemptEnded (result : Result)
  | backingOff
  | done (result : Result)

end Ws

structure Ws where
  pc : Ws.Pc
  attempt : Nat
  backoff : Nat
  connected : Bool
  read : List Ws.Message
  refused : List Bytes

/-- The variables of `run` before its loop. -/
def Ws.new : Ws := ⟨.loopHead, 0, 1, false, [], []⟩

/-! ### `kafka.rs` -/

namespace Producer

/-- `FutureRecord::to(topic).payload(&payload)`. -/
structure FutureRecord where
  topic : String
  payload : Option Bytes
deriving DecidableEq, Repr

/-- The answer of `send_result`; both errors return the record. -/
inductive SendReply where
  | accepted
  | queueFull
  | failed (e : String)
deriving DecidableEq, Repr

/-- What a delivery future resolves to. -/
inductive DeliveryResult where
  | delivered
  | failed (e : String)
  | canceled
deriving DecidableEq, Repr

inductive Pc where
  | pollShutdown
  | pollInflight
  | pollRecv
  | enqueue (payload : Bytes)
  | done
deriving DecidableEq, Repr

/-- A payload `enqueue` is done with, and whether librdkafka accepted it. -/
structure Finished where
  payload : Bytes
  accepted : Bool
deriving DecidableEq, Repr

end Producer

structure Producer where
  pc : Producer.Pc
  draining : Bool
  inflight : List Bytes
  finished : List Producer.Finished
  discarded : List Bytes

/-- The variables of `producer_task` before its loop. -/
def Producer.new : Producer := ⟨.pollShutdown, false, [], [], []⟩

/-! ### `main.rs` -/

/-- Where `main` is after spawning the tasks. -/
inductive MainPc where
  | running
  | cancelling (result : Ws.Result)
  | closing (result : Ws.Result)
  | joining (result : Ws.Result)
  | flushing (result : Ws.Result)
  | reporting (result : Ws.Result)
  | exited (code : Except String Ws.Result)

structure World where
  metrics : Metrics
  /-- The shutdown token is cancelled. -/
  cancelled : Bool
  channel : Channel Bytes
  ws : Ws
  producer : Producer
  emitter : Bool
  watchdog : Bool
  main : MainPc
  /-- The `final metrics` snapshot, once it is logged. -/
  final : Option Metrics

/-- The world after `main` has spawned the tasks: `main`, `run` and the emitter
hold a sender each. -/
def World.new (cfg : Config) : World where
  metrics := Metrics.new
  cancelled := false
  channel := Channel.create cfg.channel_capacity 3
  ws := Ws.new
  producer := Producer.new
  emitter := true
  watchdog := decide (0 < cfg.data_idle_timeout_secs)
  main := .running
  final := none

/-! ### Steps of the ws task -/

namespace Ws

variable (cfg : Config) (w : World)

def goto (pc : Pc) : World := { w with ws := { w.ws with pc := pc } }

/-- `run` returns, and drops its sender. -/
def finish (result : Result) : World :=
  { w with ws := { w.ws with pc := .done result }, channel := w.channel.dropSender }

/-- The head of the loop of `run`. -/
def startAttempt : Option World :=
  match w.ws.pc with
  | .loopHead =>
      some { w with ws := { w.ws with
        pc := .setup, attempt := w.ws.attempt + 1, connected := false } }
  | _ => none

/-- `setup_ws` returns. -/
def setup (outcome : Result) : Option World :=
  match w.ws.pc with
  | .setup =>
      match outcome with
      | .ok () =>
          some { w with
            ws := { w.ws with pc := .pollShutdown, connected := true }
            metrics := w.metrics.connected true }
      | .error e => some (goto w (.attemptEnded (.error e)))
  | _ => none

/-- First arm of the biased `select!` of `stream_frames`. -/
def pollShutdown : Option World :=
  match w.ws.pc with
  | .pollShutdown => some (goto w (if w.cancelled then .closing (.ok ()) else .pollRead))
  | _ => none

/-- What `stream_frames` does with a message it has read; the head of `forward`
counts a payload. -/
def handle (m : Message) (now_ms : Int) : World :=
  let w := { w with ws := { w.ws with read := w.ws.read ++ [m] } }
  match m.payload? with
  | some bytes => { goto w (.forwarding bytes) with metrics := w.metrics.received now_ms }
  | none =>
      match m with
      | .close => goto w (.attemptEnded (.error (.transient "server closed connection")))
      | _ => goto w .pollShutdown

/-- Second arm: the next event of the socket, if there is one. -/
def pollRead (event : Option ReadEvent) (now_ms : Int) : Option World :=
  match w.ws.pc with
  | .pollRead =>
      match event with
      | none => some (goto w .pollTimer)
      | some (.message m) => some (handle w m now_ms)
      | some (.failed e) => some (goto w (.attemptEnded (.error (.transient ("ws recv: " ++ e)))))
      | some .ended => some (goto w (.attemptEnded (.error (.transient "stream ended"))))
  | _ => none

/-- Third arm: the idle timer. If no arm is ready the task waits and polls them
all again. -/
def pollTimer (elapsed : Bool) : Option World :=
  match w.ws.pc with
  | .pollTimer =>
      some (goto w (if elapsed then
        .closing (.error (.transient ("no message in " ++ toString cfg.timeout_secs ++ "s")))
      else .pollShutdown))
  | _ => none

/-- `tx.send(bytes).await`; there is no step while the channel is full. -/
def send : Option World :=
  match w.ws.pc with
  | .forwarding bytes =>
      match w.channel.send bytes with
      | .sent channel => some { goto w .pollShutdown with channel := channel }
      | .full => none
      | .closed =>
          some { w with ws := { w.ws with
            pc := .attemptEnded (.error (.fatal "producer channel closed"))
            refused := w.ws.refused ++ [bytes] } }
  | _ => none

/-- `write.send(Message::Close(None)).await`, whatever it returns. -/
def close : Option World :=
  match w.ws.pc with
  | .closing result => some (goto w (.attemptEnded result))
  | _ => none

/-- The rest of the loop body of `run`, up to the backoff. -/
def endAttempt : Option World :=
  match w.ws.pc with
  | .attemptEnded result =>
      let ws := if w.ws.connected then { w.ws with backoff := 1, attempt := 0 } else w.ws
      let w := { w with ws := ws, metrics := w.metrics.connected false }
      match result with
      | .ok () => some (finish w (.ok ()))
      | .error (.fatal msg) => some (finish w (.error (.fatal msg)))
      | .error (.transient msg) =>
          let w := { w with metrics := w.metrics.error }
          if cfg.max_retries ≤ w.ws.attempt then
            some (finish w (.error (.transient ("max retries exhausted: " ++ msg))))
          else some (goto w .backingOff)
  | _ => none

/-- The `select!` of the backoff: the sleep ends, or the token fires. -/
def backOff (elapsed : Bool) : Option World :=
  match w.ws.pc with
  | .backingOff =>
      if elapsed then
        some { w with ws := { w.ws with
          pc := .loopHead, backoff := min (w.ws.backoff * 2) cfg.backoff_max_secs } }
      else if w.cancelled then some (finish w (.ok ()))
      else none
  | _ => none

end Ws

/-! ### Steps of the producer task -/

namespace Producer

variable (cfg : Config) (w : World)

def goto (pc : Pc) : World := { w with producer := { w.producer with pc := pc } }

/-- The task ends and drops its receiver. -/
def finish : World :=
  { w with
    producer := { w.producer with pc := .done, discarded := w.channel.items }
    channel := w.channel.dropReceiver }

/-- The head of the biased `select!`: the `else` arm if every other arm is
disabled, else the first arm. -/
def pollShutdown : Option World :=
  match w.producer.pc with
  | .pollShutdown =>
      if w.producer.draining then
        if w.producer.inflight.isEmpty then some (finish w) else some (goto w .pollInflight)
      else if w.cancelled then some { w with producer := { w.producer with draining := true } }
      else some (goto w .pollInflight)
  | _ => none

/-- A delivery that resolved is counted and leaves `inflight`. -/
def countDelivery (index : Nat) (result : DeliveryResult) (now_ms : Int) : World :=
  { w with
    metrics := match result with
      | .delivered => w.metrics.sent now_ms
      | .failed _ => w.metrics.failed
      | .canceled => w.metrics.failed
    producer := { w.producer with
      pc := .pollShutdown, inflight := w.producer.inflight.eraseIdx index } }

/-- The loop ends when the last delivery of a draining task has resolved. -/
def breakIfDrained : World :=
  if w.producer.draining && w.producer.inflight.isEmpty then finish w else w

/-- Second arm: some delivery in flight has resolved, or none has. -/
def pollInflight (ready : Option (Nat × DeliveryResult)) (now_ms : Int) : Option World :=
  match w.producer.pc with
  | .pollInflight =>
      match ready with
      | some (index, result) =>
          if index < w.producer.inflight.length then
            some (breakIfDrained (countDelivery w index result now_ms))
          else none
      | none => some (goto w .pollRecv)
  | _ => none

/-- Third arm: the next payload, guarded. If no arm is ready the task waits and
polls them all again. -/
def pollRecv : Option World :=
  match w.producer.pc with
  | .pollRecv =>
      if !w.producer.draining && decide (w.producer.inflight.length < cfg.max_inflight) then
        match w.channel.recv with
        | .item payload channel => some { goto w (.enqueue payload) with channel := channel }
        | .empty => some (goto w .pollShutdown)
        | .closed =>
            let w := { w with producer := { w.producer with draining := true } }
            if w.producer.inflight.isEmpty then some (finish w) else some (goto w .pollShutdown)
      else some (goto w .pollShutdown)
  | _ => none

/-- The record `enqueue` builds for a payload. -/
def record (payload : Bytes) : FutureRecord := ⟨cfg.kafka_topic, some payload⟩

/-- One iteration of the loop of `enqueue`. After `QueueFull` the payload is
rebuilt from the returned record. -/
def sendResult (reply : SendReply) : Option World :=
  match w.producer.pc with
  | .enqueue payload =>
      let rec_ := record cfg payload
      match reply with
      | .accepted =>
          some { w with producer := { w.producer with
            pc := .pollShutdown
            inflight := w.producer.inflight ++ [rec_.payload.getD []]
            finished := w.producer.finished ++ [⟨rec_.payload.getD [], true⟩] } }
      | .queueFull => some (goto w (.enqueue (rec_.payload.getD [])))
      | .failed _ =>
          some { w with
            metrics := w.metrics.failed
            producer := { w.producer with
              pc := .pollShutdown
              finished := w.producer.finished ++ [⟨rec_.payload.getD [], false⟩] } }
  | _ => none

end Producer

/-! ### Steps of the other tasks and of `main` -/

namespace Main

variable (w : World)

/-- The signal handler, or the watchdog when its window has passed without a
data message. -/
def cancel : World := { w with cancelled := true }

/-- The watchdog's tick: it cancels and ends, or goes on. -/
def watchdogTick (cfg : Config) (start_ms now_ms : Int) : Option World :=
  if w.watchdog then
    if w.metrics.idle start_ms (cfg.data_idle_timeout_secs * 1000) now_ms then
      some { w with cancelled := true, watchdog := false }
    else some w
  else none

/-- The watchdog and the emitter end on the token. -/
def watchdogStop : Option World :=
  if w.watchdog && w.cancelled then some { w with watchdog := false } else none

def emitterStop : Option World :=
  if w.emitter && w.cancelled then
    some { w with emitter := false, channel := w.channel.dropSender }
  else none

/-- `main` goes on once `ws::run` has returned: `shutdown.cancel()`,
`drop(tx)`, `join!(prod_task, emitter)` and the watchdog, `flush`, and the
`final metrics` event. -/
def teardown (flushed : Except String Unit) : Option World :=
  match w.main with
  | .running =>
      match w.ws.pc with
      | .done result => some { w with main := .cancelling result }
      | _ => none
  | .cancelling result => some { w with cancelled := true, main := .closing result }
  | .closing result => some { w with channel := w.channel.dropSender, main := .joining result }
  | .joining result =>
      match w.producer.pc with
      | .done => if w.emitter || w.watchdog then none else some { w with main := .flushing result }
      | _ => none
  | .flushing result =>
      match flushed with
      | .ok () => some { w with main := .reporting result }
      | .error e => some { w with main := .exited (.error e) }
  | .reporting result => some { w with final := some w.metrics, main := .exited (.ok result) }
  | .exited _ => none

end Main

/-! ### Runs -/

inductive Action where
  | startAttempt
  | setup (outcome : Ws.Result)
  | wsPollShutdown
  | wsPollRead (event : Option Ws.ReadEvent) (now_ms : Int)
  | wsPollTimer (elapsed : Bool)
  | send
  | close
  | endAttempt
  | backOff (elapsed : Bool)
  | prodPollShutdown
  | prodPollInflight (ready : Option (Nat × Producer.DeliveryResult)) (now_ms : Int)
  | prodPollRecv
  | sendResult (reply : Producer.SendReply)
  | signal
  | watchdogTick (start_ms now_ms : Int)
  | watchdogStop
  | emitterStop
  | teardown (flushed : Except String Unit)

def step (cfg : Config) (w : World) : Action → Option World
  | .startAttempt => Ws.startAttempt w
  | .setup outcome => Ws.setup w outcome
  | .wsPollShutdown => Ws.pollShutdown w
  | .wsPollRead event now_ms => Ws.pollRead w event now_ms
  | .wsPollTimer elapsed => Ws.pollTimer cfg w elapsed
  | .send => Ws.send w
  | .close => Ws.close w
  | .endAttempt => Ws.endAttempt cfg w
  | .backOff elapsed => Ws.backOff cfg w elapsed
  | .prodPollShutdown => Producer.pollShutdown w
  | .prodPollInflight ready now_ms => Producer.pollInflight w ready now_ms
  | .prodPollRecv => Producer.pollRecv cfg w
  | .sendResult reply => Producer.sendResult cfg w reply
  | .signal => some (Main.cancel w)
  | .watchdogTick start_ms now_ms => Main.watchdogTick w cfg start_ms now_ms
  | .watchdogStop => Main.watchdogStop w
  | .emitterStop => Main.emitterStop w
  | .teardown flushed => Main.teardown w flushed

def system (cfg : Config) : Transition.System World Action :=
  ⟨fun w => w = World.new cfg, step cfg⟩

end Lakehouse.Extractor
