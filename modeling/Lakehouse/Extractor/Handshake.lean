/-
`setup_ws`: the handshake of an attempt.

A `Peer` is the server's side of a connection, with what has happened on it so
far. Each step of the handshake reads one text frame, whose objects are all
parsed as control frames, and decides on the first of them.

* `readControl`, `classifyFrame`, `judge` — what is made of one message.
* `setupWs` — `setup_ws`.
* `setupWs_course` — everything it can do.
-/

import Lakehouse.Extractor.Reconnect
import Lakehouse.Lib.Effects
import Lakehouse.Lib.Json
import Lakehouse.Lib.Result

namespace Lakehouse.Extractor

namespace Ws

/-! ### Control frames -/

structure ControlFrame where
  typ : String
  msg : Option String
  code : Option Int
  bars : Option (List String)
deriving DecidableEq, Repr

/-- The fields of a `ControlFrame` read so far. -/
structure Fields where
  typ : Option String
  msg : Option (Option String)
  code : Option (Option Int)
  bars : Option (Option (List String))

namespace ControlFrame

/-- `String`. -/
def string : Json → Option String
  | .str s => some s
  | _ => none

/-- `Option<T>`. -/
def optional {α : Type} (read : Json → Option α) : Json → Option (Option α)
  | .null => some none
  | value => (read value).map some

/-- `i64`. -/
def integer : Json → Option Int
  | .int n => if -2 ^ 63 ≤ n ∧ n < 2 ^ 63 then some n else none
  | _ => none

/-- `Vec<String>`. -/
def strings : Json → Option (List String)
  | .arr items => items.mapM string
  | _ => none

/-- A field that is there already is a duplicate. -/
def unread {α : Type} (field : Option α) (value : Option α) : Option (Option α) :=
  match field with
  | some _ => none
  | none => value.map some

/-- One member of an object. Unknown ones are ignored. -/
def visit (fields : Fields) (member : String × Json) : Option Fields :=
  if member.1 = "T" then do
    let typ ← unread fields.typ (string member.2)
    return { fields with typ }
  else if member.1 = "msg" then do
    let msg ← unread fields.msg (optional string member.2)
    return { fields with msg }
  else if member.1 = "code" then do
    let code ← unread fields.code (optional integer member.2)
    return { fields with code }
  else if member.1 = "bars" then do
    let bars ← unread fields.bars (optional strings member.2)
    return { fields with bars }
  else some fields

/-- All but `T` have a default. -/
def build (fields : Fields) : Option ControlFrame :=
  fields.typ.map fun typ =>
    ⟨typ, fields.msg.getD none, fields.code.getD none, fields.bars.getD none⟩

/-- The fields in their order, those at the end being optional. -/
def positional (items : List Json) : Option ControlFrame :=
  match items with
  | typ :: rest => do
      let typ ← string typ
      let msg ← optional string (rest.getD 0 .null)
      let code ← optional integer (rest.getD 1 .null)
      let bars ← optional strings (rest.getD 2 .null)
      if rest.length ≤ 3 then return ⟨typ, msg, code, bars⟩ else none
  | [] => none

/-- The derived `Deserialize`. -/
def deserialize : Json → Option ControlFrame
  | .obj members => do
      let fields ← members.foldlM visit ⟨none, none, none, none⟩
      build fields
  | .arr items => positional items
  | _ => none

end ControlFrame

/-- What the crates around the handshake do. -/
structure Runtime where
  /-- `serde_json`'s reading of a text. The members of an object are all there, in
  their order. -/
  fromStr : String → Except String Json
  /-- The error where an element is no `ControlFrame`. -/
  invalidFrame : String → String
  /-- `serde_json::to_string`. -/
  toText : List String → Except String String
  /-- `{other:?}`. -/
  debug : Message → String

/-- `serde_json::from_str::<Vec<ControlFrame>>(text)`. -/
def Runtime.controlFrames (rt : Runtime) (text : String) : Except String (List ControlFrame) :=
  match rt.fromStr text with
  | .error e => .error e
  | .ok (.arr items) =>
      match items.mapM ControlFrame.deserialize with
      | some frames => .ok frames
      | none => .error (rt.invalidFrame text)
  | .ok _ => .error (rt.invalidFrame text)

/-- `next_control`, once `read.next()` has resolved. -/
def readControl (rt : Runtime) : ReadEvent → Except Error ControlFrame
  | .ended => .error (.transient "stream ended before control frame")
  | .failed e => .error (.transient ("ws recv: " ++ e))
  | .message (.text text) =>
      match rt.controlFrames text with
      | .error e => .error (.transient ("parse control frame: " ++ e))
      | .ok [] => .error (.transient "empty control frame array")
      | .ok (frame :: _) => .ok frame
  | .message other => .error (.transient ("expected text frame, got " ++ rt.debug other))

inductive FrameClass where
  | matched
  | fatal (msg : String)
  | mismatch (msg : String)
deriving DecidableEq, Repr

/-- `classify_frame`. -/
def classifyFrame (frame : ControlFrame) (wantType : String) (wantMsg : Option String) :
    FrameClass :=
  if frame.typ = "error" then
    .fatal ("server error " ++ toString (frame.code.getD (-1)) ++ ": " ++ frame.msg.getD "")
  else if frame.typ ≠ wantType then
    .mismatch ("expected T=" ++ wantType ++ ", got T=" ++ frame.typ)
  else
    match wantMsg with
    | none => .matched
    | some expected =>
        if frame.msg.getD "" ≠ expected then
          .mismatch ("expected msg=" ++ expected ++ ", got msg=" ++ frame.msg.getD "")
        else .matched

/-- What `expect` makes of the message it awaited. -/
def judge (rt : Runtime) (wantType : String) (wantMsg : Option String) (event : ReadEvent) :
    Except Error ControlFrame := do
  let frame ← readControl rt event
  match classifyFrame frame wantType wantMsg with
  | .matched => return frame
  | .fatal msg => .error (.fatal msg)
  | .mismatch msg => .error (.transient msg)

/-! ### The handshake -/

/-- What `setup_ws` sends. -/
inductive Sent where
  | auth (text : String)
  | subscribe (text : String)
deriving DecidableEq, Repr

def Sent.name : Sent → String
  | .auth _ => "auth"
  | .subscribe _ => "subscribe"

inductive Step where
  | received (event : ReadEvent)
  | sent (message : Sent)
deriving DecidableEq, Repr

/-- The other side of an attempt: what `connect_async` and each `write.send`
return, and what each `read.next()` resolves to until nothing more arrives in
time. -/
structure Peer where
  connection : Except String Unit
  answers : List ReadEvent
  replies : List (Except String Unit)
  steps : List Step

abbrev Setup := Effects.Call Peer Error

def connect : Setup Unit :=
  .of fun peer => (peer.connection.mapError fun e => .transient ("connect: " ++ e), peer)

/-- `write.send(message)`. -/
def sendMessage (message : Sent) : Setup Unit :=
  .of fun peer =>
    let reply := peer.replies.headD (.ok ())
    (reply.mapError fun e => .transient ("send " ++ message.name ++ ": " ++ e),
      { peer with replies := peer.replies.tail, steps := peer.steps ++ [.sent message] })

/-- `expect`. -/
def expect (rt : Runtime) (wantType : String) (wantMsg : Option String) : Setup ControlFrame :=
  .of fun peer =>
    match peer.answers with
    | [] => (.error (.transient ("timed out waiting for " ++ wantType)), peer)
    | event :: answers =>
        (judge rt wantType wantMsg event,
          { peer with answers, steps := peer.steps ++ [.received event] })

/-- The settings of `Config` the handshake reads. -/
structure Account where
  alpacaKey : String
  alpacaSecret : String
  symbols : List String
deriving DecidableEq, Repr

def Account.auth (account : Account) : Sent :=
  .auth ("\x7b\"action\":\"auth\",\"key\":\"" ++ account.alpacaKey ++ "\",\"secret\":\"" ++
    account.alpacaSecret ++ "\"\x7d")

def subscription (bars : String) : Sent :=
  .subscribe ("\x7b\"action\":\"subscribe\",\"bars\":" ++ bars ++ "\x7d")

/-- `serde_json::to_string(&cfg.symbols)`. -/
def serializeSymbols (rt : Runtime) (account : Account) : Setup String :=
  .of fun peer =>
    ((rt.toText account.symbols).mapError fun e => .fatal ("serialize symbols: " ++ e), peer)

/-- `setup_ws`. -/
def setupWs (rt : Runtime) (account : Account) : Setup Unit := do
  connect
  let _ ← expect rt "success" (some "connected")
  sendMessage account.auth
  let _ ← expect rt "success" (some "authenticated")
  let bars ← serializeSymbols rt account
  sendMessage (subscription bars)
  let _ ← expect rt "subscription" none
  return ()

/-! ### What happens on the connection -/

section Course

variable (rt : Runtime)

/-- The message is what the handshake waited for at some point. -/
inductive Expected (event : ReadEvent) : Prop where
  | connected (frame : ControlFrame) :
      judge rt "success" (some "connected") event = .ok frame → Expected event
  | authenticated (frame : ControlFrame) :
      judge rt "success" (some "authenticated") event = .ok frame → Expected event
  | subscribed (frame : ControlFrame) : judge rt "subscription" none event = .ok frame →
      Expected event

/-- A message among the steps is the success that is waited for. -/
def Granted (steps : List Step) (msg : String) : Prop :=
  ∃ event frame, .received event ∈ steps ∧ judge rt "success" (some msg) event = .ok frame

/-- What is sent was granted before. -/
structure InOrder (steps : List Step) : Prop where
  auth : ∀ before text, before ++ [.sent (.auth text)] <+: steps → Granted rt before "connected"
  subscribe : ∀ before text, before ++ [.sent (.subscribe text)] <+: steps →
    Granted rt before "authenticated"

/-- A handshake that goes on: every message was the expected one. -/
structure Going (steps : List Step) : Prop where
  inOrder : InOrder rt steps
  expected : ∀ event, .received event ∈ steps → Expected rt event

/-- A handshake that has ended: a message that was not the expected one is its
result. -/
structure Course (result : Result) (steps : List Step) : Prop where
  inOrder : InOrder rt steps
  decided : ∀ event, .received event ∈ steps → Expected rt event ∨
    ∃ wantType wantMsg e, judge rt wantType wantMsg event = .error e ∧ result = .error e

variable {rt} {steps : List Step}

theorem Going.start : Going rt [] := by
  constructor
  · constructor <;> simp
  · simp

theorem InOrder.received (h : InOrder rt steps) (event : ReadEvent) :
    InOrder rt (steps ++ [.received event]) := by
  constructor
  · intro before text hprefix
    rcases List.prefix_concat_iff.mp hprefix with heq | hold
    · exact absurd (List.append_inj' heq rfl).2 (by simp)
    · exact h.auth before text hold
  · intro before text hprefix
    rcases List.prefix_concat_iff.mp hprefix with heq | hold
    · exact absurd (List.append_inj' heq rfl).2 (by simp)
    · exact h.subscribe before text hold

theorem Going.received (h : Going rt steps) {event : ReadEvent} (hevent : Expected rt event) :
    Going rt (steps ++ [.received event]) := by
  refine ⟨h.inOrder.received event, fun other hmem => ?_⟩
  rcases List.mem_append.mp hmem with hold | hnew
  · exact h.expected other hold
  · obtain rfl : other = event := by simpa using hnew
    exact hevent

/-- A message that is not the expected one ends the handshake. -/
theorem Going.refused (h : Going rt steps) {event : ReadEvent} {wantType : String}
    {wantMsg : Option String} {e : Error} (hevent : judge rt wantType wantMsg event = .error e) :
    Course rt (.error e) (steps ++ [.received event]) := by
  refine ⟨h.inOrder.received event, fun other hmem => ?_⟩
  rcases List.mem_append.mp hmem with hold | hnew
  · exact .inl (h.expected other hold)
  · obtain rfl : other = event := by simpa using hnew
    exact .inr ⟨wantType, wantMsg, e, hevent, rfl⟩

theorem Going.ended (h : Going rt steps) (result : Result) : Course rt result steps :=
  ⟨h.inOrder, fun event hmem => .inl (h.expected event hmem)⟩

theorem Going.sentAuth (h : Going rt steps) (hgranted : Granted rt steps "connected")
    (text : String) : Going rt (steps ++ [.sent (.auth text)]) := by
  refine ⟨⟨fun before other hprefix => ?_, fun before other hprefix => ?_⟩, fun event hmem => ?_⟩
  · rcases List.prefix_concat_iff.mp hprefix with heq | hold
    · rwa [(List.append_inj' heq rfl).1]
    · exact h.inOrder.auth before other hold
  · rcases List.prefix_concat_iff.mp hprefix with heq | hold
    · exact absurd (List.append_inj' heq rfl).2 (by simp)
    · exact h.inOrder.subscribe before other hold
  · exact h.expected event (by simpa using hmem)

theorem Going.sentSubscribe (h : Going rt steps) (hgranted : Granted rt steps "authenticated")
    (text : String) : Going rt (steps ++ [.sent (.subscribe text)]) := by
  refine ⟨⟨fun before other hprefix => ?_, fun before other hprefix => ?_⟩, fun event hmem => ?_⟩
  · rcases List.prefix_concat_iff.mp hprefix with heq | hold
    · exact absurd (List.append_inj' heq rfl).2 (by simp)
    · exact h.inOrder.auth before other hold
  · rcases List.prefix_concat_iff.mp hprefix with heq | hold
    · rwa [(List.append_inj' heq rfl).1]
    · exact h.inOrder.subscribe before other hold
  · exact h.expected event (by simpa using hmem)

/-! ### Every handshake -/

/-- The handshake from `peer` on ends as it may. -/
abbrev RunsCourse (rt : Runtime) (x : Setup Unit) (peer : Peer) : Prop :=
  Effects.Ends x peer fun result peer' => Course rt result peer'.steps

variable {peer : Peer}

theorem connect_then {rest : Setup Unit} (h : Going rt peer.steps)
    (hrest : RunsCourse rt rest peer) : RunsCourse rt (connect >>= fun _ => rest) peer := by
  rw [RunsCourse, Effects.ends_bind, connect, Effects.ends_of]
  cases peer.connection with
  | error e => exact h.ended _
  | ok _ => exact hrest

theorem expect_then {wantType : String} {wantMsg : Option String} {rest : ControlFrame → Setup Unit}
    (h : Going rt peer.steps)
    (hrest : ∀ event frame peer', judge rt wantType wantMsg event = .ok frame →
      peer'.steps = peer.steps ++ [.received event] → RunsCourse rt (rest frame) peer') :
    RunsCourse rt (expect rt wantType wantMsg >>= rest) peer := by
  rw [RunsCourse, Effects.ends_bind, expect, Effects.ends_of]
  cases peer.answers with
  | nil => exact h.ended _
  | cons event answers =>
      dsimp only
      cases hevent : judge rt wantType wantMsg event with
      | error e => exact h.refused hevent
      | ok frame => exact hrest event frame _ hevent rfl

theorem sendMessage_then {message : Sent} {rest : Setup Unit}
    (h : Going rt (peer.steps ++ [.sent message]))
    (hrest : ∀ peer', peer'.steps = peer.steps ++ [.sent message] → RunsCourse rt rest peer') :
    RunsCourse rt (sendMessage message >>= fun _ => rest) peer := by
  rw [RunsCourse, Effects.ends_bind, sendMessage, Effects.ends_of]
  dsimp only
  cases peer.replies.headD (.ok ()) with
  | error e => exact h.ended _
  | ok _ => exact hrest _ rfl

theorem serializeSymbols_then {account : Account} {rest : String → Setup Unit}
    (h : Going rt peer.steps) (hrest : ∀ bars, RunsCourse rt (rest bars) peer) :
    RunsCourse rt (serializeSymbols rt account >>= rest) peer := by
  rw [RunsCourse, Effects.ends_bind, serializeSymbols, Effects.ends_of]
  cases rt.toText account.symbols with
  | error e => exact h.ended _
  | ok bars => exact hrest bars

theorem setupWs_course (account : Account) (h : Going rt peer.steps) :
    RunsCourse rt (setupWs rt account) peer := by
  refine connect_then h ?_
  refine expect_then h fun greeting frame peer hgreeting hsteps => ?_
  have hgoing := h.received (.connected frame hgreeting)
  rw [← hsteps] at hgoing
  have hconnected : Granted rt peer.steps "connected" :=
    ⟨greeting, frame, by simp [hsteps], hgreeting⟩
  have hgoing := hgoing.sentAuth hconnected
  refine sendMessage_then (hgoing _) fun peer hsteps => ?_
  have hgoing := hsteps ▸ hgoing _
  refine expect_then hgoing fun granted frame peer hgranted hsteps => ?_
  have hgoing := hgoing.received (.authenticated frame hgranted)
  rw [← hsteps] at hgoing
  have hauthenticated : Granted rt peer.steps "authenticated" :=
    ⟨granted, frame, by simp [hsteps], hgranted⟩
  refine serializeSymbols_then hgoing fun bars => ?_
  have hgoing := hgoing.sentSubscribe hauthenticated
  refine sendMessage_then (hgoing _) fun peer hsteps => ?_
  have hgoing := hsteps ▸ hgoing _
  refine expect_then hgoing fun subscribed frame peer hsubscribed hsteps => ?_
  have hgoing := hgoing.received (.subscribed frame hsubscribed)
  rw [← hsteps] at hgoing
  exact hgoing.ended _

end Course

/-- What has been received is what the peer sends. -/
def Peer.Within (all : List ReadEvent) (peer : Peer) : Prop :=
  (∀ event ∈ peer.answers, event ∈ all) ∧ ∀ event, .received event ∈ peer.steps → event ∈ all

theorem keeps_within (rt : Runtime) (account : Account) (all : List ReadEvent) :
    Effects.Keeps (Peer.Within all) (setupWs rt account) := by
  have hexpect (wantType : String) (wantMsg : Option String) :
      Effects.Keeps (Peer.Within all) (expect rt wantType wantMsg) := by
    intro peer h
    rw [expect, Effects.ends_of]
    cases hanswers : peer.answers with
    | nil => exact h
    | cons event answers =>
        refine ⟨fun other hother => h.1 other (by simp [hanswers, hother]), fun other hother => ?_⟩
        rcases List.mem_append.mp hother with hold | hnew
        · exact h.2 other hold
        · obtain rfl : other = event := by simpa using hnew
          exact h.1 other (by simp [hanswers])
  have hsend (message : Sent) : Effects.Keeps (Peer.Within all) (sendMessage message) := by
    intro peer h
    refine ⟨h.1, fun event hevent => h.2 event ?_⟩
    rcases List.mem_append.mp hevent with hold | hnew
    · exact hold
    · simp at hnew
  refine Effects.keeps_bind (fun _ h => h) fun _ => ?_
  refine Effects.keeps_bind (hexpect _ _) fun _ => ?_
  refine Effects.keeps_bind (hsend _) fun _ => ?_
  refine Effects.keeps_bind (hexpect _ _) fun _ => ?_
  refine Effects.keeps_bind (fun _ h => h) fun _ => ?_
  refine Effects.keeps_bind (hsend _) fun _ => ?_
  exact Effects.keeps_bind (hexpect _ _) fun _ => Effects.keeps_pure _ _

end Ws

end Lakehouse.Extractor
