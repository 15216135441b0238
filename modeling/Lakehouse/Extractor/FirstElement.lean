/-
What the handshake hears of the frames it reads.

Its decision is about the first object of a frame. What stands behind it is only
parsed: an error there does not end `run`, and a bar there is forgotten.

* `ControlFrame.of_deserialize` — a control frame has the type and message of its object.
* `givesUp_fatal` — a fatal end of `setup_ws` is the end of `run`.
* `hearsFirst` — what is heard.
* `Server.batched_overlooked` — what is not.
-/

import Lakehouse.Extractor.Handshake
import Lakehouse.Lib.JsonReader

namespace Lakehouse.Extractor

namespace Ws

/-! ### Objects of a frame -/

abbrev Members := List (String × Json)

/-- The objects of a text frame. -/
def Runtime.objects (rt : Runtime) (text : String) : List Members :=
  match rt.fromStr text with
  | .ok (.arr items) => items.filterMap Json.fields
  | _ => []

def HasTag (members : Members) (tag : String) : Prop := Json.lookup "T" members = some (.str tag)

def HasMsg (members : Members) (msg : String) : Prop := Json.lookup "msg" members = some (.str msg)

theorem HasTag.unique {members : Members} {tag other : String} (h : HasTag members tag)
    (hother : HasTag members other) : tag = other :=
  Json.str.inj (Option.some.inj (h.symm.trans hother))

/-- The text is an array of one or more tagged objects. -/
def TaggedFrame (rt : Runtime) (text : String) : Prop :=
  ∃ first rest, rt.fromStr text = .ok (.arr ((first :: rest).map .obj)) ∧
    ∀ members ∈ first :: rest, ∃ tag, HasTag members tag

theorem TaggedFrame.objects {rt : Runtime} {text : String} (h : TaggedFrame rt text) :
    ∃ first rest, rt.objects text = first :: rest ∧
      rt.fromStr text = .ok (.arr ((first :: rest).map .obj)) := by
  obtain ⟨first, rest, htext, _⟩ := h
  refine ⟨first, rest, ?_, htext⟩
  simp only [Runtime.objects, htext, List.filterMap_map]
  exact List.filterMap_some

theorem TaggedFrame.fromStr {rt : Runtime} {text : String} (h : TaggedFrame rt text)
    {first : Members} {rest : List Members} (hobjects : rt.objects text = first :: rest) :
    rt.fromStr text = .ok (.arr ((first :: rest).map .obj)) := by
  obtain ⟨first', rest', hobjects', htext⟩ := h.objects
  rwa [← hobjects', hobjects] at htext

/-! ### What an object deserializes to -/

namespace ControlFrame

/-- A field is set to what its value is read as, for the first time. -/
theorem unread_bind {α : Type} {field value : Option α} {set : Option α → Fields} {fields' : Fields}
    (h : (unread field value >>= fun read => pure (set read)) = some fields') :
    field = none ∧ ∃ a, value = some a ∧ fields' = set (some a) := by
  obtain ⟨read, hread, hset⟩ := Option.bind_eq_some_iff.mp h
  obtain rfl := Option.some.inj hset
  unfold unread at hread
  split at hread
  · cases hread
  · obtain ⟨a, rfl, rfl⟩ := Option.map_eq_some_iff.mp hread
    exact ⟨rfl, a, rfl, rfl⟩

/-- What the members of an object make of one field: it comes from the first
member of its name, and there is no other. -/
structure FieldRead {α : Type} (name : String) (parse : Json → Option α) (before after : Option α)
    (members : Members) : Prop where
  kept : ∀ a, before = some a → after = some a ∧ Json.lookup name members = none
  found : before = none → ∀ a, after = some a →
    ∃ value, Json.lookup name members = some value ∧ parse value = some a

/-- Members of the name set the field once, and others leave it. -/
theorem fieldRead_of_visit {α : Type} {name : String} {parse : Json → Option α}
    {get : Fields → Option α}
    (hself : ∀ fields value fields', visit fields (name, value) = some fields' →
      get fields = none ∧ ∃ a, parse value = some a ∧ get fields' = some a)
    (hother : ∀ fields key value fields', key ≠ name →
      visit fields (key, value) = some fields' → get fields' = get fields)
    {before after : Fields} {members : Members}
    (h : members.foldlM visit before = some after) :
    FieldRead name parse (get before) (get after) members := by
  induction members generalizing before with
  | nil =>
      obtain rfl : before = after := Option.some.inj h
      exact ⟨fun a ha => ⟨ha, rfl⟩, fun hnone a ha => absurd (hnone.symm.trans ha) (by simp)⟩
  | cons member members ih =>
      obtain ⟨key, value⟩ := member
      rw [List.foldlM_cons] at h
      obtain ⟨middle, hvisit, hrest⟩ := Option.bind_eq_some_iff.mp h
      have hread := ih hrest
      by_cases hkey : key = name
      · subst hkey
        obtain ⟨hnone, a, hparse, hmiddle⟩ := hself before value middle hvisit
        obtain ⟨hafter, _⟩ := hread.kept a hmiddle
        constructor
        · intro b hb
          exact absurd (hnone.symm.trans hb) (by simp)
        · intro _ b hb
          obtain rfl := Option.some.inj (hafter.symm.trans hb)
          exact ⟨value, Json.lookup_cons_self .., hparse⟩
      · rw [hother before key value middle hkey hvisit] at hread
        constructor
        · intro a ha
          rw [Json.lookup_cons_ne hkey]
          exact hread.kept a ha
        · intro hnone a ha
          rw [Json.lookup_cons_ne hkey]
          exact hread.found hnone a ha

theorem visit_typ_self (fields : Fields) (value : Json) (fields' : Fields)
    (h : visit fields ("T", value) = some fields') :
    fields.typ = none ∧ ∃ a, string value = some a ∧ fields'.typ = some a := by
  obtain ⟨hnone, a, hvalue, rfl⟩ := unread_bind (h : (unread fields.typ (string value) >>=
    fun typ => pure { fields with typ }) = some fields')
  exact ⟨hnone, a, hvalue, rfl⟩

theorem visit_msg_self (fields : Fields) (value : Json) (fields' : Fields)
    (h : visit fields ("msg", value) = some fields') :
    fields.msg = none ∧ ∃ a, optional string value = some a ∧ fields'.msg = some a := by
  obtain ⟨hnone, a, hvalue, rfl⟩ := unread_bind
    (h : (unread fields.msg (optional string value) >>=
      fun msg => pure { fields with msg }) = some fields')
  exact ⟨hnone, a, hvalue, rfl⟩

/-- A member sets the field of its own name, if there is one. -/
theorem visit_other {fields fields' : Fields} {key : String} {value : Json}
    (h : visit fields (key, value) = some fields') :
    (key ≠ "T" → fields'.typ = fields.typ) ∧ (key ≠ "msg" → fields'.msg = fields.msg) := by
  unfold visit at h
  split at h
  · rename_i hkey
    obtain ⟨_, _, _, rfl⟩ := unread_bind h
    exact ⟨fun hne => absurd hkey hne, fun _ => rfl⟩
  · split at h
    · rename_i hkey
      obtain ⟨_, _, _, rfl⟩ := unread_bind h
      exact ⟨fun _ => rfl, fun hne => absurd hkey hne⟩
    · split at h
      · obtain ⟨_, _, _, rfl⟩ := unread_bind h
        exact ⟨fun _ => rfl, fun _ => rfl⟩
      · split at h
        · obtain ⟨_, _, _, rfl⟩ := unread_bind h
          exact ⟨fun _ => rfl, fun _ => rfl⟩
        · obtain rfl := Option.some.inj h
          exact ⟨fun _ => rfl, fun _ => rfl⟩

theorem string_eq_some {value : Json} {s : String} (h : string value = some s) : value = .str s := by
  unfold string at h
  split at h
  · rw [Option.some.inj h]
  · cases h

/-- A control frame has the type and the message of its object. -/
theorem of_deserialize {members : Members} {frame : ControlFrame}
    (h : deserialize (.obj members) = some frame) :
    HasTag members frame.typ ∧ ∀ msg, frame.msg = some msg → HasMsg members msg := by
  obtain ⟨fields, hfields, hbuild⟩ := Option.bind_eq_some_iff.mp h
  obtain ⟨typ, htyp, rfl⟩ := Option.map_eq_some_iff.mp hbuild
  constructor
  · have hread := fieldRead_of_visit visit_typ_self
      (fun _ _ _ _ hne hvisit => (visit_other hvisit).1 hne) hfields
    obtain ⟨value, hvalue, hparse⟩ := hread.found rfl typ htyp
    rw [HasTag, hvalue, string_eq_some hparse]
  · intro msg hmsg
    have hread := fieldRead_of_visit visit_msg_self
      (fun _ _ _ _ hne hvisit => (visit_other hvisit).2 hne) hfields
    cases hgot : fields.msg with
    | none => simp [hgot] at hmsg
    | some got =>
        obtain rfl : got = some msg := by simpa [hgot] using hmsg
        obtain ⟨value, hvalue, hparse⟩ := hread.found rfl _ hgot
        cases value with
        | null => cases hparse
        | str s =>
            obtain rfl : s = msg := by simpa [optional, string] using hparse
            exact hvalue
        | _ => cases hparse

end ControlFrame

/-! ### What is made of a frame -/

section Judge

variable {rt : Runtime} {text : String} {first : Members} {rest : List Members}

theorem controlFrames_eq_ok {frame : ControlFrame} {frames : List ControlFrame}
    (htext : rt.fromStr text = .ok (.arr ((first :: rest).map .obj)))
    (h : rt.controlFrames text = .ok (frame :: frames)) :
    ControlFrame.deserialize (.obj first) = some frame := by
  simp only [Runtime.controlFrames, htext] at h
  split at h
  · rename_i found hfound
    obtain rfl := Except.ok.inj h
    rw [List.map_cons, List.mapM_cons] at hfound
    obtain ⟨head, hhead, hfound⟩ := Option.bind_eq_some_iff.mp hfound
    obtain ⟨tail, _, hfound⟩ := Option.bind_eq_some_iff.mp hfound
    obtain ⟨rfl, rfl⟩ := List.cons.inj (Option.some.inj hfound)
    exact hhead
  · cases h

/-- Where every object is a control frame, the array is read. -/
theorem controlFrames_of_forall
    (htext : rt.fromStr text = .ok (.arr ((first :: rest).map .obj)))
    (h : ∀ members ∈ first :: rest, (ControlFrame.deserialize (.obj members)).isSome) :
    ∃ frame frames, rt.controlFrames text = .ok (frame :: frames) := by
  have hall : ∀ objects : List Members,
      (∀ members ∈ objects, (ControlFrame.deserialize (.obj members)).isSome) →
      ∃ frames, (objects.map Json.obj).mapM ControlFrame.deserialize = some frames := by
    intro objects
    induction objects with
    | nil => exact fun _ => ⟨[], rfl⟩
    | cons members objects ih =>
        intro h
        obtain ⟨frame, hframe⟩ := Option.isSome_iff_exists.mp (h members List.mem_cons_self)
        obtain ⟨frames, hframes⟩ := ih fun m hm => h m (List.mem_cons_of_mem _ hm)
        exact ⟨frame :: frames, by simp [hframe, hframes]⟩
  obtain ⟨frames, hframes⟩ := hall (first :: rest) h
  have hread : rt.controlFrames text = .ok frames := by
    simp only [Runtime.controlFrames, htext, hframes]
  cases frames with
  | nil =>
      rw [List.map_cons, List.mapM_cons] at hframes
      obtain ⟨_, _, hframes⟩ := Option.bind_eq_some_iff.mp hframes
      obtain ⟨_, _, hframes⟩ := Option.bind_eq_some_iff.mp hframes
      cases hframes
  | cons frame frames => exact ⟨frame, frames, hread⟩

theorem classifyFrame_matched {frame : ControlFrame} {wantType : String} {wantMsg : Option String}
    (h : classifyFrame frame wantType wantMsg = .matched) :
    frame.typ = wantType ∧ ∀ msg, wantMsg = some msg → frame.msg.getD "" = msg := by
  unfold classifyFrame at h
  split at h
  · cases h
  · split at h
    · cases h
    · rename_i htype
      refine ⟨not_not.mp htype, ?_⟩
      rintro msg rfl
      simp only at h
      split at h
      · cases h
      · rename_i hmsg
        exact not_not.mp hmsg

/-- A message is accepted for the first object of its frame. -/
theorem judge_eq_ok {event : ReadEvent} {frame : ControlFrame} {wantType : String}
    {wantMsg : Option String} (h : judge rt wantType wantMsg event = .ok frame) :
    ∃ text frames, event = .message (.text text) ∧
      rt.controlFrames text = .ok (frame :: frames) ∧ frame.typ = wantType ∧
      ∀ msg, wantMsg = some msg → frame.msg.getD "" = msg := by
  obtain ⟨read, hread, h⟩ := Result.bind_eq_ok.mp h
  have hclass : classifyFrame read wantType wantMsg = .matched ∧ read = frame := by
    split at h
    · rename_i hclass
      exact ⟨hclass, Result.pure_eq_ok.mp h⟩
    · cases h
    · cases h
  obtain ⟨hclass, rfl⟩ := hclass
  unfold readControl at hread
  split at hread
  · cases hread
  · cases hread
  · rename_i text
    split at hread
    · cases hread
    · cases hread
    · rename_i found frames hframes
      obtain rfl := Except.ok.inj hread
      exact ⟨text, frames, rfl, hframes, classifyFrame_matched hclass⟩
  · cases hread

/-- An error object in front of control frames is fatal, whatever is waited for. -/
theorem judge_error (htext : rt.fromStr text = .ok (.arr ((first :: rest).map .obj)))
    (hall : ∀ members ∈ first :: rest, (ControlFrame.deserialize (.obj members)).isSome)
    (herror : HasTag first "error") (wantType : String) (wantMsg : Option String) :
    ∃ msg, judge rt wantType wantMsg (.message (.text text)) = .error (.fatal msg) := by
  obtain ⟨frame, frames, hframes⟩ := controlFrames_of_forall htext hall
  have htyp := (ControlFrame.of_deserialize (controlFrames_eq_ok htext hframes)).1
  have hclass : ∃ msg, classifyFrame frame wantType wantMsg = .fatal msg := by
    simp only [classifyFrame, if_pos (htyp.unique herror)]
    exact ⟨_, rfl⟩
  obtain ⟨msg, hclass⟩ := hclass
  refine ⟨msg, ?_⟩
  simp only [judge, readControl, hframes, bind, Except.bind, hclass]

theorem typ_eq_success_or_subscription {event : ReadEvent} (h : Expected rt event) :
    ∃ text frame frames, event = .message (.text text) ∧
      rt.controlFrames text = .ok (frame :: frames) ∧
      (frame.typ = "success" ∨ frame.typ = "subscription") := by
  cases h with
  | connected frame h =>
      obtain ⟨text, frames, hevent, hframes, htyp, _⟩ := judge_eq_ok h
      exact ⟨text, frame, frames, hevent, hframes, .inl htyp⟩
  | authenticated frame h =>
      obtain ⟨text, frames, hevent, hframes, htyp, _⟩ := judge_eq_ok h
      exact ⟨text, frame, frames, hevent, hframes, .inl htyp⟩
  | subscribed frame h =>
      obtain ⟨text, frames, hevent, hframes, htyp, _⟩ := judge_eq_ok h
      exact ⟨text, frame, frames, hevent, hframes, .inr htyp⟩

/-- The first object of an expected message is a success or a subscription. -/
theorem Expected.hasTag (h : Expected rt (.message (.text text)))
    (htext : rt.fromStr text = .ok (.arr ((first :: rest).map .obj))) :
    HasTag first "success" ∨ HasTag first "subscription" := by
  obtain ⟨read, frame, frames, hevent, hframes, htyp⟩ := typ_eq_success_or_subscription h
  obtain rfl : text = read := by simpa using hevent
  have htag := (ControlFrame.of_deserialize (controlFrames_eq_ok htext hframes)).1
  rcases htyp with htyp | htyp
  · exact .inl (htyp ▸ htag)
  · exact .inr (htyp ▸ htag)

theorem Expected.not_error (h : Expected rt (.message (.text text)))
    (htext : rt.fromStr text = .ok (.arr ((first :: rest).map .obj))) : ¬ HasTag first "error" := by
  intro herror
  rcases h.hasTag htext with htag | htag
  · exact absurd (herror.unique htag) (by simp)
  · exact absurd (herror.unique htag) (by simp)

end Judge

/-! ### The end of `run` -/

/-- An attempt whose `setup_ws` returns `outcome` is the last one of `run`, which
ends with a fatal error. -/
def GivesUp (cfg : Config) (w : World) (outcome : Result) : Prop :=
  ∃ msg w', setup w outcome = some w' ∧ (endAttempt cfg w').isSome ∧
    ∀ log w'', Run cfg w' log w'' → .started ∉ log ∧
      (w''.ws.pc = .attemptEnded (.error (.fatal msg)) ∨ w''.ws.pc = .done (.error (.fatal msg)))

/-- After a fatal attempt `run` can only return its error. -/
theorem Run.of_fatal {cfg : Config} {start w : World} {log : List Event} {msg : String}
    (hstart : start.ws.pc = .attemptEnded (.error (.fatal msg))) (h : Run cfg start log w) :
    .started ∉ log ∧
      (w.ws.pc = .attemptEnded (.error (.fatal msg)) ∨ w.ws.pc = .done (.error (.fatal msg))) := by
  induction h with
  | start => exact ⟨by simp, .inl hstart⟩
  | environment _ henvironment ih => rwa [henvironment.ws]
  | startAttempt _ hstep ih =>
      rcases ih.2 with hpc | hpc <;> simp [Ws.startAttempt, hpc] at hstep
  | handshake _ hstep ih => rcases ih.2 with hpc | hpc <;> simp [setup, hpc] at hstep
  | noHandshake e _ hstep ih => rcases ih.2 with hpc | hpc <;> simp [setup, hpc] at hstep
  | stream _ hstep ih =>
      have hbefore := hstep.streamed.before
      rcases ih.2 with hpc | hpc <;> simp [hpc, Pc.streaming] at hbefore
  | endAttempt result _ hpc hstep ih =>
      obtain ⟨hlog, hfatal | hdone⟩ := ih
      · rw [Ws.endAttempt, hfatal] at hstep
        obtain rfl := Option.some.inj hstep
        exact ⟨by simpa [backoffBegun, finish] using hlog, .inr rfl⟩
      · simp [Ws.endAttempt, hdone] at hstep
  | backOff elapsed _ hstep ih => rcases ih.2 with hpc | hpc <;> simp [Ws.backOff, hpc] at hstep

theorem givesUp_fatal (cfg : Config) {w : World} (hpc : w.ws.pc = .setup) (msg : String) :
    GivesUp cfg w (.error (.fatal msg)) := by
  refine ⟨msg, goto w (.attemptEnded (.error (.fatal msg))), by simp [setup, hpc], rfl, ?_⟩
  exact fun log w'' hrun => hrun.of_fatal rfl

/-! ### What is heard -/

section Handshake

variable (rt : Runtime) (cfg : Config) (account : Account)

/-- A frame among the steps has an object that satisfies `p`. -/
def Received (p : Members → Prop) (steps : List Step) : Prop :=
  ∃ text, .received (.message (.text text)) ∈ steps ∧ ∃ members ∈ rt.objects text, p members

/-- A frame among the steps has such an object in front. -/
def ReceivedFirst (p : Members → Prop) (steps : List Step) : Prop :=
  ∃ text, .received (.message (.text text)) ∈ steps ∧
    ∃ first rest, rt.objects text = first :: rest ∧ p first

def IsSuccess (msg : String) (members : Members) : Prop :=
  HasTag members "success" ∧ HasMsg members msg

/-- The handshake of the attempt that `w` is in, with `peer`. -/
structure OverlooksNothing (w : World) (peer : Peer) : Prop where
  auth : ∀ before text,
    before ++ [.sent (.auth text)] <+: ((setupWs rt account).exec peer).2.steps →
    Received rt (IsSuccess "connected") before
  subscribe : ∀ before text,
    before ++ [.sent (.subscribe text)] <+: ((setupWs rt account).exec peer).2.steps →
    Received rt (IsSuccess "authenticated") before
  errors : Received rt (HasTag · "error") ((setupWs rt account).exec peer).2.steps →
    ((setupWs rt account).exec peer).1 ≠ .ok () ∧
      GivesUp cfg w ((setupWs rt account).exec peer).1
  bars : ((setupWs rt account).exec peer).1 = .ok () →
    ¬ Received rt (HasTag · "b") ((setupWs rt account).exec peer).2.steps

/-- All of it with the first object of a frame. An error there is fatal where the
objects behind it can be read as control frames. -/
structure HearsFirst (w : World) (peer : Peer) : Prop where
  auth : ∀ before text,
    before ++ [.sent (.auth text)] <+: ((setupWs rt account).exec peer).2.steps →
    ReceivedFirst rt (IsSuccess "connected") before
  subscribe : ∀ before text,
    before ++ [.sent (.subscribe text)] <+: ((setupWs rt account).exec peer).2.steps →
    ReceivedFirst rt (IsSuccess "authenticated") before
  refused : ReceivedFirst rt (HasTag · "error") ((setupWs rt account).exec peer).2.steps →
    ((setupWs rt account).exec peer).1 ≠ .ok ()
  fatal : ∀ text first rest,
    .received (.message (.text text)) ∈ ((setupWs rt account).exec peer).2.steps →
    rt.objects text = first :: rest → HasTag first "error" →
    (∀ members ∈ rt.objects text, (ControlFrame.deserialize (.obj members)).isSome) →
    GivesUp cfg w ((setupWs rt account).exec peer).1
  expected : ((setupWs rt account).exec peer).1 = .ok () → ∀ text first rest,
    .received (.message (.text text)) ∈ ((setupWs rt account).exec peer).2.steps →
    rt.objects text = first :: rest → HasTag first "success" ∨ HasTag first "subscription"

variable {rt account} {steps : List Step}

/-- What was granted was the first object of a frame. -/
theorem Granted.receivedFirst {msg : String} (h : Granted rt steps msg) (hmsg : msg ≠ "")
    (htagged : ∀ text, .received (.message (.text text)) ∈ steps → TaggedFrame rt text) :
    ReceivedFirst rt (IsSuccess msg) steps := by
  obtain ⟨event, frame, hmem, hjudge⟩ := h
  obtain ⟨text, frames, rfl, hframes, htyp, hgot⟩ := judge_eq_ok hjudge
  obtain ⟨first, rest, hobjects, htext⟩ := (htagged text hmem).objects
  obtain ⟨htag, hread⟩ := ControlFrame.of_deserialize (controlFrames_eq_ok htext hframes)
  refine ⟨text, hmem, first, rest, hobjects, htyp ▸ htag, hread msg ?_⟩
  have hgot := hgot msg rfl
  cases hfield : frame.msg with
  | none =>
      rw [hfield] at hgot
      exact absurd hgot.symm hmsg
  | some got =>
      rw [hfield] at hgot
      exact congrArg some hgot

/-- The first object of each frame of the handshake is heard: nothing is sent
before it grants it, an error in it ends the handshake, and for good where the
frame can be read, and a handshake that succeeds has begun every frame with a
success or a subscription. -/
theorem hearsFirst (rt : Runtime) (cfg : Config) (account : Account) {w : World} {peer : Peer}
    (hsetup : w.ws.pc = .setup) (hstart : peer.steps = [])
    (htagged : ∀ text, .message (.text text) ∈ peer.answers → TaggedFrame rt text) :
    HearsFirst rt cfg account w peer := by
  have hgoing : Going rt peer.steps := by
    rw [hstart]
    exact Going.start
  have hcourse : Course rt ((setupWs rt account).exec peer).1
      ((setupWs rt account).exec peer).2.steps := setupWs_course account hgoing
  have hwithin := keeps_within rt account peer.answers peer
    ⟨fun _ h => h, by simp [hstart]⟩
  have hframes : ∀ text, .received (.message (.text text)) ∈
      ((setupWs rt account).exec peer).2.steps → TaggedFrame rt text :=
    fun text hmem => htagged text (hwithin.2 _ hmem)
  have hbefore : ∀ before step, before ++ [step] <+: ((setupWs rt account).exec peer).2.steps →
      ∀ text, .received (.message (.text text)) ∈ before → TaggedFrame rt text :=
    fun before step hinit text hmem =>
      hframes text (hinit.subset (List.mem_append_left _ hmem))
  constructor
  case auth =>
    intro before text hinit
    exact (hcourse.inOrder.auth before text hinit).receivedFirst (by simp) (hbefore _ _ hinit)
  case subscribe =>
    intro before text hinit
    exact (hcourse.inOrder.subscribe before text hinit).receivedFirst (by simp)
      (hbefore _ _ hinit)
  case refused =>
    rintro ⟨text, hmem, first, rest, hobjects, herror⟩
    have htext := (hframes text hmem).fromStr hobjects
    rcases hcourse.decided _ hmem with hexpected | ⟨_, _, e, _, hresult⟩
    · exact absurd herror (hexpected.not_error htext)
    · simp [hresult]
  case fatal =>
    intro text first rest hmem hobjects herror hall
    have htext := (hframes text hmem).fromStr hobjects
    rcases hcourse.decided _ hmem with hexpected | ⟨wantType, wantMsg, e, hjudge, hresult⟩
    · exact absurd herror (hexpected.not_error htext)
    · rw [hobjects] at hall
      obtain ⟨msg, hfatal⟩ := judge_error htext hall herror wantType wantMsg
      obtain rfl := Except.error.inj (hjudge.symm.trans hfatal)
      rw [hresult]
      exact givesUp_fatal cfg hsetup msg
  case expected =>
    intro hok text first rest hmem hobjects
    have htext := (hframes text hmem).fromStr hobjects
    rcases hcourse.decided _ hmem with hexpected | ⟨_, _, e, _, hresult⟩
    · exact hexpected.hasTag htext
    · rw [hok] at hresult
      cases hresult

end Handshake

/-! ### A server -/

def Runtime.isTagged (rt : Runtime) (text : String) : Bool :=
  match rt.fromStr text with
  | .ok (.arr items) =>
      !items.isEmpty && items.all fun item =>
        ((item.get? "T").bind ControlFrame.string).isSome
  | _ => false

theorem Runtime.taggedFrame {rt : Runtime} {text : String} (h : rt.isTagged text = true) :
    TaggedFrame rt text := by
  unfold Runtime.isTagged at h
  split at h
  · rename_i items htext
    rw [Bool.and_eq_true, List.all_eq_true] at h
    obtain ⟨hsome, htags⟩ := h
    have hobjects : ∀ item ∈ items, ∃ members tag, item = .obj members ∧ HasTag members tag := by
      intro item hitem
      obtain ⟨tag, htag⟩ := Option.isSome_iff_exists.mp (htags item hitem)
      obtain ⟨value, hvalue, hstring⟩ := Option.bind_eq_some_iff.mp htag
      rw [ControlFrame.string_eq_some hstring] at hvalue
      cases item with
      | obj members => exact ⟨members, tag, rfl, hvalue⟩
      | _ => cases hvalue
    obtain ⟨objects, htagged, heq⟩ : ∃ objects : List Members,
        (∀ members ∈ objects, ∃ tag, HasTag members tag) ∧ objects.map .obj = items := by
      refine ⟨items.filterMap Json.fields, ?_, ?_⟩
      · intro members hmem
        obtain ⟨item, hitem, hfields⟩ := List.mem_filterMap.mp hmem
        obtain ⟨_, tag, rfl, htag⟩ := hobjects item hitem
        obtain rfl := Option.some.inj hfields
        exact ⟨tag, htag⟩
      · rw [List.map_filterMap]
        refine (List.filterMap_congr fun item hitem => ?_).trans List.filterMap_some
        obtain ⟨members, _, rfl, _⟩ := hobjects item hitem
        rfl
    subst heq
    cases objects with
    | nil => cases hsome
    | cons first rest => exact ⟨first, rest, htext, htagged⟩
  · cases h

namespace Server

def serdeJson : JsonReader.Dialect where
  nonFinite := false
  maxIntegerDigits := none
  maxFloatDigits := none
  maxNameLength := none
  maxDepth := some 127

def runtime : Runtime where
  fromStr text := (JsonReader.whole serdeJson text.toList).mapError fun _ => "expected value"
  invalidFrame _ := "invalid type"
  toText symbols :=
    .ok ("[" ++ ",".intercalate (symbols.map fun symbol => "\"" ++ symbol ++ "\"") ++ "]")
  debug _ := "Message"

def account : Account := ⟨"key", "secret", ["FAKEPACA"]⟩

def connected : String := "\x7b\"T\":\"success\",\"msg\":\"connected\"\x7d"

def authenticated : String := "\x7b\"T\":\"success\",\"msg\":\"authenticated\"\x7d"

def subscribed : String := "\x7b\"T\":\"subscription\",\"bars\":[\"FAKEPACA\"]\x7d"

def authFailed : String := "\x7b\"T\":\"error\",\"code\":402,\"msg\":\"auth failed\"\x7d"

def bar : String := "\x7b\"T\":\"b\",\"S\":\"FAKEPACA\",\"v\":100\x7d"

/-- A tagged object whose `msg` is no string. -/
def unreadable : String := "\x7b\"T\":\"b\",\"msg\":1\x7d"

/-- A server that answers with frames of these objects. -/
def answering (frames : List (List String)) : Peer where
  connection := .ok ()
  answers := frames.map fun objects => .message (.text ("[" ++ ",".intercalate objects ++ "]"))
  replies := []
  steps := []

/-- The first attempt, at its handshake. -/
def atSetup : World := { World.new sampleConfig with ws := { Ws.new with pc := .setup } }

theorem answering_tagged {frames : List (List String)}
    (h : ∀ objects ∈ frames, runtime.isTagged ("[" ++ ",".intercalate objects ++ "]") = true)
    (text : String) (hmem : .message (.text text) ∈ (answering frames).answers) :
    TaggedFrame runtime text := by
  obtain ⟨objects, hobjects, heq⟩ := List.mem_map.mp hmem
  obtain rfl := Message.text.inj (ReadEvent.message.inj heq)
  exact Runtime.taggedFrame (h objects hobjects)

theorem hearsFirst_refused :
    ((setupWs runtime account).exec (answering [[connected], [authFailed]])).1 =
      .error (.fatal "server error 402: auth failed") ∧
    HearsFirst runtime sampleConfig account atSetup (answering [[connected], [authFailed]]) :=
  ⟨by decide +kernel,
    hearsFirst runtime sampleConfig account rfl rfl (answering_tagged (by decide +kernel))⟩

/-- An error behind the greeting, and a bar behind the subscription. -/
def batched : List (List String) := [[connected, authFailed], [authenticated], [subscribed, bar]]

/-- What cannot be read behind an error makes it transient. -/
def garbled : List (List String) := [[authFailed, unreadable]]

theorem batched_overlooked :
    ((∀ text, .message (.text text) ∈ (answering batched).answers → TaggedFrame runtime text) ∧
      ((setupWs runtime account).exec (answering batched)).1 = .ok () ∧
      Received runtime (HasTag · "error")
        ((setupWs runtime account).exec (answering batched)).2.steps ∧
      Received runtime (HasTag · "b")
        ((setupWs runtime account).exec (answering batched)).2.steps ∧
      ¬ OverlooksNothing runtime sampleConfig account atSetup (answering batched)) ∧
    (∀ text, .message (.text text) ∈ (answering garbled).answers → TaggedFrame runtime text) ∧
      ReceivedFirst runtime (HasTag · "error")
        ((setupWs runtime account).exec (answering garbled)).2.steps ∧
      ¬ GivesUp sampleConfig atSetup ((setupWs runtime account).exec (answering garbled)).1 ∧
      ¬ OverlooksNothing runtime sampleConfig account atSetup (answering garbled) := by
  have hok : ((setupWs runtime account).exec (answering batched)).1 = .ok () := by decide +kernel
  have herror : Received runtime (HasTag · "error")
      ((setupWs runtime account).exec (answering batched)).2.steps :=
    ⟨_, List.mem_cons_self, _, List.mem_cons_of_mem _ List.mem_cons_self, rfl⟩
  have hbar : Received runtime (HasTag · "b")
      ((setupWs runtime account).exec (answering batched)).2.steps :=
    ⟨_, List.mem_append_right _ List.mem_cons_self, _,
      List.mem_cons_of_mem _ List.mem_cons_self, rfl⟩
  have htransient : ((setupWs runtime account).exec (answering garbled)).1 =
      .error (.transient "parse control frame: invalid type") := by decide +kernel
  have hfirst : ReceivedFirst runtime (HasTag · "error")
      ((setupWs runtime account).exec (answering garbled)).2.steps :=
    ⟨_, List.mem_cons_self, _, _, rfl, rfl⟩
  have hgoesOn : ¬ GivesUp sampleConfig atSetup
      ((setupWs runtime account).exec (answering garbled)).1 := by
    rw [htransient]
    rintro ⟨msg, w', hsetup, _, hruns⟩
    obtain rfl := Option.some.inj hsetup
    rcases (hruns [] _ .start).2 with hpc | hpc <;> cases hpc
  refine ⟨⟨answering_tagged (by decide +kernel), hok, herror, hbar, fun h => h.bars hok hbar⟩,
    answering_tagged (by decide +kernel), hfirst, hgoesOn, fun h => hgoesOn (h.errors ?_).2⟩
  obtain ⟨text, hmem, first, rest, hobjects, htag⟩ := hfirst
  exact ⟨text, hmem, first, by simp [hobjects], htag⟩

end Server

end Ws

end Lakehouse.Extractor
