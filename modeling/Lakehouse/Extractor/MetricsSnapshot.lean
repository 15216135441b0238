/-
The texts of the metrics lines.

`Metrics::snapshot` is written into the `snapshot` field of every metrics line, as
the text of a JSON object; the emitter adds the state of the channel. The counters
are 64-bit atomics, which wrap around, and the emitter loads them one by one while
the other tasks go on counting.

* `MeteredRun` — the run of a process that logs these lines, and `MeteredRun.logged`.
* `LoggedAt` — where the newest metrics line comes from: each of its numbers is the
  one of a state the process was in.
* `exists_loggedAt` — and all of them are the last ones if it is the final line.
-/

import Lakehouse.Extractor.ProcessLog
import Lakehouse.Lib.JsonWriter
import Lakehouse.Lib.Calendar

namespace Lakehouse.Extractor

open Calendar (Date padded)
open Channels (Channel)

/-! ### Times -/

/-- The year of `to_rfc3339`, signed outside 0000 to 9999. -/
def yearText (year : Int) : List Char :=
  if year < 0 then '-' :: padded 4 year.natAbs
  else if 9999 < year then '+' :: padded 4 year.natAbs
  else padded 4 year.natAbs

/-- `to_rfc3339` of a time in milliseconds. -/
def toRfc3339 (ms : Int) : String :=
  let seconds := ms / 1000
  let millis := (ms % 1000).toNat
  let date := Date.ofDays (seconds / 86400)
  let second := (seconds % 86400).toNat
  String.ofList (yearText date.year ++ '-' :: padded 2 date.month ++ '-' :: padded 2 date.day ++
    'T' :: padded 2 (second / 3600) ++ ':' :: padded 2 (second / 60 % 60) ++
    ':' :: padded 2 (second % 60) ++ (if millis = 0 then [] else '.' :: padded 3 millis) ++
    "+00:00".toList)

example : toRfc3339 1700000000000 = "2023-11-14T22:13:20+00:00" := by decide

/-- The days of the dates chrono has. -/
def minDay : Int := Date.toDays ⟨-262143, 1, 1⟩

def maxDay : Int := Date.toDays ⟨262142, 12, 31⟩

/-- `iso`: 0 is "never". -/
def iso (ms : Int) : Json :=
  if ms = 0 then .null
  else if minDay ≤ ms / 1000 / 86400 ∧ ms / 1000 / 86400 ≤ maxDay then .str (toRfc3339 ms)
  else .null

/-! ### Snapshots -/

/-- What a `u64` holds of a count. -/
def u64 (n : Nat) : Json := .int (n % 2 ^ 64 : Nat)

/-- `Metrics::snapshot`. -/
def Metrics.snapshot (component : String) (m : Metrics) : List (String × Json) :=
  [("component", .str component), ("messages_received", u64 m.messages_received),
    ("messages_sent", u64 m.messages_sent), ("delivery_failures", u64 m.delivery_failures),
    ("errors", u64 m.errors), ("last_message_ts", iso m.last_message_ts),
    ("last_delivery_ts", iso m.last_delivery_ts), ("connection_status", .bool m.connection_status)]

/-- How serde_json writes a value: without blanks. A snapshot has no doubles. -/
def serdeStyle : JsonWriter.Style where
  ascii := false
  digit := Nat.digitChar
  digit_read := JsonWriter.digitChar_read
  gap _ := []
  gap_blank _ := JsonWriter.isBlank_of_mem_nil
  afterComma := []
  afterComma_blank := JsonWriter.isBlank_of_mem_nil
  afterColon := []
  afterColon_blank := JsonWriter.isBlank_of_mem_nil
  number _ := []

/-- `%snapshot`. A map of serde_json is in the order of its names. -/
def snapshotText (members : List (String × Json)) : String :=
  String.ofList (JsonWriter.write serdeStyle 0 (Json.sortKeys (.obj members)))

/-- A log line of `tracing::info!(snapshot = %snapshot, message)`. -/
def snapshotLine (message : String) (members payload : List (String × Json)) : Line :=
  ⟨message, [("snapshot", .str (snapshotText members))], payload⟩

/-! ### The emitter -/

/-- What the emitter loads. -/
inductive Load where
  | received
  | sent
  | failures
  | errors
  | lastMessage
  | lastDelivery
  | connection
  | depth
deriving DecidableEq

def Load.all : List Load :=
  [.received, .sent, .failures, .errors, .lastMessage, .lastDelivery, .connection, .depth]

theorem Load.mem_all (l : Load) : l ∈ Load.all := by cases l <;> decide

/-- What it has loaded. -/
structure Sample where
  metrics : Metrics
  depth : Nat

/-- `max_capacity().saturating_sub(capacity())`. -/
def World.depth (w : World) : Nat :=
  let free := w.channel.capacity - w.channel.items.length
  w.channel.capacity - free

/-- All of a state. -/
def World.sample (w : World) : Sample := ⟨w.metrics, w.depth⟩

namespace Sample

variable (s : Sample) (w : World)

/-- One load. -/
def load : Load → Sample
  | .received =>
      { s with metrics := { s.metrics with messages_received := w.metrics.messages_received } }
  | .sent => { s with metrics := { s.metrics with messages_sent := w.metrics.messages_sent } }
  | .failures =>
      { s with metrics := { s.metrics with delivery_failures := w.metrics.delivery_failures } }
  | .errors => { s with metrics := { s.metrics with errors := w.metrics.errors } }
  | .lastMessage =>
      { s with metrics := { s.metrics with last_message_ts := w.metrics.last_message_ts } }
  | .lastDelivery =>
      { s with metrics := { s.metrics with last_delivery_ts := w.metrics.last_delivery_ts } }
  | .connection =>
      { s with metrics := { s.metrics with connection_status := w.metrics.connection_status } }
  | .depth => { s with depth := w.depth }

/-- The sample has what the state has. -/
def Agrees : Load → Prop
  | .received => s.metrics.messages_received = w.metrics.messages_received
  | .sent => s.metrics.messages_sent = w.metrics.messages_sent
  | .failures => s.metrics.delivery_failures = w.metrics.delivery_failures
  | .errors => s.metrics.errors = w.metrics.errors
  | .lastMessage => s.metrics.last_message_ts = w.metrics.last_message_ts
  | .lastDelivery => s.metrics.last_delivery_ts = w.metrics.last_delivery_ts
  | .connection => s.metrics.connection_status = w.metrics.connection_status
  | .depth => s.depth = w.depth

theorem agrees_load (l : Load) : (s.load w l).Agrees w l := by
  cases l <;> rfl

theorem agrees_load_of_ne {l l' : Load} (h : l' ≠ l) (v : World) :
    (s.load w l).Agrees v l' ↔ s.Agrees v l' := by
  cases l <;> cases l' <;> first | exact Iff.rfl | exact absurd rfl h

end Sample

theorem World.agrees_sample (w : World) (l : Load) : w.sample.Agrees w l := by
  cases l <;> rfl

/-- The emitter's snapshot. -/
def emitted (cfg : Config) (component : String) (s : Sample) : List (String × Json) :=
  s.metrics.snapshot component ++
    [("queue_depth", u64 s.depth), ("queue_capacity", u64 cfg.channel_capacity)]

/-- The run of a process with what it logs, and with what the emitter has loaded and
has still to load. It loads in any order, as far as other tasks can tell. -/
inductive MeteredRun (cfg : Config) (component : String) :
    World → Option (Sample × List Load) → List Line → Prop where
  | start : MeteredRun cfg component (World.new cfg) none []
  | step {w w' loading log a} : MeteredRun cfg component w loading log → step cfg w a = some w' →
      (∀ result, w.main = .reporting result → w'.main = .reporting result) →
      (loading.isSome → w'.emitter = true) → MeteredRun cfg component w' loading log
  | final {w w' log a result} (payload : List (String × Json)) :
      MeteredRun cfg component w none log → step cfg w a = some w' →
      w.main = .reporting result → w'.main = .exited (.ok result) →
      MeteredRun cfg component w' none
        (log ++ [snapshotLine "final metrics" (w.metrics.snapshot component) payload])
  | tick {w log} : MeteredRun cfg component w none log → w.emitter = true →
      MeteredRun cfg component w (some (⟨Metrics.new, 0⟩, Load.all)) log
  | load {w s loads log} (l : Load) : MeteredRun cfg component w (some (s, loads)) log → l ∈ loads →
      MeteredRun cfg component w (some (s.load w l, loads.erase l)) log
  | emit {w s log} (payload : List (String × Json)) :
      MeteredRun cfg component w (some (s, [])) log →
      MeteredRun cfg component w none
        (log ++ [snapshotLine "metrics" (emitted cfg component s) payload])
  | other {w loading log} (line : Line) : MeteredRun cfg component w loading log →
      line.isMetered = false → MeteredRun cfg component w loading (log ++ [line])

variable {cfg : Config} {component : String} {w w' : World} {log : List Line}
  {loading : Option (Sample × List Load)}

/-- The emitter lives while it loads. -/
theorem MeteredRun.emitter (h : MeteredRun cfg component w loading log) (hloading : loading.isSome) :
    w.emitter = true := by
  induction h with
  | step _ _ _ hemitter _ => exact hemitter hloading
  | tick _ hemitter _ => exact hemitter
  | load _ _ _ ih => exact ih rfl
  | other _ _ _ ih => exact ih hloading
  | start => cases hloading
  | final => cases hloading
  | emit => cases hloading

theorem MeteredRun.logged (h : MeteredRun cfg component w loading log) : LoggedRun cfg w log := by
  induction h with
  | start => exact .start
  | step _ hstep hreporting _ ih => exact ih.step hstep hreporting
  | final payload _ hstep hbefore hafter ih => exact ih.final _ hstep hbefore hafter rfl
  | tick _ _ ih => exact ih
  | load _ _ _ ih => exact ih
  | emit payload hlog ih => exact ih.tick _ (hlog.emitter rfl) rfl
  | other line _ hnot ih => exact ih.other line hnot

/-! ### Reading a snapshot -/

/-- What a snapshot holds: no doubles, no lists, and no more than 64 bits. -/
inductive IsField : Json → Prop where
  | null : IsField .null
  | bool (b : Bool) : IsField (.bool b)
  | str (s : String) : IsField (.str s)
  | count {n : Nat} : n < 2 ^ 64 → IsField (.int n)

theorem isField_u64 (n : Nat) : IsField (u64 n) := .count (Nat.mod_lt _ (by decide))

theorem isField_iso (ms : Int) : IsField (iso ms) := by
  unfold iso
  split
  · exact .null
  · split
    · exact .str _
    · exact .null

theorem Metrics.isField_snapshot (m : Metrics) : ∀ f ∈ m.snapshot component, IsField f.2 := by
  simp only [Metrics.snapshot, List.forall_mem_cons]
  exact ⟨.str _, isField_u64 _, isField_u64 _, isField_u64 _, isField_u64 _, isField_iso _,
    isField_iso _, .bool _, by simp⟩

/-- The members a metrics line shows of a sample. -/
inductive Shows (cfg : Config) (component : String) (s : Sample) : List (String × Json) → Prop where
  | emitted : Shows cfg component s (emitted cfg component s)
  | final : Shows cfg component s (s.metrics.snapshot component)

namespace Shows

variable {s : Sample} {members : List (String × Json)}

theorem isField (h : Shows cfg component s members) : ∀ f ∈ members, IsField f.2 := by
  cases h with
  | emitted =>
      intro f hf
      rcases List.mem_append.mp hf with hf | hf
      · exact s.metrics.isField_snapshot f hf
      · simp only [List.mem_cons, List.not_mem_nil, or_false] at hf
        rcases hf with rfl | rfl
        · exact isField_u64 _
        · exact isField_u64 _
  | final => exact s.metrics.isField_snapshot

theorem nodup (h : Shows cfg component s members) : (members.map Prod.fst).Nodup := by
  cases h with
  | emitted =>
      change ["component", "messages_received", "messages_sent", "delivery_failures", "errors",
        "last_message_ts", "last_delivery_ts", "connection_status", "queue_depth",
        "queue_capacity"].Nodup
      decide
  | final =>
      change ["component", "messages_received", "messages_sent", "delivery_failures", "errors",
        "last_message_ts", "last_delivery_ts", "connection_status"].Nodup
      decide

/-- The emitter's members are behind those of the snapshot. -/
theorem lookup (h : Shows cfg component s members) {name : String} {value : Json}
    (hvalue : Json.lookup name (s.metrics.snapshot component) = some value) :
    Json.lookup name members = some value := by
  cases h with
  | emitted => rw [Extractor.emitted, Json.lookup_append, hvalue, Option.some_or]
  | final => exact hvalue

end Shows

section Text

variable {d : JsonReader.Dialect} {members : List (String × Json)}

open JsonReader (within)

theorem IsField.legible {j : Json} (h : IsField j) (hdigits : within d.maxIntegerDigits 20 = true) :
    j.AllLeaves (JsonWriter.Legible d serdeStyle) := by
  cases h with
  | null => simp [JsonWriter.Legible]
  | bool b => simp [JsonWriter.Legible]
  | str s => simp [JsonWriter.Legible]
  | @count n hn =>
      simp only [Json.allLeaves_int, JsonWriter.Legible, Int.natAbs_natCast]
      have hsmall : n < 10 ^ 20 := by omega
      have hlength := (Nat.length_toDigits_le_iff (by decide : 1 < 10) (by decide)).mpr hsmall
      exact JsonWriter.within_mono hlength hdigits

theorem IsField.spelled {j : Json} (h : IsField j) :
    j.AllLeaves (JsonWriter.Spelled serdeStyle) := by
  cases h <;> simp [JsonWriter.Spelled]

theorem IsField.sortKeys {j : Json} (h : IsField j) : j.sortKeys = j := by
  cases h <;> rfl

theorem IsField.distinct {j : Json} (h : IsField j) : j.Distinct := by
  cases h <;> trivial

theorem IsField.nesting {j : Json} (h : IsField j) : j.nesting = 0 := by
  cases h <;> rfl

/-- The text of a snapshot is read as its members, in the order of their names. -/
theorem whole_snapshotText (hfields : ∀ f ∈ members, IsField f.2)
    (hnames : (members.map Prod.fst).Nodup) (hlength : d.maxNameLength = none)
    (hdigits : within d.maxIntegerDigits 20 = true) (hdepth : within d.maxDepth 1 = true) :
    JsonReader.whole d (snapshotText members).toList = .ok (Json.sortKeys (.obj members)) := by
  have hdistinct : (Json.obj members).Distinct :=
    ⟨hnames, Json.distinctMembers_iff.mpr fun f hf => (hfields f hf).distinct⟩
  have hwritable : JsonWriter.Writable d serdeStyle (Json.sortKeys (.obj members)) := by
    constructor
    · exact (Json.allLeaves_sortKeys _).mpr (Json.allLeaves_obj.mpr fun f hf => (hfields f hf).spelled)
    · intro name _
      rw [hlength]
      rfl
    · exact Json.distinct_sortKeys hdistinct
    · refine JsonWriter.within_mono (Json.nesting_sortKeys_le.mpr ?_) hdepth
      exact Nat.succ_le_succ
        (Json.nestingFields_le.mpr fun f hf => Nat.le_of_eq (hfields f hf).nesting)
  have hlegible : (Json.sortKeys (.obj members)).AllLeaves (JsonWriter.Legible d serdeStyle) :=
    (Json.allLeaves_sortKeys _).mpr
      (Json.allLeaves_obj.mpr fun f hf => (hfields f hf).legible hdigits)
  have hread : JsonReader.whole d
      (JsonWriter.write serdeStyle 0 (Json.sortKeys (.obj members)) ++ []) = .ok _ :=
    JsonWriter.whole_write hwritable hlegible JsonWriter.isBlank_of_mem_nil
  rw [List.append_nil] at hread
  rw [snapshotText, String.toList_ofList, hread]

end Text

/-! ### The newest metrics line -/

/-- A state the process was in on its way to `last`. -/
structure Passed (cfg : Config) (w last : World) : Prop where
  reachable : (system cfg).Reachable w
  follows : ∃ actions, (system cfg).run w actions = some last

/-- The newest metrics line shows the sample `s`, and the process has gone on to `last`. -/
structure LoggedAt (cfg : Config) (component : String) (s : Sample) (last : World)
    (log : List Line) : Prop where
  line : ∃ message members payload, Shows cfg component s members ∧
    (log.filter Line.isMetered).getLast? = some (snapshotLine message members payload)
  loaded : ∀ l, ∃ w, Passed cfg w last ∧ s.Agrees w l
  settled : last.Reported → s.metrics = last.metrics

theorem Passed.refl (h : (system cfg).Reachable w) : Passed cfg w w := ⟨h, [], rfl⟩

theorem Passed.step {v : World} {a : Action} (h : Passed cfg v w)
    (hstep : Extractor.step cfg w a = some w') : Passed cfg v w' where
  reachable := h.reachable
  follows := by
    obtain ⟨actions, hrun⟩ := h.follows
    refine ⟨actions ++ [a], ?_⟩
    rw [Transition.System.run_append, hrun, Option.bind_some]
    exact Option.bind_eq_some_iff.mpr ⟨w', hstep, rfl⟩

/-- A step that is not the last one of `main` leaves the logged metrics alone. -/
theorem final_step {a : Action} (h : step cfg w a = some w')
    (hmain : ∀ result, w.main ≠ .reporting result) : w'.final = w.final := by
  obtain ⟨_, hf⟩ | ⟨_, hf⟩ | hf | htorn := step_cases h
  · exact hf.final
  · exact hf.final
  · exact hf.final
  · cases htorn with
    | exit hreporting => exact absurd hreporting (hmain _)
    | _ => rfl

theorem exit_step {a : Action} {result : Ws.Result} (h : step cfg w a = some w')
    (hmain : w.main = .reporting result) (hexited : w'.main ≠ .reporting result) :
    w'.metrics = w.metrics ∧ w'.final = some w.metrics := by
  obtain ⟨_, hf⟩ | ⟨_, hf⟩ | hf | htorn := step_cases h
  · exact absurd (hf.main.trans hmain) hexited
  · exact absurd (hf.main.trans hmain) hexited
  · exact absurd (hf.main.trans hmain) hexited
  · cases htorn with
    | exit _ => exact ⟨rfl, rfl⟩
    | cancel hrunning => rw [hmain] at hrunning; cases hrunning
    | close hcancelling => rw [hmain] at hcancelling; cases hcancelling
    | join hclosing => rw [hmain] at hclosing; cases hclosing
    | flush hjoining => rw [hmain] at hjoining; cases hjoining
    | report hflushing => rw [hmain] at hflushing; cases hflushing
    | fail e hflushing => rw [hmain] at hflushing; cases hflushing

/-- The final metrics are those of the process as it ended. -/
theorem final_of_reported (h : (system cfg).Reachable w) (hreported : w.Reported) :
    w.final = some w.metrics := by
  induction h with
  | init hinit =>
      obtain ⟨result, hmain⟩ := hreported
      rw [hinit] at hmain
      cases hmain
  | @step w w' a hreach hstep ih =>
      obtain ⟨result, hmain⟩ := hreported
      rcases (main_step hstep).exited result hmain with hbefore | hbefore
      · have hfinal : w'.final = some w.metrics := by
          rw [final_step hstep (by simp [hbefore]), ih ⟨result, hbefore⟩]
        rw [hfinal, ((reachable_coherent (hreach.step hstep)).final _ hfinal).1]
      · obtain ⟨hmetrics, hfinal⟩ := exit_step hstep hbefore (by simp [hmain])
        rw [hfinal, hmetrics]

/-- A process that has logged its final metrics counts nothing any more. -/
theorem metrics_of_reported {a : Action} (h : (system cfg).Reachable w)
    (hstep : step cfg w a = some w') (hreported : w.Reported) : w'.metrics = w.metrics := by
  obtain ⟨result, hmain⟩ := hreported
  have hfinal : w'.final = some w.metrics := by
    rw [final_step hstep (by simp [hmain]), final_of_reported h ⟨result, hmain⟩]
  exact ((reachable_coherent (h.step hstep)).final _ hfinal).1.symm

/-- A process that does not get as far as the end of `main` need not log metrics. -/
theorem MeteredRun.run {actions : List Action} {last : World} (h : MeteredRun cfg component w none log)
    (hrun : (system cfg).run w actions = some last)
    (hopen : ∀ result, last.main ≠ .exited (.ok result)) :
    MeteredRun cfg component last none log := by
  induction actions generalizing w with
  | nil =>
      cases hrun
      exact h
  | cons a actions ih =>
      obtain ⟨next, hstep, hrest⟩ := Option.bind_eq_some_iff.mp hrun
      refine ih (h.step hstep ?_ (by simp)) hrest
      intro result hreporting
      rcases (main_step hstep).reports result hreporting with hstill | hexited
      · exact hstill
      · exact absurd (exited_of_run hrest hexited) (hopen result)

/-- Whatever the emitter has loaded it has loaded in a state on the way. -/
theorem MeteredRun.loaded (h : MeteredRun cfg component w loading log) :
    ∀ s loads, loading = some (s, loads) → ∀ l ∉ loads, ∃ v, Passed cfg v w ∧ s.Agrees v l := by
  induction h with
  | start => simp
  | step _ hstep _ _ ih =>
      intro s loads hloading l hl
      obtain ⟨v, hv, hagrees⟩ := ih s loads hloading l hl
      exact ⟨v, hv.step hstep, hagrees⟩
  | final => simp
  | tick =>
      rintro s loads ⟨⟩ l hl
      exact absurd l.mem_all hl
  | @load w s loads log l hrun _ ih =>
      rintro _ _ ⟨⟩ l' hl'
      by_cases heq : l' = l
      · rw [heq]
        exact ⟨w, .refl hrun.logged.reachable, s.agrees_load w l⟩
      · rw [List.mem_erase_of_ne heq] at hl'
        obtain ⟨v, hv, hagrees⟩ := ih s loads rfl l' hl'
        exact ⟨v, hv, (s.agrees_load_of_ne w heq v).mpr hagrees⟩
  | emit => simp
  | other _ _ _ ih => exact ih

theorem LoggedAt.step {s : Sample} {a : Action} (h : LoggedAt cfg component s w log)
    (hreach : (system cfg).Reachable w) (hstep : Extractor.step cfg w a = some w')
    (hopen : ∀ result, w.main = .reporting result → w'.main = .reporting result) :
    LoggedAt cfg component s w' log where
  line := h.line
  loaded := by
    intro l
    obtain ⟨v, hv, hagrees⟩ := h.loaded l
    exact ⟨v, hv.step hstep, hagrees⟩
  settled := by
    rintro ⟨result, hmain⟩
    rcases (main_step hstep).exited result hmain with hbefore | hbefore
    · rw [h.settled ⟨result, hbefore⟩, metrics_of_reported hreach hstep ⟨result, hbefore⟩]
    · rw [hopen result hbefore] at hmain
      cases hmain

/-- A process that has logged metrics showed numbers of states it was in, and its last
ones if it has logged the final metrics. -/
theorem exists_loggedAt (h : MeteredRun cfg component w loading log)
    (hmetered : log.filter Line.isMetered ≠ []) : ∃ s, LoggedAt cfg component s w log := by
  induction h with
  | start => exact absurd rfl hmetered
  | step hlog hstep hopen _ ih =>
      obtain ⟨s, hs⟩ := ih hmetered
      exact ⟨s, hs.step hlog.logged.reachable hstep hopen⟩
  | @final w w' log a result payload hlog hstep hbefore hafter ih =>
      refine ⟨w.sample, ⟨"final metrics", _, payload, .final, ?_⟩, fun l => ?_, fun _ => ?_⟩
      · rw [List.filter_append, List.getLast?_append]
        rfl
      · exact ⟨w, (Passed.refl hlog.logged.reachable).step hstep, w.agrees_sample l⟩
      · exact (exit_step hstep hbefore (by simp [hafter])).1.symm
  | tick _ _ ih => exact ih hmetered
  | load _ _ _ ih => exact ih hmetered
  | @emit w s log payload hlog ih =>
      refine ⟨s, ⟨"metrics", _, payload, .emitted, ?_⟩, fun l => ?_, fun hreported => ?_⟩
      · rw [List.filter_append, List.getLast?_append]
        rfl
      · exact hlog.loaded s [] rfl l List.not_mem_nil
      · obtain ⟨result, hmain⟩ := hreported
        have hsilent := hlog.logged.metered.joined (by rw [hmain]; rfl)
        rw [hlog.emitter rfl] at hsilent
        cases hsilent
  | @other w loading log line hlog hnot ih =>
      have hfilter : (log ++ [line]).filter Line.isMetered = log.filter Line.isMetered := by
        rw [List.filter_append, List.filter_cons_of_neg (by simp [hnot]), List.filter_nil,
          List.append_nil]
      rw [hfilter] at hmetered
      obtain ⟨s, hs⟩ := ih hmetered
      exact ⟨s, hfilter ▸ hs.line, hs.loaded, hs.settled⟩

end Lakehouse.Extractor
