/-
`fixed_log_filters`: the Cloud Logging filters of the exporter.

A filter is kept as its expression; `text` is the query string of the source,
`selects` what the logging service makes of it. How the service compares texts,
severities and times is its own.

* `loaderFilters_select_iff`: with a service that compares texts exactly, the
  filters of the loader ask for the records the exporter takes an event from.
-/

import Lakehouse.Dashboard.Records

namespace Lakehouse.Dashboard

inductive Filter where
  | equals (path : List String) (value : String)
  | severityAtLeast (severity : String)
  | notBefore (since : String)
  | any (fs : List Filter)
  | all (fs : List Filter)

namespace Filter

def quoted (s : String) : String := "\"" ++ s ++ "\""

def between (separator : String) : List String → String
  | [] => ""
  | [s] => s
  | s :: rest => s ++ separator ++ between separator rest

mutual
/-- The query string. -/
def text : Filter → String
  | .equals path value => between "." path ++ "=" ++ quoted value
  | .severityAtLeast severity => "severity>=" ++ severity
  | .notBefore since => "timestamp >= " ++ quoted since
  | .any fs => "(" ++ between " OR " (texts fs) ++ ")"
  | .all fs => between " AND " (texts fs)

def texts : List Filter → List String
  | [] => []
  | f :: fs => text f :: texts fs
end

/-- The comparisons of the logging service. -/
structure Service where
  sameText : String → String → Bool
  sameText_self : ∀ s, sameText s s = true
  severityAtLeast : String → Json → Bool
  notBefore : String → Json → Bool

/-- The value at a path of an entry. -/
def valueAt : List String → Json → Option Json
  | [], value => some value
  | name :: path, value => (value.get? name).bind (valueAt path)

variable (service : Service)

mutual
/-- Whether a filter selects an entry. -/
def selects : Filter → Json → Bool
  | .equals path value, entry =>
      match valueAt path entry with
      | some (.str s) => service.sameText s value
      | _ => false
  | .severityAtLeast severity, entry => service.severityAtLeast severity entry
  | .notBefore since, entry => service.notBefore since entry
  | .any fs, entry => selectsAny fs entry
  | .all fs, entry => selectsAll fs entry

def selectsAny : List Filter → Json → Bool
  | [], _ => false
  | f :: fs, entry => selects f entry || selectsAny fs entry

def selectsAll : List Filter → Json → Bool
  | [], _ => true
  | f :: fs, entry => selects f entry && selectsAll fs entry
end

variable {service} {entry : Json}

@[simp] theorem selects_any {fs : List Filter} :
    selects service (.any fs) entry = true ↔ ∃ f ∈ fs, selects service f entry = true := by
  rw [selects]
  induction fs with
  | nil => simp [selectsAny]
  | cons f fs ih => simp [selectsAny, ih]

@[simp] theorem selects_all {fs : List Filter} :
    selects service (.all fs) entry = true ↔ ∀ f ∈ fs, selects service f entry = true := by
  rw [selects]
  induction fs with
  | nil => simp [selectsAll]
  | cons f fs ih => rw [selectsAll, Bool.and_eq_true, ih, List.forall_mem_cons]

/-- Texts are the same when they are equal. -/
def Service.Exact (service : Service) : Prop := ∀ s t, service.sameText s t = true ↔ s = t

theorem selects_equals (hexact : service.Exact) {path : List String} {value : String} :
    selects service (.equals path value) entry = true ↔ valueAt path entry = some (.str value) := by
  rw [selects]
  split
  · rename_i s hs
    rw [hexact, hs]
    simp
  · rename_i hs
    simp only [Bool.false_eq_true, false_iff]
    exact hs value

end Filter

open Lakehouse.Dashboard.Filter

/-! ### The filters -/

def EXTRACTOR_LOG : String := "gce_hadoop_catalog_extractor_json"

def LOADER_HEALTH_LOG : String := "gce_hadoop_catalog_loader_json"

def logName (projectId log : String) : Filter :=
  .equals ["logName"] ("projects/" ++ projectId ++ "/logs/" ++ log)

def unitIs (unit : String) : Filter := .equals ["jsonPayload", "_SYSTEMD_UNIT"] unit

def messageIs (message : String) : Filter := .equals ["jsonPayload", "fields", "message"] message

def eventIs (event : String) : Filter := .equals ["jsonPayload", "fields", "event"] event

/-- A filter on the loader's health log, around its test of the event. -/
def loaderFilter (projectId since : String) (eventTest : Filter) : Filter :=
  .all [logName projectId LOADER_HEALTH_LOG, unitIs LOADER_UNIT,
    .equals ["jsonPayload", "target"] LOADER_HEALTH_TARGET,
    .equals ["jsonPayload", "fields", "topic"] LOADER_TOPIC, eventTest, .notBefore since]

/-- The event test of `loader_failures`. -/
def loaderFailuresTest : Filter :=
  .any [eventIs "data_file_write_failed", eventIs "iceberg_commit_failed",
    eventIs "iceberg_commit_state_unknown", eventIs "offset_commit_failed", eventIs "loader_failed"]

/-- `fixed_log_filters`. -/
def fixedLogFilters (projectId : String) (start : Utc) : List (String × Filter) :=
  let since := utcText start
  [("extractor", .all [logName projectId EXTRACTOR_LOG, unitIs EXTRACTOR_UNIT,
      .any [messageIs "metrics", messageIs "final metrics", messageIs idleMessage,
        .severityAtLeast "WARNING"],
      .notBefore since]),
    ("loader_heartbeats", loaderFilter projectId since (eventIs "heartbeat")),
    ("loader_commits", loaderFilter projectId since
      (.any [eventIs "commit_started", eventIs "commit_succeeded"])),
    ("loader_failures", loaderFilter projectId since loaderFailuresTest)]

example : loaderFailuresTest.text =
    "(jsonPayload.fields.event=\"data_file_write_failed\" OR " ++
      "jsonPayload.fields.event=\"iceberg_commit_failed\" OR " ++
      "jsonPayload.fields.event=\"iceberg_commit_state_unknown\" OR " ++
      "jsonPayload.fields.event=\"offset_commit_failed\" OR " ++
      "jsonPayload.fields.event=\"loader_failed\")" := by
  simp [loaderFailuresTest, eventIs, text, texts, between, quoted]

/-- The failures the exporter counts are those the filter asks for. -/
theorem loaderFailuresTest_eq :
    loaderFailuresTest = .any (LoaderFailure.all.map fun f => eventIs f.event) := rfl

/-! ### What the exporter takes of the records -/

section Taken

variable {service : Service} {host : Host} {now : Utc}

/-- A text of the payload, as a filter finds it. -/
theorem valueAt_payload (e : Entry host now) {path : List String} {value : String} (hpath : path ≠ []) :
    valueAt ("jsonPayload" :: path) e.toJson = some (.str value) ↔
      valueAt path (.obj e.payload) = some (.str value) := by
  have hpayload := e.jsonPayload
  rw [valueAt, Entry.toJson, Json.get?]
  unfold dictGetOr at hpayload
  cases hfound : Json.lookup "jsonPayload" e.members with
  | some v =>
      rw [hfound, Option.getD_some] at hpayload
      rw [hpayload, Option.bind_some]
  | none =>
      rw [hfound, Option.getD_none] at hpayload
      rw [← Json.obj.inj hpayload]
      cases path with
      | nil => exact absurd rfl hpath
      | cons name path => simp [valueAt, Json.get?, Json.lookup]

theorem selects_payload (hexact : service.Exact) (e : Entry host now) {name value : String} :
    selects service (.equals ["jsonPayload", name] value) e.toJson = true ↔
      dictGet e.payload name = .str value := by
  rw [selects_equals hexact, valueAt_payload e (List.cons_ne_nil _ _),
    dictGet_eq_iff Json.noConfusion, valueAt, Json.get?]
  cases Json.lookup name e.payload with
  | none => simp
  | some v => simp [valueAt]

theorem selects_field (hexact : service.Exact) (e : Entry host now) {name value : String} :
    selects service (.equals ["jsonPayload", "fields", name] value) e.toJson = true ↔
      ∃ fields, dictGet e.payload "fields" = .obj fields ∧ dictGet fields name = .str value := by
  rw [selects_equals hexact, valueAt_payload e (List.cons_ne_nil _ _), valueAt, Json.get?]
  simp only [dictGet_eq_iff, ne_eq, reduceCtorEq, not_false_eq_true]
  cases Json.lookup "fields" e.payload with
  | none => simp
  | some v =>
      cases v with
      | obj fields =>
          cases hname : Json.lookup name fields with
          | none => simp [valueAt, Json.get?, hname]
          | some value => simp [valueAt, Json.get?, hname]
      | _ => simp [valueAt, Json.get?]

theorem ofText?_isSome_iff {text : String} :
    (∃ name, LoaderEventName.ofText? text = some name) ↔
      ∃ name : LoaderEventName, text = name.text := by
  have hall : ∀ name : LoaderEventName, name ∈ LoaderEventName.all := by
    intro name
    cases name with
    | failure f => cases f <;> decide
    | _ => decide
  unfold LoaderEventName.ofText?
  rw [← Option.isSome_iff_exists, List.find?_isSome]
  constructor
  · rintro ⟨name, -, hname⟩
    exact ⟨name, (beq_iff_eq.mp hname).symm⟩
  · rintro ⟨name, hname⟩
    exact ⟨name, hall name, beq_iff_eq.mpr hname.symm⟩

/-- The records of the loader that the exporter takes an event from. -/
theorem extractLoaderEvent_some_iff {payload : Dict} {time : Utc} :
    (∃ event, extractLoaderEvent payload time = .ok (some event)) ↔
      dictGet payload "target" = .str LOADER_HEALTH_TARGET ∧
        ∃ fields, dictGet payload "fields" = .obj fields ∧
          dictGet fields "topic" = .str LOADER_TOPIC ∧
            ∃ name : LoaderEventName, dictGet fields "event" = .str name.text := by
  unfold extractLoaderEvent
  by_cases htarget : dictGet payload "target" = .str LOADER_HEALTH_TARGET
  · rw [if_neg (by simp [isText_iff.mpr htarget])]
    simp only [htarget, true_and]
    split
    · rename_i fields hfields
      simp only [hfields, Json.obj.injEq, exists_eq_left']
      split
      · rename_i text htext
        simp only [htext, Json.str.injEq, ← ofText?_isSome_iff]
        split
        · rename_i name hname
          by_cases htopic : dictGet fields "topic" = .str LOADER_TOPIC
          · simp [htopic, hname, isText]
          · have hother : isText (dictGet fields "topic") LOADER_TOPIC = false := by
              rw [Bool.eq_false_iff, Ne, isText_iff]
              exact htopic
            simp [htopic, hother]
        · rename_i hname
          simp [hname]
      · rename_i htext
        have hnone : ∀ name : LoaderEventName, dictGet fields "event" ≠ .str name.text :=
          fun name => htext name.text
        split
        · simp [hnone]
        · simp [hnone]
    · rename_i hfields
      refine iff_of_false (by simp) ?_
      rintro ⟨fields, h, -⟩
      exact hfields fields h
  · have hother : isText (dictGet payload "target") LOADER_HEALTH_TARGET = false := by
      rw [Bool.eq_false_iff, Ne, isText_iff]
      exact htarget
    simp [hother, htarget]

theorem readEntry_loader_iff (e : Entry host now) :
    (∃ r, host.readEntry now e.toJson = .ok r ∧ r.loader.isSome = true) ↔
      dictGet e.payload "_SYSTEMD_UNIT" = .str LOADER_UNIT ∧
        ∃ event, extractLoaderEvent e.payload e.time = .ok (some event) := by
  rw [readEntry_eq]
  split
  · rename_i hunit
    rw [isText_iff] at hunit
    refine iff_of_false ?_ (by simp [hunit, EXTRACTOR_UNIT, LOADER_UNIT])
    rintro ⟨r, hr, hloader⟩
    obtain ⟨event, -, hr⟩ := Result.bind_eq_ok.mp hr
    obtain ⟨alert, -, hr⟩ := Result.bind_eq_ok.mp hr
    cases hr
    cases hloader
  · split
    · rename_i hunit
      rw [isText_iff] at hunit
      simp only [hunit, true_and]
      constructor
      · rintro ⟨r, hr, hloader⟩
        obtain ⟨event, hevent, hr⟩ := Result.bind_eq_ok.mp hr
        cases hr
        obtain ⟨taken, rfl⟩ := Option.isSome_iff_exists.mp hloader
        exact ⟨taken, hevent⟩
      · rintro ⟨event, hevent⟩
        exact ⟨_, Result.bind_eq_ok.mpr ⟨_, hevent, rfl⟩, rfl⟩
    · rename_i hunit
      rw [isText_iff] at hunit
      refine iff_of_false ?_ fun h => hunit h.1
      rintro ⟨r, hr, hloader⟩
      cases hr
      cases hloader

/-- The tests of the three filters name the events the exporter accepts. -/
theorem exists_eventTest_iff (e : Entry host now) :
    (∃ test ∈ [eventIs "heartbeat", .any [eventIs "commit_started", eventIs "commit_succeeded"],
        loaderFailuresTest], test.selects service e.toJson = true) ↔
      ∃ name : LoaderEventName, (eventIs name.text).selects service e.toJson = true := by
  simp only [loaderFailuresTest_eq, List.mem_cons, List.not_mem_nil, or_false, exists_eq_or_imp,
    exists_eq_left, selects_any]
  constructor
  · rintro (h | (h | h) | ⟨_, hf, h⟩)
    · exact ⟨.heartbeat, h⟩
    · exact ⟨.commitStarted, h⟩
    · exact ⟨.commitSucceeded, h⟩
    · obtain ⟨f, -, rfl⟩ := List.mem_map.mp hf
      exact ⟨.failure f, h⟩
  · rintro ⟨name, h⟩
    cases name with
    | heartbeat => exact .inl h
    | commitStarted => exact .inr (.inl (.inl h))
    | commitSucceeded => exact .inr (.inl (.inr h))
    | failure f =>
        have hmem : f ∈ LoaderFailure.all := by cases f <;> decide
        exact .inr (.inr ⟨_, List.mem_map_of_mem hmem, h⟩)

theorem selects_loaderFilter (hexact : service.Exact) (projectId since : String) (test : Filter)
    (e : Entry host now) :
    (loaderFilter projectId since test).selects service e.toJson = true ↔
      (logName projectId LOADER_HEALTH_LOG).selects service e.toJson = true ∧
        dictGet e.payload "_SYSTEMD_UNIT" = .str LOADER_UNIT ∧
        dictGet e.payload "target" = .str LOADER_HEALTH_TARGET ∧
        (∃ fields, dictGet e.payload "fields" = .obj fields ∧
          dictGet fields "topic" = .str LOADER_TOPIC) ∧
        test.selects service e.toJson = true ∧ service.notBefore since e.toJson = true := by
  simp only [loaderFilter, unitIs, selects_all, List.forall_mem_cons, selects_payload hexact,
    selects_field hexact, List.not_mem_nil, false_imp_iff, implies_true, and_true]
  rfl

/-- The filters of the loader ask for the records of its log and of the window that the
exporter takes an event from, and for no others. -/
theorem loaderFilters_select_iff (hexact : service.Exact) (projectId : String) (start : Utc)
    (e : Entry host now) :
    (∃ f ∈ fixedLogFilters projectId start, f.1 ≠ "extractor" ∧
        f.2.selects service e.toJson = true) ↔
      (logName projectId LOADER_HEALTH_LOG).selects service e.toJson = true ∧
        service.notBefore (utcText start) e.toJson = true ∧
          ∃ r, host.readEntry now e.toJson = .ok r ∧ r.loader.isSome = true := by
  have htests : (∃ f ∈ fixedLogFilters projectId start, f.1 ≠ "extractor" ∧
      f.2.selects service e.toJson = true) ↔
      ∃ test ∈ [eventIs "heartbeat", .any [eventIs "commit_started", eventIs "commit_succeeded"],
        loaderFailuresTest],
        (loaderFilter projectId (utcText start) test).selects service e.toJson = true := by
    simp [fixedLogFilters]
  have hevent := @exists_eventTest_iff service host now e
  simp only [eventIs, selects_field hexact] at hevent
  rw [htests, readEntry_loader_iff, extractLoaderEvent_some_iff]
  simp only [selects_loaderFilter hexact]
  constructor
  · rintro ⟨test, htest, hlog, hunit, htarget, ⟨fields, hfields, htopic⟩, hselects, hsince⟩
    obtain ⟨name, fields', hfields', hname⟩ := hevent.mp ⟨test, htest, hselects⟩
    obtain rfl := Json.obj.inj (hfields.symm.trans hfields')
    exact ⟨hlog, hsince, hunit, htarget, fields, hfields, htopic, name, hname⟩
  · rintro ⟨hlog, hsince, hunit, htarget, fields, hfields, htopic, name, hname⟩
    obtain ⟨test, htest, hselects⟩ := hevent.mpr ⟨name, fields, hfields, hname⟩
    exact ⟨test, htest, hlog, hunit, htarget, ⟨fields, hfields, htopic⟩, hselects, hsince⟩

end Taken

end Lakehouse.Dashboard
