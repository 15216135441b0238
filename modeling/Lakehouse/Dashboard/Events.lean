/-
From log entries to events: what the loop of `build_snapshot` takes from an
entry.

An entry is any JSON value. A wrong shape raises where the source applies a
method to it, and is skipped where the source tests for it first.
-/

import Mathlib.Data.List.Sort
import Lakehouse.Dashboard.Document

namespace Lakehouse.Dashboard

def EXTRACTOR_UNIT : String := "alpaca-extractor.service"

def LOADER_UNIT : String := "iceberg-loader.service"

def LOADER_HEALTH_TARGET : String := "iceberg_loader::health"

def LOADER_TOPIC : String := "alpaca-bars-direct-candidate"

def idleMessage : String := "no bar data within idle window; shutting down producer"

/-- `value == text` for a string. -/
def isText (value : Json) (text : String) : Bool :=
  match value with
  | .str s => s == text
  | _ => false

@[simp] theorem isText_iff {value : Json} {text : String} : isText value text ↔ value = .str text := by
  cases value <;> simp [isText]

/-! ### Extractor events -/

structure ExtractorEvent where
  at_ : Utc
  message : String
  snapshot : Dict
  idleSecs : Json

/-- The `try` block of `_extract_extractor_event`. -/
def Host.loadSnapshot (host : Host) (raw : Json) : Py Dict :=
  match raw with
  | .str text =>
      match host.loads text with
      | .ok (.obj d) => .ok d
      | .ok _ => .ok []
      | .error .jsonDecodeError => .ok []
      | .error e => .error e
  | _ => .ok []

/-- `_extract_extractor_event`. -/
def Host.extractExtractorEvent (host : Host) (payload : Dict) (entryTime : Utc) :
    Py (Option ExtractorEvent) :=
  match dictGet payload "fields" with
  | .obj fields =>
      match dictGet fields "message" with
      | .str message => do
          let snapshot ← host.loadSnapshot (dictGet fields "snapshot")
          return some ⟨entryTime, message, snapshot, dictGet fields "idle_secs"⟩
      | _ => return none
  | _ => return none

/-! ### Loader events -/

/-- The events the exporter accepts. -/
inductive LoaderEventName where
  | heartbeat
  | commitStarted
  | commitSucceeded
  | failure (f : LoaderFailure)
deriving DecidableEq, Repr

def LoaderEventName.text : LoaderEventName → String
  | .heartbeat => "heartbeat"
  | .commitStarted => "commit_started"
  | .commitSucceeded => "commit_succeeded"
  | .failure f => f.event

def LoaderEventName.all : List LoaderEventName :=
  [.heartbeat, .commitStarted, .commitSucceeded] ++ LoaderFailure.all.map .failure

/-- The event a text names. -/
def LoaderEventName.ofText? (text : String) : Option LoaderEventName :=
  LoaderEventName.all.find? fun name => name.text == text

structure LoaderEvent where
  at_ : Utc
  event : LoaderEventName
  fields : Dict

/-- The failure an event reports. -/
def LoaderEvent.failure? (e : LoaderEvent) : Option LoaderFailure :=
  match e.event with
  | .failure f => some f
  | _ => none

/-- `_extract_loader_event`. A list or a dict cannot be looked up in a set. -/
def extractLoaderEvent (payload : Dict) (entryTime : Utc) : Py (Option LoaderEvent) :=
  if !isText (dictGet payload "target") LOADER_HEALTH_TARGET then .ok none
  else
    match dictGet payload "fields" with
    | .obj fields =>
        match dictGet fields "event" with
        | .str text =>
            match LoaderEventName.ofText? text with
            | some event =>
                if !isText (dictGet fields "topic") LOADER_TOPIC then .ok none
                else .ok (some ⟨entryTime, event, fields⟩)
            | none => .ok none
        | event => if hashable event then .ok none else .error .typeError
    | _ => .ok none

/-! ### Alerts -/

/-- `_alert_code`. -/
def alertCode (component : Component) (message : String) : AlertCode :=
  let message := Casing.lower message
  if contains message "delivery" then .deliveryFailure component
  else if contains message "authentication" ∨ contains message "authenticated" then
    .authentication component
  else if contains message "commit" then .commitFailure component
  else .warning component

/-- `_safe_alert`. -/
def Host.safeAlert (host : Host) (component : Component) (payload : Dict) (entryTime : Utc) :
    Py (Option Alert) := do
  let level ← host.str (dictGetOr payload "level" (dictGetOr payload "severity" (.str "INFO")))
  let level := Casing.upper level
  if level ∉ ["WARN", "WARNING", "ERROR", "CRITICAL"] then return none
  else
    let message := match dictGet payload "fields" with
      | .obj fields => dictGetOr fields "message" (.str "")
      | _ => dictGetOr payload "MESSAGE" (.str "")
    if isText message idleMessage then return none
    else
      let text ← host.str message
      return some ⟨.of entryTime, component,
        if level ∈ ["ERROR", "CRITICAL"] then .error else .warning, alertCode component text⟩

/-- `_loader_alert`. -/
def loaderAlert (e : LoaderEvent) : Option Alert :=
  e.failure?.map fun f => ⟨.of e.at_, .loader, .error, .failure f⟩

/-! ### The loop over the entries -/

/-- What one entry adds to the three lists. -/
structure Reading where
  extractor : Option ExtractorEvent
  loader : Option LoaderEvent
  alert : Option Alert

/-- The body of the loop. -/
def Host.readEntry (host : Host) (now : Utc) (entry : Json) : Py Reading := do
  let payload ← getOr entry "jsonPayload" (.obj [])
  match payload with
  | .obj payload =>
      let unit := dictGet payload "_SYSTEMD_UNIT"
      let stamp ← getOr entry "timestamp" (dictGetOr payload "timestamp" (.str (utcText now)))
      let entryTime ← host.parseUtcValue stamp
      if isText unit EXTRACTOR_UNIT then
        let event ← host.extractExtractorEvent payload entryTime
        let alert ← host.safeAlert .extractor payload entryTime
        return ⟨event, none, alert⟩
      else if isText unit LOADER_UNIT then
        let event ← extractLoaderEvent payload entryTime
        return ⟨none, event, event.bind loaderAlert⟩
      else return ⟨none, none, none⟩
  | _ => .error .attributeError

/-- The three lists, in the order of the entries. -/
structure Readings where
  extractorEvents : List ExtractorEvent
  loaderEvents : List LoaderEvent
  alerts : List Alert

def Readings.of (rs : List Reading) : Readings :=
  ⟨rs.filterMap Reading.extractor, rs.filterMap Reading.loader, rs.filterMap Reading.alert⟩

/-- The loop. -/
def Host.readEntries (host : Host) (now : Utc) (entries : List Json) : Py Readings := do
  let rs ← entries.mapM (host.readEntry now)
  return Readings.of rs

end Lakehouse.Dashboard
