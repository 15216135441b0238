/-
`main.ts`: the page that shows the published document.

The page takes whatever it has parsed as a `Metrics` value, without a check. A
rendering is a sequence of assignments to elements; the first one that throws ends
it, and what is assigned stays.

* `Browser` — the parts of the engine the page uses.
* `Browser.render`, `Browser.load` — the page.
* `perform_eq_none` — a rendering is complete if every assignment works.
-/

import Lakehouse.Dashboard.Publish

namespace Lakehouse.Dashboard.Page

/-- A value of the page; `none` is `undefined`. -/
abbrev Value := Option Json

inductive JsError where
  | typeError
  | rangeError
  | syntaxError
  | failed (message : String)
deriving DecidableEq, Repr

abbrev Js := Except JsError

/-- `Date`, `Intl` and the conversions of the engine. -/
structure Browser where
  /-- `new Date(value)`, in milliseconds; nothing if the date is invalid. -/
  date : Value → Option Int
  /-- `utcTimeFormat.format` -/
  utcTime : Int → String
  /-- `istTimeFormat.format` -/
  istTime : Int → String
  /-- `numberFormat.format` -/
  number : Value → String
  /-- `new Intl.NumberFormat("en-US", { style: "currency", currency, … }).format(value)`,
  unless it throws. -/
  currency : Value → Value → Option String
  /-- `Number(value)` of a string, a list or an object. -/
  toNumber : Json → Float
  /-- `String(value)` -/
  toText : Value → String
  toFixed : Float → Nat → String
  message : JsError → String

/-! ### Values -/

/-- The test of `value ? … : …`; every list and object passes, empty or not. -/
def truthy : Value → Bool
  | none | some .null => false
  | some (.bool x) => x
  | some (.int n) => n != 0
  | some (.float x) => !(x == 0 || x.isNaN)
  | some (.str s) => !s.isEmpty
  | some (.arr _) | some (.obj _) => true

/-- `value ?? default`. -/
def orElse (value default : Value) : Value :=
  match value with
  | none | some .null => default
  | value => value

/-- `value === text` -/
def isText (value : Value) (text : String) : Bool :=
  match value with
  | some (.str s) => s == text
  | _ => false

/-- `value === number` -/
def isNumber (value : Value) (number : Float) : Bool :=
  match value with
  | some (.float x) => x == number
  | _ => false

/-- `value.name` -/
def member (value : Js Value) (name : String) : Js Value := do
  match ← value with
  | none | some .null => throw .typeError
  | some (.obj fields) => return Json.lookup name fields
  | _ => return none

/-- `value.length === 0` -/
def isEmpty (value : Js Value) : Js Bool := do
  match ← value with
  | none | some .null => throw .typeError
  | some (.arr items) => return items.isEmpty
  | some (.str s) => return s.isEmpty
  | _ => return false

/-- The items `map`, `forEach` and the spread go through. -/
def items (value : Js Value) : Js (List Json) := do
  match ← value with
  | some (.arr items) => return items
  | _ => throw .typeError

/-- `Math.max`. -/
def maximum (x y : Float) : Float :=
  if x.isNaN || y.isNaN then 0 / 0 else if x < y then y else x

def isWord (c : Char) : Bool := c.isAlphanum || c == '_'

/-- `replace(/\b\w/g, (letter) => letter.toUpperCase())`, behind a character. -/
def capitalize (behindWord : Bool) : List Char → List Char
  | [] => []
  | c :: cs => (if isWord c && !behindWord then c.toUpper else c) :: capitalize (isWord c) cs

/-- `title`. Only strings have `replaceAll`. -/
def title (value : Js Value) : Js String := do
  match ← value with
  | some (.str s) =>
      return String.ofList (capitalize false (s.toList.map fun c => if c = '_' then ' ' else c))
  | _ => throw .typeError

example : title (.ok (some (.str "pre_open"))) = .ok "Pre Open" := by decide

namespace Browser

variable (b : Browser)

/-! ### Formats -/

/-- `utcTimeFormat.format(new Date(value))`. -/
def format (value : Js Value) : Js Int := do
  match b.date (← value) with
  | some ms => return ms
  | none => throw .rangeError

def utc (value : Js Value) : Js String := do
  if truthy (← value) then return b.utcTime (← b.format value) ++ " UTC" else return "—"

def utcAndIst (value : Js Value) : Js String := do
  let instant ← b.format value
  return b.utcTime instant ++ " UTC · " ++ b.istTime instant ++ " IST"

def metric (value : Js Value) : Js String := do
  match ← value with
  | some .null => return "—"
  | value => return b.number value

def asNumber : Value → Float
  | none => 0 / 0
  | some .null => 0
  | some (.bool x) => if x then 1 else 0
  | some (.float x) => x
  | some value => b.toNumber value

/-- The loop of `bytes` for the units that are left: the size and the units passed. -/
def scale : Nat → Float → Float × Nat
  | 0, size => (size, 0)
  | units + 1, size =>
      if 1024 ≤ size then
        let (size, index) := scale units (size / 1024)
        (size, index + 1)
      else (size, 0)

def units : List String := ["B", "KiB", "MiB", "GiB", "TiB"]

/-- `bytes`. A size that is not divided keeps its type, and only numbers have
`toFixed`. -/
def bytes (value : Js Value) : Js String := do
  match ← value with
  | some .null => return "—"
  | value =>
      let (size, index) := scale 4 (b.asNumber value)
      match index, value with
      | 0, some (.float x) => return b.toFixed x 0 ++ " B"
      | 0, _ => throw .typeError
      | index, _ =>
          return b.toFixed size (if 10 ≤ size then 0 else 1) ++ " " ++ units.getD index ""

def money (value currency : Js Value) : Js String := do
  match ← value, ← currency with
  | some .null, _ | _, some .null => return "—"
  | value, currency =>
      match b.currency currency value with
      | some text => return text
      | none =>
          match value with
          | some (.float x) => return b.toFixed x 2 ++ " " ++ b.toText currency
          | _ => throw .typeError

def duration (value : Js Value) : Js String := do
  match ← value with
  | some .null => return "—"
  | value =>
      let ms := b.asNumber value
      if ms < 1000 then return b.number value ++ " ms" else return b.toFixed (ms / 1000) 1 ++ " s"

end Browser

/-! ### Assignments -/

/-- What the page changes of an element. -/
inductive Write where
  | text (id : String) (text : String)
  | className (id : String) (name : String)
  | hidden (id : String) (hidden : Bool)
  /-- The columns of a chart: their heights and titles. -/
  | columns (id : String) (columns : List (String × String))
  | clear (id : String)
  /-- An item of a list, with the text of its `strong` element. -/
  | item (id : String) (text : String) (strong : Option String)
deriving DecidableEq, Repr

def setText (id : String) (text : Js String) : Js Write := text.map (.text id)

/-- The assignments up to the first one that throws, and what it throws. -/
def perform : List (Js Write) → List Write × Option JsError
  | [] => ([], none)
  | .error e :: _ => ([], some e)
  | .ok w :: rest =>
      let (done, thrown) := perform rest
      (w :: done, thrown)

/-- A template literal. -/
def concat (parts : List (Js String)) : Js String := do return String.join (← parts.mapM id)

namespace Browser

variable (b : Browser)

/-- A chart of the rows' sizes: the columns stand for some of the rows and are as high
as their share of the largest size, which is at least `least`. -/
def renderColumns (id emptyId : String) (rows : Js Value) (size : Js Value → Js Float) (least : Float)
    (shown : List Json → List Json) (label : Js Value → Js String) : List (Js Write) :=
  match isEmpty rows with
  | .error e => [.error e]
  | .ok true => [.ok (.columns id []), .ok (.hidden emptyId false)]
  | .ok false =>
      [.ok (.hidden emptyId true), do
        let rows ← items rows
        let sizes ← rows.mapM fun row => size (.ok (some row))
        let largest := sizes.foldl maximum least
        let columns ← (shown rows).mapM fun row => do
          let height := maximum 8 ((← size (.ok (some row))) / largest * 100)
          return (b.toText (some (.float height)) ++ "%", ← label (.ok (some row)))
        return .columns id columns]

/-- `renderChart` -/
def renderChart (commits : Js Value) : List (Js Write) :=
  b.renderColumns "commit-chart" "chart-empty" commits
    (fun commit => do return b.asNumber (orElse (← member commit "duration_ms") (some (.float 0)))) 1
    (fun commits => commits.drop (commits.length - 24))
    (fun commit => concat [b.utc (member commit "at_utc"), .ok " · ",
      b.duration (member commit "duration_ms"), .ok " · ", b.metric (member commit "bars"), .ok " bars"])

/-- `renderAlerts` -/
def renderAlerts (alerts : Js Value) : List (Js Write) :=
  .ok (.clear "alerts") :: match isEmpty alerts, items alerts with
    | .error e, _ => [.error e]
    | .ok true, _ => [.ok (.item "alerts" "No recent alerts." none)]
    | .ok false, .error e => [.error e]
    | .ok false, .ok alerts => alerts.map fun alert => do
        let alert : Js Value := .ok (some alert)
        let text ← concat [b.utc (member alert "at_utc"), .ok " · ",
          b.toText <$> member alert "severity", .ok " · ", title (member alert "code")]
        return .item "alerts" text none

/-- `renderCostChart` -/
def renderCostChart (costs : Js Value) : List (Js Write) :=
  b.renderColumns "cost-chart" "cost-chart-empty" (member costs "daily_costs")
    (fun cost => do return (b.asNumber (← member cost "net_cost")).abs) 0.01
    id
    (fun cost => concat [b.toText <$> member cost "day_utc", .ok " · ",
      b.money (member cost "net_cost") (member costs "currency")])

/-- `renderTopServices` -/
def renderTopServices (costs : Js Value) : List (Js Write) :=
  let services := member costs "top_services"
  .ok (.clear "top-services") :: match isEmpty services, items services with
    | .error e, _ => [.error e]
    | .ok true, _ => [.ok (.item "top-services" "No cost data available." none)]
    | .ok false, .error e => [.error e]
    | .ok false, .ok services => services.zipIdx.map fun (service, index) => do
        let service : Js Value := .ok (some service)
        let name := b.toText (← member service "service_name")
        let amount ← b.money (member service "net_cost") (member costs "currency")
        return .item "top-services" (toString (index + 1) ++ ". " ++ name) (some amount)

/-! ### `render` -/

/-- The head of the page. -/
def renderHead (data market health : Js Value) : List (Js Write) :=
  [setText "health-badge" (title (member health "status")),
    (member health "status").map fun status => .className "health-badge" ("badge " ++ b.toText status),
    setText "generated-at" (concat [.ok "Refreshed ", b.utcAndIst (member data "generated_at_utc")]),
    setText "market-state" (title (member market "state")),
    setText "next-open" (b.utc (member market "next_expected_open_utc"))]

def renderProgress (extractor loader : Js Value) : List (Js Write) :=
  [setText "last-bar" (b.utc (member extractor "last_bar_utc")),
    setText "extractor-state" (title (member extractor "status")),
    setText "last-commit" (b.utc (member loader "last_commit_utc")),
    setText "commit-detail" (do
      match ← member loader "last_commit_utc" with
      | some .null => return "No recent durable commit"
      | _ =>
          let state := orElse (← member loader "state") (← member loader "status")
          concat [title (.ok state), .ok " · ", b.duration (member loader "last_commit_duration_ms"),
            .ok " durable commit"])]

def renderLoader (loader : Js Value) : List (Js Write) :=
  [setText "loader-state" (do
      let state ← member loader "state"
      if truthy state then title (.ok state) else return "—"),
    setText "loader-lag" (b.metric (member loader "aggregate_lag_records")),
    setText "loader-buffered-bars" (b.metric (member loader "buffered_bars")),
    setText "loader-commit-duration" (b.duration (member loader "last_commit_duration_ms")),
    setText "loader-health-detail" (do
      if truthy (← member loader "latest_heartbeat_utc") then
        concat [.ok "Heartbeat ", b.utc (member loader "latest_heartbeat_utc"), .ok " · last input ",
          b.utc (member loader "last_input_utc"), .ok " · process started ",
          b.utc (member loader "process_started_at_utc"), .ok "."]
      else return "No structured loader heartbeat in the dashboard window."),
    setText "loader-failure-detail" (do
      let count ← member loader "failure_count"
      if isNumber count 0 then return "No loader failures in the dashboard window."
      else
        let capped ← member loader "failure_count_is_capped"
        let code := orElse (← member loader "last_failure_code") (some (.str "unknown"))
        concat [b.metric (.ok count), .ok (if truthy capped then "+" else ""), .ok " loader failure",
          .ok (if isNumber count 1 then "" else "s"), .ok "; latest ",
          b.utc (member loader "last_failure_utc"), .ok " (", title (.ok code), .ok ")."])]

def renderExtractor (extractor : Js Value) : List (Js Write) :=
  [setText "received" (b.metric (member extractor "messages_received")),
    setText "sent" (b.metric (member extractor "messages_sent")),
    setText "delivery-failures" (b.metric (member extractor "delivery_failures")),
    setText "extractor-errors" (b.metric (member extractor "errors"))]

def renderTable (table : Js Value) : List (Js Write) :=
  [setText "table-records" (b.metric (member table "total_records")),
    setText "table-files" (b.metric (member table "total_data_files")),
    setText "table-size" (b.bytes (member table "total_files_size_bytes")),
    setText "table-operation" (do
      let operation ← member table "latest_operation"
      if truthy operation then title (.ok operation) else return "—"),
    setText "table-average-file" (b.bytes (member table "average_data_file_size_bytes")),
    setText "table-average-rows" (b.metric (member table "average_rows_per_data_file")),
    setText "table-snapshots" (b.metric (member table "snapshot_history_count")),
    setText "table-delete-files" (b.metric (member table "total_delete_files")),
    setText "table-commit-detail" (do
      if isText (← member table "status") "available" then
        let files ← member table "latest_added_data_files"
        concat [.ok "Current Iceberg commit ", b.utc (member table "current_snapshot_commit_utc"),
          .ok " · ", b.metric (member table "latest_added_records"), .ok " rows · ",
          b.metric (.ok files), .ok " file", .ok (if isNumber files 1 then "" else "s"), .ok " · ",
          b.bytes (member table "latest_added_files_size_bytes"), .ok "."]
      else return "Table metadata is not available in this dashboard run."),
    setText "table-maintenance-detail" (do
      if isText (← member table "status") "available" then
        concat [.ok "Metadata updated ", b.utc (member table "last_metadata_update_utc"), .ok " · ",
          b.metric (member table "metadata_history_count"), .ok " retained metadata versions · ",
          b.metric (member table "total_delete_files"), .ok " delete files."]
      else return "Table health is informational and does not affect pipeline health.")]

def renderCosts (costs : Js Value) : List (Js Write) :=
  [setText "cost-today" (b.money (member costs "today_net_cost") (member costs "currency")),
    setText "cost-seven-day" (b.money (member costs "seven_day_net_cost") (member costs "currency")),
    setText "cost-mtd" (b.money (member costs "month_to_date_net_cost") (member costs "currency")),
    setText "cost-detail" (do
      if isText (← member costs "status") "available" then
        concat [.ok "Estimated usage cost · UTC · billing export refreshed ",
          b.utc (member costs "source_exported_at_utc"), .ok " · aggregate refreshed ",
          b.utc (member costs "aggregated_at_utc"), .ok "."]
      else
        return "Cost data is not available in this dashboard run. Pipeline health is unaffected.")]

def renderSession (market health extractor : Js Value) : List (Js Write) :=
  [setText "shutdown-detail" (do
      let reason ← member extractor "shutdown_reason"
      if truthy reason then concat [.ok "Clean shutdown after ", title (.ok reason), .ok "."]
      else if isText (← member extractor "status") "observed" then
        return "Live session observed; final metrics are pending."
      else return "No current session observed."),
    setText "final-metrics" (do
      if truthy (← member extractor "final_metrics_at_utc") then
        concat [.ok "Final metrics recorded ", b.utc (member extractor "final_metrics_at_utc"), .ok "."]
      else if isText (← member extractor "status") "observed" then
        return "Live session; final metrics will appear after the idle shutdown window."
      else return "Final extractor metrics are not yet available."),
    setText "summary" (do
      if ← isEmpty (member health "reasons") then
        concat [title (member market "state"), .ok " · no current dashboard concerns."]
      else
        let state ← title (member market "state")
        let reasons ← (← items (member health "reasons")).mapM fun reason => title (.ok (some reason))
        return state ++ " · " ++ ", ".intercalate reasons ++ "."),
    (member market "state").map fun state =>
      .hidden "notice" (!isText state "weekend" && !isText state "closed"),
    .ok (.text "notice"
      "No bars are expected outside the market session. The last completed session remains visible.")]

/-- `render` -/
def render (data : Value) : List (Js Write) :=
  let data : Js Value := .ok data
  let market := member data "market"
  let health := member data "health"
  let extractor := member data "extractor"
  let loader := member data "loader"
  let table := member data "table"
  let costs := member data "costs"
  b.renderHead data market health ++ b.renderProgress extractor loader ++ b.renderLoader loader ++
    b.renderExtractor extractor ++ b.renderTable table ++ b.renderCosts costs ++
    b.renderSession market health extractor ++ b.renderChart (member loader "recent_commits") ++
    b.renderCostChart costs ++ b.renderTopServices costs ++ b.renderAlerts (member data "alerts")

/-- The `catch` block of `load`. -/
def unavailable (e : JsError) : List Write :=
  [.text "summary" "Public metrics are not available yet.", .text "health-badge" "Unavailable",
    .className "health-badge" "badge unknown", .hidden "notice" false, .text "notice" (b.message e)]

/-- `load`, with the text of the response: what it assigns, and what it has caught. -/
def load (response : Js String) : List Write × Option JsError :=
  match response.bind fun text => (jsonParse text).mapError fun _ => .syntaxError with
  | .error e => (b.unavailable e, some e)
  | .ok page =>
      match perform (b.render (some page)) with
      | (done, none) => (done, none)
      | (done, some e) => (done ++ b.unavailable e, some e)

end Browser

/-! ### What works -/

/-- A computation of the page does not throw. -/
def Done {α : Type} (x : Js α) : Prop := ∃ a, x = .ok a

section Done

variable {α β : Type}

@[simp] theorem done_ok (a : α) : Done (.ok a : Js α) := ⟨a, rfl⟩

@[simp] theorem done_pure (a : α) : Done (pure a : Js α) := ⟨a, rfl⟩

@[simp] theorem not_done_error (e : JsError) : ¬ Done (.error e : Js α) := by
  rintro ⟨_, h⟩
  cases h

@[simp] theorem not_done_throw (e : JsError) : ¬ Done (throw e : Js α) := not_done_error e

@[simp] theorem done_map {x : Js α} {f : α → β} : Done (x.map f) ↔ Done x := by
  cases x <;> simp [Except.map]

@[simp] theorem done_functor {x : Js α} {f : α → β} : Done (f <$> x) ↔ Done x := done_map

theorem done_bind_pure {x : Js α} {f : α → β} : Done (x >>= fun a => pure (f a)) ↔ Done x := by
  cases x with
  | error e => exact iff_of_false (not_done_error e) (not_done_error e)
  | ok a => exact iff_of_true (done_ok _) (done_ok a)

theorem done_bind_ok (a : α) (f : α → Js β) : Done (.ok a >>= f) ↔ Done (f a) := Iff.rfl

theorem done_bind {x : Js α} {f : α → Js β} (hx : Done x) (hf : ∀ a, x = .ok a → Done (f a)) :
    Done (x >>= f) := by
  obtain ⟨a, rfl⟩ := hx
  exact hf a rfl

theorem done_mapM {f : α → Js β} {xs : List α} : Done (xs.mapM f) ↔ ∀ x ∈ xs, Done (f x) := by
  simp only [Done, Result.mapM_eq_ok]
  constructor
  · rintro ⟨ys, hys⟩ x hx
    obtain ⟨y, _, hy⟩ := Result.exists_of_mem_left hys hx
    exact ⟨y, hy⟩
  · exact Result.exists_forall₂

theorem done_concat {parts : List (Js String)} : Done (concat parts) ↔ ∀ part ∈ parts, Done part := by
  have hparts : Done (parts.mapM id) ↔ ∀ part ∈ parts, Done part := done_mapM
  rw [← hparts]
  exact done_bind_pure

@[simp] theorem done_setText {id : String} {text : Js String} : Done (setText id text) ↔ Done text :=
  done_map

end Done

/-- Every assignment works. -/
def Works (writes : List (Js Write)) : Prop := ∀ write ∈ writes, Done write

@[simp] theorem works_nil : Works [] := fun _ h => absurd h List.not_mem_nil

@[simp] theorem works_cons {write : Js Write} {writes : List (Js Write)} :
    Works (write :: writes) ↔ Done write ∧ Works writes := List.forall_mem_cons

@[simp] theorem works_append {xs ys : List (Js Write)} : Works (xs ++ ys) ↔ Works xs ∧ Works ys :=
  List.forall_mem_append

theorem perform_eq_none {writes : List (Js Write)} : (perform writes).2 = none ↔ Works writes := by
  induction writes with
  | nil => simp [perform]
  | cons write writes ih =>
      cases write with
      | error e => simp [perform]
      | ok w => simp [perform, ih]

theorem mem_perform {writes : List (Js Write)} {w : Write} (h : (perform writes).2 = none)
    (hw : .ok w ∈ writes) : w ∈ (perform writes).1 := by
  induction writes with
  | nil => exact absurd hw List.not_mem_nil
  | cons write writes ih =>
      cases write with
      | error e => cases h
      | ok v =>
          rcases List.mem_cons.mp hw with heq | hw
          · cases heq
            exact List.mem_cons_self
          · exact List.mem_cons_of_mem _ (ih h hw)

end Lakehouse.Dashboard.Page
