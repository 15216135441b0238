/-
`_decode_cost_snapshot_tabledata`: the one row of a BigQuery `tabledata.list`
response as a dict of columns.

* `CostRow.format` — the nested `rows`/`f`/`v` shape of a row, as a template.
* `decode_eq_ok` — the decoder takes the documents of that shape, and no others.
* `decode_failsOnly` — every other document raises `ValueError`.
* `costRead` — what `main` makes of the outcome.
-/

import Lakehouse.Dashboard.CostSnapshot
import Lakehouse.Lib.JsonTemplate
import Lakehouse.Lib.Result

namespace Lakehouse.Dashboard

/-- `COST_SNAPSHOT_COLUMNS`. -/
def costSnapshotColumns : List String :=
  ["aggregated_at_utc", "source_exported_at_utc", "currency", "seven_day_net_cost",
    "month_to_date_net_cost", "daily_costs", "top_services"]

/-- `_tabledata_value`. A member that is `null` is there. -/
def tabledataValue (field : Json) : Py Json :=
  match field with
  | .obj d =>
      match Json.lookup "v" d with
      | some value => .ok value
      | none => .error .valueError
  | _ => .error .valueError

/-- `dict(zip(names, values, strict=True))` of different names. -/
def dictZip (names : List String) (values : List Json) : Py Dict :=
  if names.length = values.length then .ok (names.zip values) else .error .valueError

/-- The body of the loop of `_tabledata_records`. -/
def tabledataRecord (names : List String) (entry : Json) : Py Json := do
  match ← tabledataValue entry with
  | .obj record =>
      match dictGet record "f" with
      | .arr recordFields =>
          if recordFields.length = names.length then do
            let values ← recordFields.mapM tabledataValue
            let record ← dictZip names values
            return .obj record
          else .error .valueError
      | _ => .error .valueError
  | _ => .error .valueError

/-- `_tabledata_records`. -/
def tabledataRecords (value : Json) (names : List String) : Py Json :=
  match value with
  | .arr entries => do
      let records ← entries.mapM (tabledataRecord names)
      return .arr records
  | _ => .error .valueError

/-- `snapshot[name] = _tabledata_records(snapshot[name], names)` of a column. -/
def replaceRecords (snapshot : Dict) (name : String) (names : List String) : Py Dict := do
  let records ← tabledataRecords (dictGet snapshot name) names
  return Json.setField name records snapshot

/-- `_decode_cost_snapshot_tabledata`. -/
def decodeCostSnapshotTabledata (payload : Json) : Py Dict :=
  match payload with
  | .obj payload =>
      match dictGet payload "rows" with
      | .arr [.obj row] =>
          match dictGet row "f" with
          | .arr fields =>
              if fields.length = costSnapshotColumns.length then do
                let values ← fields.mapM tabledataValue
                let snapshot ← dictZip costSnapshotColumns values
                let snapshot ← replaceRecords snapshot "daily_costs" ["day_utc", "net_cost"]
                replaceRecords snapshot "top_services" ["service_name", "net_cost"]
              else .error .valueError
          | _ => .error .valueError
      | _ => .error .valueError
  | _ => .error .valueError

/-- What the `except` clauses of `main`'s reads catch, the exit status of a
command apart. -/
def PyError.isReadError (e : PyError) : Bool := e.isValueError || e == .osError

/-- `main`'s cost snapshot and the reason of its absence, after
`read_cost_snapshot`. -/
def costRead (read : Py Dict) : Py (Json × String) :=
  match read with
  | .ok snapshot => .ok (.obj snapshot, "not_configured")
  | .error e => if e.isReadError then .ok (.null, "read_failed") else .error e

/-! ### The format -/

/-- One row of the cost table. -/
structure CostRow where
  aggregatedAtUtc : Json
  sourceExportedAtUtc : Json
  currency : Json
  sevenDayNetCost : Json
  monthToDateNetCost : Json
  dailyCosts : List (Json × Json)
  topServices : List (Json × Json)

section Format

open Json.Template

/-- A field is an object with the value. -/
def cell (value : Json) : Json.Template := .member "v" (.value value)

/-- A record of a repeated column. -/
def pairCell (pair : Json × Json) : Json.Template :=
  .member "v" (.member "f" (.items [cell pair.1, cell pair.2]))

/-- A repeated column. -/
def pairsCell (pairs : List (Json × Json)) : Json.Template :=
  .member "v" (.items (pairs.map pairCell))

def CostRow.format (row : CostRow) : Json.Template :=
  .member "rows" (.items [.member "f" (.items
    [cell row.aggregatedAtUtc, cell row.sourceExportedAtUtc, cell row.currency,
      cell row.sevenDayNetCost, cell row.monthToDateNetCost, pairsCell row.dailyCosts,
      pairsCell row.topServices])])

/-- The response with this row and nothing besides. -/
def CostRow.enc (row : CostRow) : Json := row.format.json

end Format

/-- The pairs of a repeated column, under their two names. -/
def pairRecords (names : String × String) (pairs : List (Json × Json)) : Json :=
  .arr (pairs.map fun pair => .obj [(names.1, pair.1), (names.2, pair.2)])

/-- The row as a dict of its columns. -/
def CostRow.record (row : CostRow) : Dict :=
  [("aggregated_at_utc", row.aggregatedAtUtc),
    ("source_exported_at_utc", row.sourceExportedAtUtc),
    ("currency", row.currency),
    ("seven_day_net_cost", row.sevenDayNetCost),
    ("month_to_date_net_cost", row.monthToDateNetCost),
    ("daily_costs", pairRecords ("day_utc", "net_cost") row.dailyCosts),
    ("top_services", pairRecords ("service_name", "net_cost") row.topServices)]

/-! ### What is accepted -/

theorem dictGet_eq_arr {d : Dict} {name : String} {xs : List Json} :
    dictGet d name = .arr xs ↔ Json.lookup name d = some (.arr xs) :=
  dictGet_eq_iff Json.noConfusion

theorem tabledataValue_eq_ok {field value : Json} :
    tabledataValue field = .ok value ↔ (cell value).Fits field := by
  cases field with
  | obj d =>
      rw [cell, Json.Template.fits_member, tabledataValue]
      simp only [Json.Template.fits_value]
      cases Json.lookup "v" d with
      | none => simp
      | some found => simp [eq_comm]
  | _ =>
      constructor
      · intro h
        cases h
      · rintro ⟨_, _, h, _⟩
        cases h

theorem tabledataValues_eq_ok {fields values : List Json} :
    fields.mapM tabledataValue = .ok values ↔
      (Json.Template.items (values.map cell)).Fits (.arr fields) := by
  simp only [Result.mapM_eq_ok, Json.Template.fits_items_map, tabledataValue_eq_ok]

/-- A list of cells under the member `f`, as both the row and a record have it. -/
theorem fields_fit {d : Dict} {values : List Json} :
    (Json.Template.member "f" (.items (values.map cell))).Fits (.obj d) ↔
      ∃ fields, dictGet d "f" = .arr fields ∧ fields.length = values.length ∧
        fields.mapM tabledataValue = .ok values := by
  rw [Json.Template.fits_member]
  constructor
  · rintro ⟨_, hd, fields, rfl, hfields⟩
    have hfields : (Json.Template.items (values.map cell)).Fits (.arr fields) :=
      ⟨fields, rfl, hfields⟩
    have hlength := (Json.Template.fits_items_map.mp hfields).length_eq
    exact ⟨fields, dictGet_eq_arr.mpr hd, hlength, tabledataValues_eq_ok.mpr hfields⟩
  · rintro ⟨fields, hd, _, hfields⟩
    exact ⟨.arr fields, dictGet_eq_arr.mp hd, tabledataValues_eq_ok.mp hfields⟩

theorem dictZip_eq_ok {names : List String} {values : List Json} {d : Dict} :
    dictZip names values = .ok d ↔ names.length = values.length ∧ names.zip values = d := by
  unfold dictZip
  split <;> simp_all

theorem tabledataRecord_values {names : List String} {entry record : Json} :
    tabledataRecord names entry = .ok record ↔
      ∃ values, values.length = names.length ∧
        (Json.Template.member "v" (.member "f" (.items (values.map cell)))).Fits entry ∧
        record = .obj (names.zip values) := by
  rw [tabledataRecord, Result.bind_eq_ok]
  simp only [tabledataValue_eq_ok]
  constructor
  · rintro ⟨value, hvalue, hrecord⟩
    cases value with
    | obj d =>
        cases hf : dictGet d "f" with
        | arr fields =>
            simp only [hf] at hrecord
            split at hrecord
            · rename_i hlength
              obtain ⟨values, hvalues, hrecord⟩ := Result.bind_eq_ok.mp hrecord
              obtain ⟨zipped, hzip, hrecord⟩ := Result.bind_eq_ok.mp hrecord
              obtain ⟨hcount, rfl⟩ := dictZip_eq_ok.mp hzip
              refine ⟨values, hcount.symm, ?_, (Result.pure_eq_ok.mp hrecord).symm⟩
              refine Json.Template.fits_member_iff.mpr ⟨.obj d, hvalue, fields_fit.mpr ?_⟩
              exact ⟨fields, hf, hlength.trans hcount, hvalues⟩
            · cases hrecord
        | _ =>
            simp only [hf] at hrecord
            cases hrecord
    | _ => cases hrecord
  · rintro ⟨values, hcount, hfits, rfl⟩
    obtain ⟨value, hvalue, hfields⟩ := Json.Template.fits_member_iff.mp hfits
    obtain ⟨d, rfl⟩ := Json.Template.fits_member_obj hfields
    obtain ⟨fields, hf, hlength, hvalues⟩ := fields_fit.mp hfields
    refine ⟨.obj d, hvalue, ?_⟩
    simp only [hf]
    rw [if_pos (hlength.trans hcount)]
    have hzip : dictZip names values = .ok (names.zip values) :=
      dictZip_eq_ok.mpr ⟨hcount.symm, rfl⟩
    exact Result.bind_eq_ok.mpr ⟨values, hvalues, Result.bind_eq_ok.mpr ⟨_, hzip, rfl⟩⟩

/-- A record of two names is a pair. -/
theorem tabledataRecord_eq_ok {a b : String} {entry record : Json} :
    tabledataRecord [a, b] entry = .ok record ↔
      ∃ pair, (pairCell pair).Fits entry ∧ record = .obj [(a, pair.1), (b, pair.2)] := by
  rw [tabledataRecord_values]
  constructor
  · rintro ⟨values, hcount, hfits, rfl⟩
    obtain ⟨x, y, rfl⟩ := List.length_eq_two.mp hcount
    exact ⟨(x, y), hfits, rfl⟩
  · rintro ⟨⟨x, y⟩, hfits, rfl⟩
    exact ⟨[x, y], rfl, hfits, rfl⟩

theorem tabledataRecords_eq_ok {a b : String} {value records : Json} :
    tabledataRecords value [a, b] = .ok records ↔
      ∃ pairs : List (Json × Json), (Json.Template.items (pairs.map pairCell)).Fits value ∧
        records = pairRecords (a, b) pairs := by
  cases value with
  | arr entries =>
      rw [tabledataRecords, Result.bind_eq_ok]
      simp only [Result.mapM_eq_ok, tabledataRecord_eq_ok, Json.Template.fits_items_map,
        Result.pure_eq_ok]
      constructor
      · rintro ⟨_, hentries, rfl⟩
        obtain ⟨pairs, hpairs, rfl⟩ := Result.forall₂_exists_map.mp hentries
        exact ⟨pairs, hpairs, rfl⟩
      · rintro ⟨pairs, hpairs, rfl⟩
        exact ⟨_, Result.forall₂_exists_map.mpr ⟨pairs, hpairs, rfl⟩, rfl⟩
  | _ =>
      constructor
      · intro h
        cases h
      · rintro ⟨_, ⟨_, h, _⟩, _⟩
        cases h

/-- The two repeated columns of a zipped row. -/
def columnRecords (values : List Json) : Py Dict := do
  let snapshot ← dictZip costSnapshotColumns values
  let snapshot ← replaceRecords snapshot "daily_costs" ["day_utc", "net_cost"]
  replaceRecords snapshot "top_services" ["service_name", "net_cost"]

theorem columnRecords_eq_ok {a b c d e daily top : Json} {snapshot : Dict} :
    columnRecords [a, b, c, d, e, daily, top] = .ok snapshot ↔
      ∃ dailyCosts topServices,
        (Json.Template.items (dailyCosts.map pairCell)).Fits daily ∧
        (Json.Template.items (topServices.map pairCell)).Fits top ∧
        snapshot = (CostRow.mk a b c d e dailyCosts topServices).record := by
  simp only [columnRecords, replaceRecords, Result.bind_eq_ok, Result.pure_eq_ok,
    tabledataRecords_eq_ok, dictZip_eq_ok]
  constructor
  · rintro ⟨_, ⟨_, rfl⟩, _, ⟨_, ⟨dailyCosts, hdaily, rfl⟩, rfl⟩, _, ⟨topServices, htop, rfl⟩, rfl⟩
    exact ⟨dailyCosts, topServices, hdaily, htop, rfl⟩
  · rintro ⟨dailyCosts, topServices, hdaily, htop, rfl⟩
    exact ⟨_, ⟨rfl, rfl⟩, _, ⟨_, ⟨dailyCosts, hdaily, rfl⟩, rfl⟩, _, ⟨topServices, htop, rfl⟩, rfl⟩

/-- The fields of a row fit a `CostRow` when the two repeated ones hold its pairs. -/
theorem rowFields_fit {fields : List Json} {row : CostRow} :
    (Json.Template.items
      [cell row.aggregatedAtUtc, cell row.sourceExportedAtUtc, cell row.currency,
        cell row.sevenDayNetCost, cell row.monthToDateNetCost, pairsCell row.dailyCosts,
        pairsCell row.topServices]).Fits (.arr fields) ↔
      ∃ daily top,
        fields.mapM tabledataValue = .ok [row.aggregatedAtUtc, row.sourceExportedAtUtc,
          row.currency, row.sevenDayNetCost, row.monthToDateNetCost, daily, top] ∧
        (Json.Template.items (row.dailyCosts.map pairCell)).Fits daily ∧
        (Json.Template.items (row.topServices.map pairCell)).Fits top := by
  let plain := [row.aggregatedAtUtc, row.sourceExportedAtUtc, row.currency, row.sevenDayNetCost,
    row.monthToDateNetCost].map cell
  constructor
  · intro h
    obtain ⟨daily, h, hdaily⟩ :=
      (Json.Template.fits_items_member_iff plain [pairsCell row.topServices]).mp h
    obtain ⟨top, h, htop⟩ :=
      (Json.Template.fits_items_member_iff (plain ++ [cell daily]) []).mp h
    exact ⟨daily, top, tabledataValues_eq_ok.mpr h, hdaily, htop⟩
  · rintro ⟨daily, top, hvalues, hdaily, htop⟩
    have h := (Json.Template.fits_items_member_iff (plain ++ [cell daily]) []).mpr
      ⟨top, tabledataValues_eq_ok.mp hvalues, htop⟩
    exact (Json.Template.fits_items_member_iff plain [pairsCell row.topServices]).mpr
      ⟨daily, h, hdaily⟩

theorem columns_of_length {values : List Json} (h : values.length = costSnapshotColumns.length) :
    ∃ a b c d e daily top, values = [a, b, c, d, e, daily, top] := by
  match values, h with
  | [a, b, c, d, e, daily, top], _ => exact ⟨a, b, c, d, e, daily, top, rfl⟩

/-- A response is fit when its one row is. -/
theorem rows_fit {parts : List Json.Template} {p : Json} :
    (Json.Template.member "rows" (.items [.member "f" (.items parts)])).Fits p ↔
      ∃ payload row fields, p = .obj payload ∧ dictGet payload "rows" = .arr [.obj row] ∧
        dictGet row "f" = .arr fields ∧ (Json.Template.items parts).Fits (.arr fields) := by
  constructor
  · rintro ⟨payload, _, rfl, hrows, _, rfl, _, _, rfl, ⟨row, _, rfl, hf, fields, rfl, hparts⟩, rfl⟩
    exact ⟨payload, row, fields, rfl, dictGet_eq_arr.mpr hrows, dictGet_eq_arr.mpr hf,
      fields, rfl, hparts⟩
  · rintro ⟨payload, row, fields, rfl, hrows, hf, hparts⟩
    refine ⟨payload, _, rfl, dictGet_eq_arr.mp hrows, _, rfl, .obj row, [], rfl, ?_, rfl⟩
    exact ⟨row, _, rfl, dictGet_eq_arr.mp hf, hparts⟩

theorem decode_eq_ok {p : Json} {snapshot : Dict} :
    decodeCostSnapshotTabledata p = .ok snapshot ↔
      ∃ row : CostRow, row.format.Fits p ∧ snapshot = row.record := by
  constructor
  · intro h
    unfold decodeCostSnapshotTabledata at h
    split at h
    · rename_i payload
      split at h
      · rename_i d hrows
        split at h
        · rename_i fields hf
          split at h
          · rename_i hlength
            obtain ⟨values, hvalues, h⟩ := Result.bind_eq_ok.mp h
            have hcount := (Result.mapM_eq_ok.mp hvalues).length_eq.symm.trans hlength
            obtain ⟨_, _, _, _, _, daily, top, rfl⟩ := columns_of_length hcount
            obtain ⟨dailyCosts, topServices, hdaily, htop, rfl⟩ := columnRecords_eq_ok.mp h
            refine ⟨_, rows_fit.mpr ⟨payload, d, fields, rfl, hrows, hf, ?_⟩, rfl⟩
            exact rowFields_fit.mpr ⟨daily, top, hvalues, hdaily, htop⟩
          · cases h
        · cases h
      · cases h
    · cases h
  · rintro ⟨row, hfits, rfl⟩
    obtain ⟨payload, d, fields, rfl, hrows, hf, hparts⟩ := rows_fit.mp hfits
    obtain ⟨daily, top, hvalues, hdaily, htop⟩ := rowFields_fit.mp hparts
    have hlength : fields.length = costSnapshotColumns.length :=
      (Result.mapM_eq_ok.mp hvalues).length_eq
    simp only [decodeCostSnapshotTabledata, hrows, hf, if_pos hlength]
    refine Result.bind_eq_ok.mpr ⟨_, hvalues, columnRecords_eq_ok.mpr ?_⟩
    exact ⟨row.dailyCosts, row.topServices, hdaily, htop, rfl⟩

/-! ### What is raised -/

theorem tabledataValue_failsOnly (field : Json) :
    Result.FailsOnly (· = .valueError) (tabledataValue field) := by
  unfold tabledataValue
  split
  · split
    · exact Result.failsOnly_ok _ _
    · exact Result.failsOnly_error rfl
  · exact Result.failsOnly_error rfl

theorem dictZip_failsOnly (names : List String) (values : List Json) :
    Result.FailsOnly (· = .valueError) (dictZip names values) := by
  unfold dictZip
  split
  · exact Result.failsOnly_ok _ _
  · exact Result.failsOnly_error rfl

theorem tabledataRecord_failsOnly (names : List String) (entry : Json) :
    Result.FailsOnly (· = .valueError) (tabledataRecord names entry) := by
  refine Result.failsOnly_bind (tabledataValue_failsOnly entry) fun record => ?_
  split
  · split
    · split
      · refine Result.failsOnly_bind (Result.failsOnly_mapM tabledataValue_failsOnly _) fun values => ?_
        exact Result.failsOnly_bind (dictZip_failsOnly names values) fun _ => Result.failsOnly_ok _ _
      · exact Result.failsOnly_error rfl
    · exact Result.failsOnly_error rfl
  · exact Result.failsOnly_error rfl

theorem tabledataRecords_failsOnly (value : Json) (names : List String) :
    Result.FailsOnly (· = .valueError) (tabledataRecords value names) := by
  unfold tabledataRecords
  split
  · exact Result.failsOnly_bind (Result.failsOnly_mapM (tabledataRecord_failsOnly names) _)
      fun _ => Result.failsOnly_ok _ _
  · exact Result.failsOnly_error rfl

theorem columnRecords_failsOnly (values : List Json) :
    Result.FailsOnly (· = .valueError) (columnRecords values) := by
  have hreplace (snapshot : Dict) (name : String) (names : List String) :
      Result.FailsOnly (· = .valueError) (replaceRecords snapshot name names) :=
    Result.failsOnly_bind (tabledataRecords_failsOnly _ names) fun _ => Result.failsOnly_ok _ _
  refine Result.failsOnly_bind (dictZip_failsOnly _ values) fun zipped => ?_
  exact Result.failsOnly_bind (hreplace zipped _ _) fun snapshot => hreplace snapshot _ _

theorem decode_failsOnly (p : Json) :
    Result.FailsOnly (· = .valueError) (decodeCostSnapshotTabledata p) := by
  unfold decodeCostSnapshotTabledata
  split
  · split
    · split
      · split
        · exact Result.failsOnly_bind (Result.failsOnly_mapM tabledataValue_failsOnly _)
            columnRecords_failsOnly
        · exact Result.failsOnly_error rfl
      · exact Result.failsOnly_error rfl
    · exact Result.failsOnly_error rfl
  · exact Result.failsOnly_error rfl

/-- What is encoded is decoded. -/
theorem decode_enc (row : CostRow) : decodeCostSnapshotTabledata row.enc = .ok row.record :=
  decode_eq_ok.mpr ⟨row, Json.Template.fits_json row.format, rfl⟩

/-- The decoder returns the rows of the fixed table-data format, under the seven
column names. Everything else is a `ValueError`, and leaves the cost section
unavailable. -/
theorem decodeCostSnapshot_exact (p : Json) :
    (∀ snapshot, decodeCostSnapshotTabledata p = .ok snapshot ↔
      ∃ row : CostRow, row.format.Fits p ∧ snapshot = row.record) ∧
    ((∃ snapshot, decodeCostSnapshotTabledata p = .ok snapshot ∧
        snapshot.map Prod.fst = costSnapshotColumns) ↔ ∃ row : CostRow, row.format.Fits p) ∧
    ((decodeCostSnapshotTabledata p = .error .valueError ∧
        costRead (decodeCostSnapshotTabledata p) = .ok (.null, "read_failed") ∧
        ∀ now, summarizeCostSnapshot .null now "read_failed" =
          .ok (unavailableCosts "read_failed")) ↔
      ¬ ∃ row : CostRow, row.format.Fits p) := by
  refine ⟨fun snapshot => decode_eq_ok, ?_, ?_⟩
  · constructor
    · rintro ⟨snapshot, h, _⟩
      obtain ⟨row, hfits, _⟩ := decode_eq_ok.mp h
      exact ⟨row, hfits⟩
    · rintro ⟨row, hfits⟩
      exact ⟨row.record, decode_eq_ok.mpr ⟨row, hfits, rfl⟩, rfl⟩
  · constructor
    · rintro ⟨herror, _⟩ ⟨row, hfits⟩
      rw [decode_eq_ok.mpr ⟨row, hfits, rfl⟩] at herror
      cases herror
    · intro hno
      cases h : decodeCostSnapshotTabledata p with
      | ok snapshot =>
          obtain ⟨row, hfits, _⟩ := decode_eq_ok.mp h
          exact absurd ⟨row, hfits⟩ hno
      | error e =>
          obtain rfl := decode_failsOnly p e h
          exact ⟨rfl, rfl, fun _ => rfl⟩

end Lakehouse.Dashboard
