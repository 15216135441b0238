/-
Which table metadata and cost snapshots `build_snapshot` can show.

Neither section has a say in the others, but a conversion that raises inside
one ends the whole run. `Host.TableReadable` and `CostReadable` say of which
inputs no conversion raises.

* `metadataInteger_returns`, `metadataUtc_returns`, `ratio_returns`,
  `safeCost_returns` — one conversion each.
* `summarizeTableMetadata_returns`, `summarizeCostSnapshot_returns` — the
  sections.
* `sections_unaffected_iff` — when the document is that without them.
* `microsecondMetadata_raises` — a metadata document that ends the run.
-/

import Lakehouse.Dashboard.BuildSnapshot
import Lakehouse.Dashboard.Returns

namespace Lakehouse.Dashboard

/-! ### Table metadata -/

/-- A decimal string is one that `int` reads. -/
def ShortNumeral (value : Json) : Prop :=
  ∀ s, value = .str s → isDecimal s = true → s.toList.length ≤ maxStrDigits

theorem metadataInteger_returns {value : Json} :
    Returns (metadataInteger value) ↔ ShortNumeral value := by
  cases value with
  | str s =>
      by_cases hdecimal : isDecimal s = true
      · by_cases hlength : s.toList.length ≤ maxStrDigits
        · simp [metadataInteger, ShortNumeral, hdecimal, intOf, hlength]
        · simp [metadataInteger, ShortNumeral, hdecimal, intOf, hlength]
      · simp [metadataInteger, ShortNumeral, hdecimal]
  | _ => simp [metadataInteger, ShortNumeral]

/-- A time in milliseconds, if there is one, is before the year 10000. -/
structure ShownTime (value : Json) : Prop where
  short : ShortNumeral value
  inRange : ∀ n, metadataInteger value = .ok (some n) → n.value.toNat < 253402300800000

theorem metadataUtc_returns {value : Json} : Returns (metadataUtc value) ↔ ShownTime value := by
  have htime (n : Whole) :
      Returns (trueDiv n.value.toNat 1000 >>= fun x => fromTimestamp x >>= fun t => pure (some (UtcText.of t)))
        ↔ n.value.toNat < 253402300800000 := by
    rw [← milliseconds_returns, returns_bind, returns_bind]
    exact exists_congr fun x => and_congr_right fun _ => returns_map
  rw [metadataUtc, returns_bind]
  constructor
  · rintro ⟨found, hfound, hrest⟩
    refine ⟨metadataInteger_returns.mp ⟨_, hfound⟩, fun n hn => ?_⟩
    obtain rfl : found = some n := Except.ok.inj (hfound.symm.trans hn)
    exact (htime n).mp hrest
  · rintro ⟨hshort, hrange⟩
    obtain ⟨found, hfound⟩ := metadataInteger_returns.mpr hshort
    refine ⟨found, hfound, ?_⟩
    cases found with
    | none => exact returns_pure _
    | some n => exact (htime n).mpr (hrange n hfound)

/-- The quotient of two figures, if it is taken, rounds to a double. -/
def FiniteRatio (numerator denominator : Json) : Prop :=
  ∀ n d, metadataInteger numerator = .ok (some n) → metadataInteger denominator = .ok (some d) →
    0 < d.value.toNat → n.value.toNat < Double.overflow * d.value.toNat

theorem metadataInteger_nonneg {value : Json} {n : Whole}
    (h : metadataInteger value = .ok (some n)) : 0 ≤ n.value := by
  unfold metadataInteger at h
  split at h
  · split at h
    · rename_i hpos
      cases h
      exact hpos
    · cases h
  · rename_i b
    cases h
    cases b
    · exact le_refl 0
    · exact Int.one_nonneg
  · rename_i s
    split at h
    · simp only [intOf] at h
      split at h
      · cases h
        exact Int.natCast_nonneg _
      · cases h
    · cases h
  · cases h

theorem ratio_returns {numerator denominator : Json} {n d : Option Whole}
    (hn : metadataInteger numerator = .ok n) (hd : metadataInteger denominator = .ok d) :
    Returns (ratio n d) ↔ FiniteRatio numerator denominator := by
  unfold ratio
  split
  · rename_i n d
    have hnonneg := metadataInteger_nonneg hd
    by_cases hzero : d.value = 0
    · simp [FiniteRatio, hn, hd, hzero]
    · have hpos : 0 < d.value.toNat := by omega
      simp only [hzero, if_false]
      rw [returns_map, trueDiv_returns hpos]
      constructor
      · intro h n' d' hn' hd' _
        rw [hn] at hn'
        rw [hd] at hd'
        cases hn'
        cases hd'
        exact h
      · exact fun h => h n d hn hd hpos
  · rename_i hnone
    simp only [returns_ok, true_iff]
    intro n' d' hn' hd' _
    rw [hn] at hn'
    rw [hd] at hd'
    cases hn'
    cases hd'
    exact absurd rfl (hnone n' d' rfl)

/-- The figures of a snapshot's summary that `_metadata_integer` reads. -/
def figureNames : List String :=
  ["total-records", "total-data-files", "total-files-size", "added-records", "added-data-files",
    "added-files-size", "total-delete-files", "total-position-deletes", "total-equality-deletes"]

/-- No conversion of the current snapshot raises. -/
structure Host.FiguresReadable (host : Host) (metadata current summary : Dict) : Prop where
  figures : ∀ name ∈ figureNames, ShortNumeral (dictGet summary name)
  nesting : (dictGetOr summary "operation" (.str "other")).nesting ≤ host.reprDepth
  ints : (dictGetOr summary "operation" (.str "other")).AllLeaves ShortInt
  updated : ShownTime (dictGet metadata "last-updated-ms")
  committed : ShownTime (dictGet current "timestamp-ms")
  rows : FiniteRatio (dictGet summary "total-records") (dictGet summary "total-data-files")
  sizes : FiniteRatio (dictGet summary "total-files-size") (dictGet summary "total-data-files")

theorem tableFigures_returns {host : Host} {metadata current summary : Dict}
    {snapshots : List Json} :
    Returns (host.tableFigures metadata snapshots current summary) ↔
      host.FiguresReadable metadata current summary := by
  simp only [Host.tableFigures, returns_bind, returns_pure, and_true]
  constructor
  · rintro ⟨records, hrecords, files, hfiles, sizes, hsizes, operation, hoperation, updated, hupdated,
      committed, hcommitted, added, hadded, addedFiles, haddedFiles, addedSizes, haddedSizes,
      rows, hrows, averages, haverages, deletes, hdeletes, positions, hpositions, equalities,
      hequalities⟩
    obtain ⟨hnesting, hints⟩ := (str_returns _ _).mp ⟨_, hoperation⟩
    refine ⟨?_, hnesting, hints, metadataUtc_returns.mp ⟨_, hupdated⟩,
      metadataUtc_returns.mp ⟨_, hcommitted⟩, (ratio_returns hrecords hfiles).mp ⟨_, hrows⟩,
      (ratio_returns hsizes hfiles).mp ⟨_, haverages⟩⟩
    simp only [figureNames, List.forall_mem_cons, ← metadataInteger_returns]
    exact ⟨⟨_, hrecords⟩, ⟨_, hfiles⟩, ⟨_, hsizes⟩, ⟨_, hadded⟩, ⟨_, haddedFiles⟩,
      ⟨_, haddedSizes⟩, ⟨_, hdeletes⟩, ⟨_, hpositions⟩, ⟨_, hequalities⟩, by simp⟩
  · rintro ⟨hfigures, hnesting, hints, hupdated, hcommitted, hrows, haverages⟩
    simp only [figureNames, List.forall_mem_cons, ← metadataInteger_returns] at hfigures
    obtain ⟨⟨records, hrecords⟩, ⟨files, hfiles⟩, ⟨sizes, hsizes⟩, ⟨added, hadded⟩,
      ⟨addedFiles, haddedFiles⟩, ⟨addedSizes, haddedSizes⟩, ⟨deletes, hdeletes⟩,
      ⟨positions, hpositions⟩, ⟨equalities, hequalities⟩, -⟩ := hfigures
    obtain ⟨operation, hoperation⟩ := (str_returns host.toPython _).mpr ⟨hnesting, hints⟩
    obtain ⟨updated, hupdated⟩ := metadataUtc_returns.mpr hupdated
    obtain ⟨committed, hcommitted⟩ := metadataUtc_returns.mpr hcommitted
    obtain ⟨rows, hrows⟩ := (ratio_returns hrecords hfiles).mpr hrows
    obtain ⟨averages, haverages⟩ := (ratio_returns hsizes hfiles).mpr haverages
    exact ⟨records, hrecords, files, hfiles, sizes, hsizes, operation, hoperation, updated, hupdated,
      committed, hcommitted, added, hadded, addedFiles, haddedFiles, addedSizes, haddedSizes,
      rows, hrows, averages, haverages, deletes, hdeletes, positions, hpositions, equalities,
      hequalities⟩

/-- The snapshots of a metadata document can be searched for the current one, and no
conversion of that raises. -/
def Host.TableReadable (host : Host) (metadata : Json) : Prop :=
  ∀ d snapshots, metadata = .obj d → dictGet d "snapshots" = .arr snapshots →
    dictGet d "current-snapshot-id" ≠ .null →
    ∃ found, host.findSnapshot (dictGet d "current-snapshot-id") snapshots = .ok found ∧
      ∀ current summary, found = some current → dictGet current "summary" = .obj summary →
        host.FiguresReadable d current summary

theorem summarizeTableMetadata_returns {host : Host} {metadata : Json} {reason : String} :
    Returns (host.summarizeTableMetadata metadata reason) ↔ host.TableReadable metadata := by
  unfold Host.summarizeTableMetadata
  split
  · rename_i d
    split
    · rename_i hnull
      simp only [returns_ok, true_iff]
      intro d' _ hd _ hid
      cases hd
      exact absurd hnull hid
    · rename_i snapshots hsnapshots hid
      rw [returns_bind]
      constructor
      · rintro ⟨found, hfound, hrest⟩ d' snapshots' hd hsnapshots' _
        cases hd
        obtain rfl := Json.arr.inj (hsnapshots.symm.trans hsnapshots')
        refine ⟨found, hfound, ?_⟩
        rintro current summary rfl hsummary
        rw [← tableFigures_returns]
        simpa only [hsummary] using hrest
      · intro h
        obtain ⟨found, hfound, hfigures⟩ := h d snapshots rfl hsnapshots hid
        refine ⟨found, hfound, ?_⟩
        cases found with
        | none => exact returns_ok _
        | some current =>
            simp only
            split
            · rename_i summary hsummary
              exact tableFigures_returns.mpr (hfigures current summary rfl hsummary)
            · exact returns_ok _
    · rename_i hlist _
      simp only [returns_ok, true_iff]
      intro d' snapshots hd hsnapshots _
      cases hd
      exact (hlist snapshots hsnapshots).elim
  · rename_i hobject
    simp only [returns_ok, true_iff]
    intro d _ hd _ _
    exact absurd hd (hobject d)

/-! ### Cost snapshots -/

/-- An int is within the range of doubles. -/
def FiniteCost (value : Json) : Prop := ∀ n, value = .int n → n.natAbs < Double.overflow

theorem safeCost_returns {value : Json} : Returns (safeCost value) ↔ FiniteCost value := by
  cases value with
  | int n =>
      by_cases hinf : (floatOfInt n).isInf = true
      · have hlarge := floatOfInt_isInf.mp hinf
        simp [safeCost, floatOf, FiniteCost, hinf, PyError.isValueError, hlarge]
      · have hsmall := mt floatOfInt_isInf.mpr hinf
        simp [safeCost, floatOf, FiniteCost, hinf, not_le.mp hsmall]
  | str s =>
      cases hparse : parseFloat s with
      | none => simp [safeCost, floatOf, FiniteCost, hparse, PyError.isValueError]
      | some x => simp [safeCost, floatOf, FiniteCost, hparse]
  | _ => simp [safeCost, floatOf, FiniteCost]

theorem ofMicros_isSnapshotError {micros : ℤ} {e : PyError} (h : Utc.ofMicros micros = .error e) :
    e.isSnapshotError = true := by
  obtain ⟨rfl, -⟩ := ofMicros_eq_error.mp h
  rfl

theorem fromTimestamp_isSnapshotError {x : Float} {e : PyError} (h : fromTimestamp x = .error e) :
    e.isSnapshotError = true := by
  simp only [fromTimestamp] at h
  split at h
  · cases h
    rfl
  · split at h
    · cases h
      rfl
    · split at h
      · cases h
        rfl
      · split at h
        · cases h
          rfl
        · split at h
          · cases h
          · cases h
            rfl

theorem snapshotInstant_isSnapshotError {text : String} {e : PyError}
    (h : snapshotInstant text = .error e) : e.isSnapshotError = true := by
  unfold snapshotInstant at h
  split at h
  · split at h
    · exact fromTimestamp_isSnapshotError h
    · cases h
      rfl
  · split at h
    · exact ofMicros_isSnapshotError h
    · cases h
    · cases h
      rfl

/-- What reading a time can raise is caught. -/
theorem safeSnapshotTimestamp_returns (value : Json) : Returns (safeSnapshotTimestamp value) := by
  cases value with
  | str text =>
      cases htext : snapshotInstant text with
      | ok t => simp [safeSnapshotTimestamp, htext]
      | error e =>
          simp [safeSnapshotTimestamp, htext, snapshotInstant_isSnapshotError htext]
  | _ => simp [safeSnapshotTimestamp]

/-- The costs of days. -/
def dailyNetCost : Json → Option Json
  | .obj d =>
      match dictGet d "day_utc" with
      | .str text => if (fromisoformat text).isSome then some (dictGet d "net_cost") else none
      | _ => none
  | _ => none

theorem safeDailyCost_returns {item : Json} :
    Returns (safeDailyCost item) ↔ ∀ cost ∈ dailyNetCost item, FiniteCost cost := by
  cases item with
  | obj d =>
      cases htext : dictGet d "day_utc" with
      | str text =>
          by_cases hday : (fromisoformat text).isSome = true
          · simp only [safeDailyCost, dailyNetCost, htext, hday, dif_pos, if_true]
            rw [returns_map, safeCost_returns]
            simp
          · simp [safeDailyCost, dailyNetCost, htext, hday]
      | _ => simp [safeDailyCost, dailyNetCost, htext]
  | _ => simp [safeDailyCost, dailyNetCost]

/-- The cost of a service. -/
def serviceNetCost : Json → Option Json
  | .obj d => some (dictGet d "net_cost")
  | _ => none

theorem safeTopService_returns {item : Json} :
    Returns (safeTopService item) ↔ ∀ cost ∈ serviceNetCost item, FiniteCost cost := by
  cases item with
  | obj d =>
      simp only [safeTopService, serviceNetCost, Option.mem_def, Option.some.injEq, forall_eq',
        ← safeCost_returns]
      rw [returns_bind]
      constructor
      · rintro ⟨cost, hcost, _⟩
        exact ⟨cost, hcost⟩
      · rintro ⟨cost, hcost⟩
        refine ⟨cost, hcost, ?_⟩
        split
        · split
          · exact returns_pure _
          · exact returns_pure _
        · exact returns_pure _
  | _ => simp [safeTopService, serviceNetCost]

/-- The costs of a snapshot that are shown or left out one by one. -/
def netCosts (snapshot : Dict) : List Json :=
  [dictGet snapshot "seven_day_net_cost", dictGet snapshot "month_to_date_net_cost"] ++
    ((dictGet snapshot "daily_costs").items.getD []).filterMap dailyNetCost ++
    (((dictGet snapshot "top_services").items.getD []).take 3).filterMap serviceNetCost

theorem safeDailyCosts_returns {value : Json} :
    Returns (safeDailyCosts value) ↔
      ∀ cost ∈ (value.items.getD []).filterMap dailyNetCost, FiniteCost cost := by
  cases value with
  | arr items =>
      simp only [safeDailyCosts]
      rw [returns_map, returns_mapM]
      simp only [safeDailyCost_returns, Json.items, Option.getD_some, List.forall_mem_filterMap,
        Option.mem_def]
  | _ => simp [safeDailyCosts, Json.items]

theorem safeTopServices_returns {value : Json} :
    Returns (safeTopServices value) ↔
      ∀ cost ∈ ((value.items.getD []).take 3).filterMap serviceNetCost, FiniteCost cost := by
  cases value with
  | arr items =>
      simp only [safeTopServices]
      rw [returns_map, returns_mapM]
      simp only [safeTopService_returns, Json.items, Option.getD_some, List.forall_mem_filterMap,
        Option.mem_def]
  | _ => simp [safeTopServices, Json.items]

theorem costFigures_returns {snapshot : Dict} {currency : Currency} {now : Utc} :
    Returns (costFigures snapshot currency now) ↔ ∀ cost ∈ netCosts snapshot, FiniteCost cost := by
  obtain ⟨aggregated, haggregated⟩ :=
    safeSnapshotTimestamp_returns (dictGet snapshot "aggregated_at_utc")
  obtain ⟨exported, hexported⟩ :=
    safeSnapshotTimestamp_returns (dictGet snapshot "source_exported_at_utc")
  rw [netCosts, List.forall_mem_append, List.forall_mem_append, ← safeDailyCosts_returns,
    ← safeTopServices_returns]
  simp only [List.forall_mem_cons, ← safeCost_returns]
  unfold costFigures
  constructor
  · intro h
    obtain ⟨_, _, h⟩ := returns_bind.mp h
    obtain ⟨_, _, h⟩ := returns_bind.mp h
    obtain ⟨_, hweek, h⟩ := returns_bind.mp h
    obtain ⟨_, hmonth, h⟩ := returns_bind.mp h
    obtain ⟨_, hdaily, h⟩ := returns_bind.mp h
    obtain ⟨_, hservices, _⟩ := returns_bind.mp h
    exact ⟨⟨⟨⟨_, hweek⟩, ⟨_, hmonth⟩, by simp⟩, ⟨_, hdaily⟩⟩, ⟨_, hservices⟩⟩
  · rintro ⟨⟨⟨⟨week, hweek⟩, ⟨month, hmonth⟩, -⟩, ⟨daily, hdaily⟩⟩, ⟨services, hservices⟩⟩
    refine returns_bind.mpr ⟨aggregated, haggregated, returns_bind.mpr ⟨exported, hexported,
      returns_bind.mpr ⟨week, hweek, returns_bind.mpr ⟨month, hmonth, returns_bind.mpr
        ⟨daily, hdaily, returns_bind.mpr ⟨services, hservices, ?_⟩⟩⟩⟩⟩⟩
    split
    · exact returns_pure _
    · exact returns_pure _

/-- The costs of a snapshot with a currency are within the range of doubles. -/
def CostReadable (snapshot : Json) : Prop :=
  ∀ d text, snapshot = .obj d → dictGet d "currency" = .str text → isCurrency text = true →
    ∀ cost ∈ netCosts d, FiniteCost cost

theorem summarizeCostSnapshot_returns {snapshot : Json} {now : Utc} {reason : String} :
    Returns (summarizeCostSnapshot snapshot now reason) ↔ CostReadable snapshot := by
  unfold summarizeCostSnapshot
  split
  · rename_i d
    split
    · rename_i text htext
      split
      · rename_i hcurrency
        rw [costFigures_returns]
        constructor
        · intro h d' text' hd _ _
          cases hd
          exact h
        · exact fun h => h d text rfl htext hcurrency
      · rename_i hcurrency
        simp only [returns_ok, true_iff]
        intro d' text' hd htext' hcurrency'
        cases hd
        rw [htext] at htext'
        cases htext'
        exact absurd hcurrency' hcurrency
    · rename_i htext
      simp only [returns_ok, true_iff]
      intro d' text hd htext' _
      cases hd
      exact (htext text htext').elim
  · rename_i hobject
    simp only [returns_ok, true_iff]
    intro d text hd _ _
    exact absurd hd (hobject d)

/-! ### The document -/

/-- Two documents that agree beside their table and their costs. -/
structure Snapshot.Agrees (a b : Snapshot) : Prop where
  generatedAt : a.generatedAtUtc = b.generatedAtUtc
  marketState : a.marketState = b.marketState
  nextExpectedOpen : a.nextExpectedOpenUtc = b.nextExpectedOpenUtc
  health : a.health = b.health
  extractor : a.extractor = b.extractor
  loader : a.loader = b.loader
  alerts : a.alerts = b.alerts

/-- Table metadata and costs leave the rest of the document alone exactly when they
can be read. -/
theorem sections_unaffected_iff {host : Host} {entries : List Json} {settings : DashboardSettings}
    {now : Utc} {doc : Snapshot}
    (h : host.buildSnapshot entries settings now Inputs.none = .ok doc) (inputs : Inputs) :
    (∃ shown, host.buildSnapshot entries settings now inputs = .ok shown ∧ shown.Agrees doc) ↔
      host.TableReadable inputs.tableMetadata ∧ CostReadable inputs.costSnapshot := by
  obtain ⟨state, nextOpen, readings, loader, _, _, health, hmarket, hread, hloader, _, _, hhealth, rfl⟩ :=
    buildSnapshot_eq_ok.mp h
  have htableReturns : Returns (host.summarizeTableMetadata inputs.tableMetadata
      inputs.tableUnavailableReason) ↔ _ := summarizeTableMetadata_returns
  have hcostReturns : Returns (summarizeCostSnapshot inputs.costSnapshot now
      inputs.costUnavailableReason) ↔ _ := summarizeCostSnapshot_returns
  rw [← htableReturns, ← hcostReturns]
  constructor
  · rintro ⟨shown, hshown, _⟩
    obtain ⟨_, _, _, _, table, costs, _, _, _, _, htable, hcosts, _, _⟩ :=
      buildSnapshot_eq_ok.mp hshown
    exact ⟨⟨table, htable⟩, ⟨costs, hcosts⟩⟩
  · rintro ⟨⟨table, htable⟩, ⟨costs, hcosts⟩⟩
    exact ⟨_, buildSnapshot_eq_ok.mpr ⟨state, nextOpen, readings, loader, table, costs, health, hmarket,
      hread, hloader, htable, hcosts, hhealth, rfl⟩, rfl, rfl, rfl, rfl, rfl, rfl, rfl⟩

/-- Metadata with a time in microseconds where milliseconds belong. -/
def microsecondMetadata : Json :=
  .obj [("last-updated-ms", .int 1788004800000000), ("current-snapshot-id", .int 1),
    ("snapshots", .arr [.obj [("snapshot-id", .int 1), ("summary", .obj [])]])]

theorem not_tableReadable_microseconds : ¬ summerHost.TableReadable microsecondMetadata := by
  intro h
  have hfound : summerHost.findSnapshot (.int 1)
      [.obj [("snapshot-id", .int 1), ("summary", .obj [])]] =
        .ok (some [("snapshot-id", .int 1), ("summary", .obj [])]) := rfl
  obtain ⟨found, hsearch, hfigures⟩ := h _ _ rfl rfl (by simp [dictGet, dictGetOr, Json.lookup])
  obtain rfl := Except.ok.inj (hfound.symm.trans hsearch)
  have hupdated := (hfigures _ _ rfl rfl).updated.inRange (.int 1788004800000000) rfl
  exact absurd hupdated (by decide)

theorem microsecondMetadata_raises :
    ∃ doc, summerHost.buildSnapshot [] (.default "p") saturdayNoon Inputs.none = .ok doc ∧
      ∀ shown, summerHost.buildSnapshot [] (.default "p") saturdayNoon
        ⟨microsecondMetadata, "not_configured", .null, "not_configured"⟩ ≠ .ok shown := by
  refine ⟨_, rfl, fun shown hshown => not_tableReadable_microseconds ?_⟩
  obtain ⟨_, _, _, _, table, _, _, _, _, _, htable, _⟩ := buildSnapshot_eq_ok.mp hshown
  exact summarizeTableMetadata_returns.mp ⟨table, htable⟩

/-- Metadata and costs of a run of the exporter. -/
def currentInputs : Inputs where
  tableMetadata := .obj [("last-updated-ms", .int 1788004800000), ("current-snapshot-id", .int 1),
    ("snapshots", .arr [.obj [("snapshot-id", .int 1), ("timestamp-ms", .int 1788004800000),
      ("summary", .obj [("operation", .str "append"), ("total-records", .str "19")])]])]
  tableUnavailableReason := "not_configured"
  costSnapshot := .obj [("currency", .str "USD"), ("aggregated_at_utc", .str "2026-08-29T11:00:00Z"),
    ("seven_day_net_cost", .int 3), ("month_to_date_net_cost", .int 12)]
  costUnavailableReason := "not_configured"

theorem currentInputs_readable :
    summerHost.TableReadable currentInputs.tableMetadata ∧ CostReadable currentInputs.costSnapshot := by
  constructor
  · intro d snapshots hd hsnapshots _
    cases hd
    obtain rfl := Json.arr.inj hsnapshots
    refine ⟨_, rfl, ?_⟩
    intro current summary hcurrent hsummary
    cases hcurrent
    obtain rfl := Json.obj.inj hsummary
    refine ⟨?_, Nat.zero_le _, ?_, ⟨?_, ?_⟩, ⟨?_, ?_⟩, ?_, ?_⟩
    · simp [figureNames, ShortNumeral, dictGet, dictGetOr, Json.lookup, maxStrDigits]
    · simp [dictGetOr, Json.lookup, ShortInt]
    · simp [ShortNumeral, dictGet, dictGetOr, Json.lookup]
    · simp [dictGet, dictGetOr, Json.lookup, metadataInteger, Whole.value]
    · simp [ShortNumeral, dictGet, dictGetOr, Json.lookup]
    · simp [dictGet, dictGetOr, Json.lookup, metadataInteger, Whole.value]
    · simp [FiniteRatio, dictGet, dictGetOr, Json.lookup, metadataInteger]
    · simp [FiniteRatio, dictGet, dictGetOr, Json.lookup, metadataInteger]
  · intro d text hd _ _ cost hcost n hn
    cases hd
    have hsmall : 12 < Double.overflow := by
      exact_mod_cast (lt_overflow_of_lt (q := 12) (e := 4) (by norm_num) (by norm_num))
    have hcost : cost = .int 3 ∨ cost = .int 12 := by
      simpa [netCosts, dictGet, dictGetOr, Json.lookup, Json.items] using hcost
    rcases hcost with rfl | rfl
    · cases hn
      omega
    · cases hn
      omega

theorem currentInputs_unaffected :
    ∃ doc shown, summerHost.buildSnapshot [] (.default "p") saturdayNoon Inputs.none = .ok doc ∧
      summerHost.buildSnapshot [] (.default "p") saturdayNoon currentInputs = .ok shown ∧
      shown.Agrees doc := by
  have hnone : ∃ doc, summerHost.buildSnapshot [] (.default "p") saturdayNoon Inputs.none = .ok doc :=
    ⟨_, rfl⟩
  obtain ⟨doc, hdoc⟩ := hnone
  obtain ⟨shown, hshown, hagrees⟩ :=
    (sections_unaffected_iff hdoc currentInputs).mpr currentInputs_readable
  exact ⟨doc, shown, hdoc, hshown, hagrees⟩

end Lakehouse.Dashboard
