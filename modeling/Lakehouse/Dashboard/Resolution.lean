/-
When a loader failure counts as resolved by a commit.

`_health` compares texts that `utc_text` wrote, which have no fraction of a
second: a failure is later than a commit when its second is.

* `mem_alerts_iff`: the alerts are the extractor's and those of the failures.
* `recentError_iff`: when health gives a recent error as a reason.
* `resolvedExactly_iff`: when a document is made, and the failures resolved are those
  before the commit.
* `sameSecond_resolved`: a failure just after a commit that counts as resolved.
-/

import Lakehouse.Dashboard.Exports
import Lakehouse.Dashboard.HealthRules

namespace Lakehouse.Dashboard

variable {host : Host} {now : Utc}

/-! ### Where alerts come from -/

theorem component_safeAlert {component : Component} {payload : Dict} {entryTime : Utc} {a : Alert}
    (h : host.safeAlert component payload entryTime = .ok (some a)) : a.component = component := by
  -- whatever the message is
  have hmessage (level : String) (message : Json) :
      (if isText message idleMessage = true then pure none
        else do
          let text ← host.str message
          return some ⟨.of entryTime, component,
            if level ∈ ["ERROR", "CRITICAL"] then .error else .warning, alertCode component text⟩) =
        Except.ok (some a) → a.component = component := by
    intro h
    split at h
    · cases h
    · obtain ⟨text, -, h⟩ := Result.bind_eq_ok.mp h
      obtain rfl := Option.some.inj (Result.pure_eq_ok.mp h)
      rfl
  obtain ⟨level, -, h⟩ := Result.bind_eq_ok.mp h
  dsimp only at h
  split at h
  · cases h
  · exact hmessage _ _ h

theorem alert_of_readEntry {entry : Json} {r : Reading} (h : host.readEntry now entry = .ok r) :
    (r.loader = none ∧ ∀ a ∈ r.alert, a.component = .extractor) ∨
      r.alert = r.loader.bind loaderAlert := by
  obtain ⟨payload, -, h⟩ := Result.bind_eq_ok.mp h
  split at h
  · obtain ⟨stamp, -, h⟩ := Result.bind_eq_ok.mp h
    obtain ⟨entryTime, -, h⟩ := Result.bind_eq_ok.mp h
    split at h
    · obtain ⟨event, -, h⟩ := Result.bind_eq_ok.mp h
      obtain ⟨alert, halert, h⟩ := Result.bind_eq_ok.mp h
      cases h
      refine .inl ⟨rfl, ?_⟩
      rintro a rfl
      exact component_safeAlert halert
    · split at h
      · obtain ⟨event, -, h⟩ := Result.bind_eq_ok.mp h
        cases h
        exact .inr rfl
      · cases h
        exact .inr rfl
  · cases h

/-- The alerts of the loader are those of its failures. -/
theorem mem_alerts_iff {entries : List Json} {readings : Readings}
    (h : host.readEntries now entries = .ok readings) (a : Alert) :
    a ∈ readings.alerts ↔
      (a ∈ readings.alerts ∧ a.component = .extractor) ∨
        ∃ e ∈ readings.loaderEvents, loaderAlert e = some a := by
  obtain ⟨rs, hrs, h⟩ := Result.bind_eq_ok.mp h
  cases h
  have hreading : ∀ r ∈ rs, (r.loader = none ∧ ∀ a ∈ r.alert, a.component = .extractor) ∨
      r.alert = r.loader.bind loaderAlert := by
    intro r hr
    obtain ⟨entry, -, hentry⟩ := Result.exists_of_mem_left
      (List.Forall₂.flip (Result.mapM_eq_ok.mp hrs)) hr
    exact alert_of_readEntry hentry
  simp only [Readings.of, List.mem_filterMap]
  constructor
  · rintro ⟨r, hr, ha⟩
    rcases hreading r hr with ⟨-, hextractor⟩ | hloader
    · exact .inl ⟨⟨r, hr, ha⟩, hextractor a ha⟩
    · rw [hloader] at ha
      obtain ⟨e, he, halert⟩ := Option.bind_eq_some_iff.mp ha
      exact .inr ⟨e, ⟨r, hr, he⟩, halert⟩
  · rintro (⟨h, -⟩ | ⟨e, ⟨r, hr, he⟩, halert⟩)
    · exact h
    · refine ⟨r, hr, ?_⟩
      rcases hreading r hr with ⟨hnone, -⟩ | hloader
      · rw [hnone] at he
        cases he
      · rw [hloader, he]
        exact halert

/-! ### The reason `recent_error` -/

theorem recentError_applyFreshness {h next : Health} {signal : Signal} {value : Json}
    {warning unhealthy : Int}
    (hnext : host.applyFreshness h signal value now warning unhealthy = .ok next) :
    .recentError ∈ next.reasons ↔ .recentError ∈ h.reasons := by
  unfold Host.applyFreshness at hnext
  split at hnext
  · cases hnext
    simp
  · obtain ⟨t, -, hnext⟩ := Result.bind_eq_ok.mp hnext
    obtain ⟨unhealthyAge, -, hnext⟩ := Result.bind_eq_ok.mp hnext
    split at hnext
    · cases hnext
      simp
    · obtain ⟨warningAge, -, hnext⟩ := Result.bind_eq_ok.mp hnext
      split at hnext
      · cases hnext
        simp
      · cases hnext
        exact Iff.rfl

theorem recentError_sessionHealth {state : MarketState} {extractor : ExtractorSummary}
    {loader : LoaderSummary} {settings : DashboardSettings} {h : Health}
    (hh : host.sessionHealth state now extractor loader settings = .ok h) :
    .recentError ∉ h.reasons := by
  unfold Host.sessionHealth at hh
  cases state with
  | marketOpen =>
      obtain ⟨bar, hbar, hcommit⟩ := Result.bind_eq_ok.mp hh
      rw [recentError_applyFreshness hcommit, recentError_applyFreshness hbar]
      exact List.not_mem_nil
  | settling =>
      simp only at hh
      split at hh
      · cases hh
        simp
      · cases hh
        exact List.not_mem_nil
  | _ =>
      simp only at hh
      split at hh
      · cases hh
        simp
      · cases hh
        exact List.not_mem_nil

/-- A recent error is an error that no later commit has resolved. -/
theorem recentError_iff {s : Situation} {h : Health} (hh : host.healthAt s now = .ok h) :
    .recentError ∈ h.reasons ↔ ∃ a ∈ s.alerts, host.Unresolved s.loader.lastCommitUtc a := by
  obtain ⟨session, hsession, hh⟩ := Result.bind_eq_ok.mp hh
  obtain ⟨beat, hbeat, hh⟩ := Result.bind_eq_ok.mp hh
  obtain ⟨unresolved, hunresolved, hh⟩ := Result.bind_eq_ok.mp hh
  cases hh
  rw [← any_unresolved (Result.mapM_eq_ok.mp hunresolved)]
  have hbefore : .recentError ∉ beat.reasons := by
    rw [recentError_applyFreshness hbeat]
    exact recentError_sessionHealth hsession
  split
  · rename_i hany
    simp [hany]
  · rename_i hany
    refine iff_of_false ?_ hany
    split
    · simp [hbefore]
    · exact hbefore

/-! ### The newest commit -/

/-- The instant at which the newest success says it committed. -/
def Host.CommittedAt (host : Host) (events : List LoaderEvent) (c : Utc) : Prop :=
  ∃ s text, latestSuccess events = some s ∧ dictGet s.fields "last_commit_at_utc" = .str text ∧
    host.parseUtc text = .ok c

/-- The event says when the last commit was. -/
def Host.CarriesCommit (host : Host) (e : LoaderEvent) : Prop :=
  ∃ text c, dictGet e.fields "last_commit_at_utc" = .str text ∧ host.parseUtc text = .ok c

theorem parseUtc_empty (host : Host) : host.parseUtc "" = .error .valueError := rfl

theorem lastCommitUtc_of_committedAt {events : List LoaderEvent} {limit : Int}
    {loader : LoaderSummary} (h : host.loaderSummary events limit = .ok loader) {c : Utc}
    (hc : host.CommittedAt events c) : loader.lastCommitUtc = some (.of c) := by
  obtain ⟨s, text, hs, htext, hparse⟩ := hc
  have hlast := (loaderSummary_shows h).2.2
  have htruthy : truthy (.str text) = true := by
    by_contra hfalse
    have hempty : text = "" := by simpa [truthy] using hfalse
    rw [hempty, parseUtc_empty] at hparse
    cases hparse
  rw [shownCommit, hs, fieldsOf, Option.map_some, Option.getD_some, htext, orElse, if_pos htruthy,
    optionalUtc_of_ok hparse] at hlast
  exact (Except.ok.inj hlast).symm

theorem lastCommitUtc_eq_none {events : List LoaderEvent} {limit : Int} {loader : LoaderSummary}
    (h : host.loaderSummary events limit = .ok loader) (hnone : ∀ e ∈ events, ¬ host.CarriesCommit e) :
    loader.lastCommitUtc = none := by
  have hlast := (loaderSummary_shows h).2.2
  have hread (value : Json) (hvalue : ∀ text c, value = .str text → host.parseUtc text ≠ .ok c)
      (x : Option UtcText) (hx : host.optionalUtc value = .ok x) : x = none := by
    unfold Host.optionalUtc at hx
    split at hx
    · rename_i text
      split at hx
      · rename_i c hc
        exact absurd hc (hvalue text c rfl)
      · split at hx
        · cases hx
          rfl
        · cases hx
    · cases hx
      rfl
  have hfield {e : Option LoaderEvent} (he : ∀ x ∈ e, x ∈ events) :
      ∀ text c, dictGet (fieldsOf e) "last_commit_at_utc" = .str text →
        host.parseUtc text ≠ .ok c := by
    refine dictGet_fieldsOf (P := fun value => ∀ text c, value = .str text →
      host.parseUtc text ≠ .ok c) (by simp) he ?_
    intro x hx text c htext hc
    exact hnone x hx ⟨text, c, htext, hc⟩
  unfold shownCommit orElse at hlast
  split at hlast
  · exact hread _ (hfield fun _ => findLast_mem) _ hlast
  · exact hread _ (hfield fun _ => currentEvent_mem) _ hlast

/-! ### Failures and the commit after them -/

/-- An error alert of the extractor. -/
def Readings.HasExtractorError (r : Readings) : Prop :=
  ∃ a ∈ r.alerts, a.component = .extractor ∧ a.severity = .error

/-- The failures among the loader's events. -/
def Readings.failures (r : Readings) : List LoaderEvent :=
  r.loaderEvents.filter fun e => e.failure?.isSome

theorem unresolved_loaderAlert {lastCommit : Option UtcText} {e : LoaderEvent} {a : Alert}
    (h : loaderAlert e = some a) :
    host.Unresolved lastCommit a ↔
      lastCommit = none ∨ ∃ commit committed, lastCommit = some commit ∧
        host.parseUtc commit.text = .ok committed ∧
        committed.micros < e.at_.wholeSecond.micros := by
  obtain ⟨f, -, rfl⟩ := Option.map_eq_some_iff.mp h
  simp [Host.Unresolved, UtcText.of, parseUtc_utcText]

/-- The errors that count are those of the extractor and the unresolved failures. -/
theorem exists_unresolved_iff {entries : List Json} {readings : Readings}
    (h : host.readEntries now entries = .ok readings) (lastCommit : Option UtcText) :
    (∃ a ∈ readings.sorted.alerts, host.Unresolved lastCommit a) ↔
      readings.HasExtractorError ∨
        ∃ e ∈ readings.failures, lastCommit = none ∨
          ∃ commit committed, lastCommit = some commit ∧
            host.parseUtc commit.text = .ok committed ∧
            committed.micros < e.at_.wholeSecond.micros := by
  have hsorted (a : Alert) : a ∈ readings.sorted.alerts ↔ a ∈ readings.alerts :=
    (List.perm_insertionSort _ _).mem_iff
  constructor
  · rintro ⟨a, ha, hunresolved⟩
    rcases (mem_alerts_iff h a).mp ((hsorted a).mp ha) with ⟨ha, hextractor⟩ | ⟨e, he, halert⟩
    · exact .inl ⟨a, ha, hextractor, hunresolved.1⟩
    · refine .inr ⟨e, List.mem_filter.mpr ⟨he, ?_⟩, (unresolved_loaderAlert halert).mp hunresolved⟩
      obtain ⟨f, hf, -⟩ := Option.map_eq_some_iff.mp halert
      rw [hf]
      rfl
  · rintro (⟨a, ha, hextractor, hseverity⟩ | ⟨e, he, hlate⟩)
    · refine ⟨a, (hsorted a).mpr ha, hseverity, .inl ?_⟩
      rw [hextractor]
      decide
    · obtain ⟨he, hfailure⟩ := List.mem_filter.mp he
      obtain ⟨f, hf⟩ := Option.isSome_iff_exists.mp hfailure
      have halert : loaderAlert e = some ⟨.of e.at_, .loader, .error, .failure f⟩ := by
        rw [loaderAlert, hf]
        rfl
      refine ⟨_, (hsorted _).mpr ((mem_alerts_iff h _).mpr (.inr ⟨e, he, halert⟩)), ?_⟩
      exact (unresolved_loaderAlert halert).mpr hlate

/-- Failures are resolved by a later commit and by nothing else. -/
structure Host.ResolvedExactly (host : Host) (r : Readings) (h : Health) : Prop where
  unresolved : ∀ c, host.CommittedAt r.sorted.loaderEvents c →
    (∃ e ∈ r.failures, c.micros < e.at_.micros) →
    h.status = .unhealthy ∧ .recentError ∈ h.reasons
  uncommitted : (∀ e ∈ r.loaderEvents, ¬ host.CarriesCommit e) → r.failures ≠ [] →
    h.status = .unhealthy ∧ .recentError ∈ h.reasons
  resolved : ∀ c, host.CommittedAt r.sorted.loaderEvents c →
    (∀ e ∈ r.failures, e.at_.micros < c.micros) → ¬ r.HasExtractorError →
    .recentError ∉ h.reasons

theorem micros_wholeSecond_lt {a b : Utc} :
    a.wholeSecond.micros < b.wholeSecond.micros ↔ a.micros / 1000000 < b.micros / 1000000 := by
  unfold Utc.wholeSecond
  dsimp only
  omega

/-- When a document is made, failures after the commit are found out unless all of them are
in its second. -/
theorem resolvedExactly_of_document {entries : List Json} {settings : DashboardSettings}
    {inputs : Inputs} {doc : Snapshot} {readings : Readings}
    (hdoc : host.buildSnapshot entries settings now inputs = .ok doc)
    (hread : host.readEntries now entries = .ok readings) :
    host.ResolvedExactly readings doc.health ↔
      ∀ c, host.CommittedAt readings.sorted.loaderEvents c →
        (∃ e ∈ readings.failures, c.micros < e.at_.micros) →
        readings.HasExtractorError ∨
          ∃ e ∈ readings.failures, c.micros / 1000000 < e.at_.micros / 1000000 := by
  obtain ⟨state, nextOpen, readings', loader, table, costs, health, -, hread', hloader, -, -, hhealth,
    rfl⟩ := buildSnapshot_eq_ok.mp hdoc
  cases hread.symm.trans hread'
  let s : Situation :=
    ⟨state, extractorSummary readings.sorted.extractorEvents, loader, readings.sorted.alerts, settings⟩
  have hat : host.healthAt s now = .ok health := hhealth
  have hrecent := (recentError_iff hat).trans (exists_unresolved_iff hread loader.lastCommitUtc)
  -- an unresolved error always makes the status unhealthy
  have hstatus (h : .recentError ∈ health.reasons) : health.status = .unhealthy := by
    obtain ⟨a, ha, hunresolved⟩ := (recentError_iff hat).mp h
    exact (rated_health hat).unhealthy_iff.mpr (.error ha hunresolved)
  have hcommitted {c : Utc} (hc : host.CommittedAt readings.sorted.loaderEvents c) :
      .recentError ∈ health.reasons ↔ readings.HasExtractorError ∨
        ∃ e ∈ readings.failures, c.micros / 1000000 < e.at_.micros / 1000000 := by
    rw [hrecent, lastCommitUtc_of_committedAt hloader hc]
    simp [UtcText.of, parseUtc_utcText, micros_wholeSecond_lt]
  constructor
  · intro hexact c hc hlate
    exact (hcommitted hc).mp (hexact.unresolved c hc hlate).2
  · intro hcond
    constructor
    · intro c hc hlate
      have h := (hcommitted hc).mpr (hcond c hc hlate)
      exact ⟨hstatus h, h⟩
    · intro hnone hfailures
      obtain ⟨e, he⟩ := List.exists_mem_of_ne_nil _ hfailures
      have hlast : loader.lastCommitUtc = none := lastCommitUtc_eq_none hloader fun e he =>
        hnone e ((List.perm_insertionSort _ _).mem_iff.mp he)
      have h := hrecent.mpr (.inr ⟨e, he, .inl hlast⟩)
      exact ⟨hstatus h, h⟩
    · intro c hc hearly hextractor h
      rcases (hcommitted hc).mp h with herror | ⟨e, he, hlt⟩
      · exact hextractor herror
      · have := hearly e he
        omega

/-- A document is made and its health resolves the failures exactly, for the logs that
become a document and whose failures after the commit are not all within its second. -/
theorem resolvedExactly_iff {settings : DashboardSettings} {inputs : Inputs}
    (entries : List (Entry host now)) :
    (∃ doc, host.buildSnapshot (entries.map Entry.toJson) settings now inputs = .ok doc ∧
      host.ResolvedExactly (host.readings now entries) doc.health) ↔
    host.Exports settings now inputs entries ∧
      ∀ c, host.CommittedAt (host.readings now entries).sorted.loaderEvents c →
        (∃ e ∈ (host.readings now entries).failures, c.micros < e.at_.micros) →
        (host.readings now entries).HasExtractorError ∨
          ∃ e ∈ (host.readings now entries).failures,
            c.micros / 1000000 < e.at_.micros / 1000000 := by
  have hread {doc : Snapshot}
      (hdoc : host.buildSnapshot (entries.map Entry.toJson) settings now inputs = .ok doc) :
      host.readEntries now (entries.map Entry.toJson) = .ok (host.readings now entries) :=
    readEntries_eq_ok.mpr ⟨(buildSnapshot_returns_iff.mp ⟨doc, hdoc⟩).records, rfl⟩
  rw [← buildSnapshot_returns_iff]
  constructor
  · rintro ⟨doc, hdoc, hexact⟩
    exact ⟨⟨doc, hdoc⟩, (resolvedExactly_of_document hdoc (hread hdoc)).mp hexact⟩
  · rintro ⟨⟨doc, hdoc⟩, hlater⟩
    exact ⟨doc, hdoc, (resolvedExactly_of_document hdoc (hread hdoc)).mpr hlater⟩

/-! ### A failure in the second of a commit -/

/-- An event of the loader's health log. -/
def healthFields (event : String) : Dict :=
  [("event", .str event), ("topic", .str LOADER_TOPIC),
    ("process_started_at_utc", .str "2026-08-29T11:00:00Z"),
    ("last_commit_at_utc", .str "2026-08-29T11:59:00.100Z")]

def healthEntry (timestamp event : String) : Json :=
  .obj [("timestamp", .str timestamp), ("jsonPayload", .obj [
    ("_SYSTEMD_UNIT", .str LOADER_UNIT), ("target", .str LOADER_HEALTH_TARGET),
    ("fields", .obj (healthFields event))])]

/-- A commit, the failure of the next one at some time after it, and a heartbeat. -/
def afterCommit (timestamp : String) : List Json :=
  [healthEntry "2026-08-29T11:59:00.100Z" "commit_succeeded",
    healthEntry timestamp "iceberg_commit_failed",
    healthEntry "2026-08-29T11:59:30Z" "heartbeat"]

def committedAt : Utc := ⟨1788004740100000, by decide⟩

/-- What is read of these entries. -/
def afterCommitReadings (failedAt : Utc) : Readings :=
  ⟨[], [⟨committedAt, .commitSucceeded, healthFields "commit_succeeded"⟩,
      ⟨failedAt, .failure .icebergCommitFailed, healthFields "iceberg_commit_failed"⟩,
      ⟨⟨1788004770000000, by decide⟩, .heartbeat, healthFields "heartbeat"⟩],
    [⟨.of failedAt, .loader, .error, .failure .icebergCommitFailed⟩]⟩

/-- A failure 400 milliseconds after the commit. -/
def sameSecond : Utc := ⟨1788004740500000, by decide⟩

/-- A failure one second after the commit. -/
def nextSecond : Utc := ⟨1788004741100000, by decide⟩

theorem sameSecond_read :
    summerHost.readEntries saturdayNoon (afterCommit "2026-08-29T11:59:00.500Z") =
      .ok (afterCommitReadings sameSecond) := (rfl)

theorem sameSecond_document : ∃ doc,
    summerHost.buildSnapshot (afterCommit "2026-08-29T11:59:00.500Z") (.default "p") saturdayNoon
        .none = .ok doc ∧ doc.health = ⟨.unknown, [.noRecentSession]⟩ := by
  have hmarket : ∃ nextOpen, summerHost.marketState saturdayNoon = .ok (.weekend, nextOpen) :=
    ⟨_, rfl⟩
  have hsummary : ∃ loader,
      summerHost.loaderSummary (afterCommitReadings sameSecond).sorted.loaderEvents 48 = .ok loader ∧
        loader.lastCommitUtc = some (.of committedAt) ∧ loader.state = none ∧
        loader.latestHeartbeatUtc = some (.of ⟨1788004770000000, by decide⟩) :=
    ⟨_, rfl, rfl, rfl, rfl⟩
  obtain ⟨nextOpen, hmarket⟩ := hmarket
  obtain ⟨loader, hloader, hcommit, hstate, hbeat⟩ := hsummary
  have hhealth : summerHost.health .weekend saturdayNoon (extractorSummary []) loader
      (afterCommitReadings sameSecond).sorted.alerts (.default "p") =
        .ok ⟨.unknown, [.noRecentSession]⟩ := by
    unfold Host.health
    rw [hbeat, hstate, hcommit]
    rfl
  exact ⟨_, buildSnapshot_eq_ok.mpr ⟨_, nextOpen, afterCommitReadings sameSecond, loader, _, _, _,
    hmarket, sameSecond_read, hloader, rfl, rfl, hhealth, rfl⟩, rfl⟩

/-- A failure that counts as resolved by the commit before it. -/
theorem sameSecond_resolved : ∃ doc,
    summerHost.readEntries saturdayNoon (afterCommit "2026-08-29T11:59:00.500Z") =
        .ok (afterCommitReadings sameSecond) ∧
      summerHost.buildSnapshot (afterCommit "2026-08-29T11:59:00.500Z") (.default "p") saturdayNoon
        .none = .ok doc ∧
      ¬ summerHost.ResolvedExactly (afterCommitReadings sameSecond) doc.health := by
  obtain ⟨doc, hdoc, hhealth⟩ := sameSecond_document
  refine ⟨doc, sameSecond_read, hdoc, fun h => ?_⟩
  have hcommitted : summerHost.CommittedAt (afterCommitReadings sameSecond).sorted.loaderEvents
      committedAt := ⟨_, _, rfl, rfl, rfl⟩
  have hlate : ∃ e ∈ (afterCommitReadings sameSecond).failures,
      committedAt.micros < e.at_.micros := ⟨_, List.mem_cons_self, by decide⟩
  have hstatus := (h.unresolved _ hcommitted hlate).1
  rw [hhealth] at hstatus
  cases hstatus

/-- An entry of the health log. -/
def healthRecord (stamp event : String) (time : Utc) (h : summerHost.parseUtc stamp = .ok time) :
    Entry summerHost saturdayNoon where
  members := [("timestamp", .str stamp), ("jsonPayload", .obj [
    ("_SYSTEMD_UNIT", .str LOADER_UNIT), ("target", .str LOADER_HEALTH_TARGET),
    ("fields", .obj (healthFields event))])]
  payload := [("_SYSTEMD_UNIT", .str LOADER_UNIT), ("target", .str LOADER_HEALTH_TARGET),
    ("fields", .obj (healthFields event))]
  stamp := stamp
  time := time
  jsonPayload := rfl
  timestamp := rfl
  parsed := h

/-- The entries of `afterCommit`, with a failure in the second after the commit. -/
def nextSecondRecords : List (Entry summerHost saturdayNoon) :=
  [healthRecord "2026-08-29T11:59:00.100Z" "commit_succeeded" committedAt rfl,
    healthRecord "2026-08-29T11:59:01.100Z" "iceberg_commit_failed" nextSecond rfl,
    healthRecord "2026-08-29T11:59:30Z" "heartbeat" ⟨1788004770000000, by decide⟩ rfl]

theorem nextSecond_unresolved : ∃ doc,
    summerHost.buildSnapshot (nextSecondRecords.map Entry.toJson) (.default "p") saturdayNoon
        .none = .ok doc ∧
      summerHost.ResolvedExactly (summerHost.readings saturdayNoon nextSecondRecords)
        doc.health := by
  have hread : summerHost.readEntries saturdayNoon (nextSecondRecords.map Entry.toJson) =
      .ok (afterCommitReadings nextSecond) := rfl
  have hreadings : summerHost.readings saturdayNoon nextSecondRecords =
      afterCommitReadings nextSecond := rfl
  have hdoc : Returns (summerHost.buildSnapshot (nextSecondRecords.map Entry.toJson)
      (.default "p") saturdayNoon .none) :=
    buildSnapshot_returns saturdayNoon ⟨_, rfl⟩ hread rfl (.inl rfl) (usable_default "p")
  refine (resolvedExactly_iff nextSecondRecords).mpr ⟨buildSnapshot_returns_iff.mp hdoc, ?_⟩
  rw [hreadings]
  intro c hc _
  obtain ⟨s, text, hs, htext, hparse⟩ := hc
  have hsuccess : latestSuccess (afterCommitReadings nextSecond).sorted.loaderEvents =
      some ⟨committedAt, .commitSucceeded, healthFields "commit_succeeded"⟩ := rfl
  have hfield : dictGet (healthFields "commit_succeeded") "last_commit_at_utc" =
      .str "2026-08-29T11:59:00.100Z" := rfl
  have hinstant : summerHost.parseUtc "2026-08-29T11:59:00.100Z" = .ok committedAt := rfl
  obtain rfl := Option.some.inj (hs.symm.trans hsuccess)
  obtain rfl := Json.str.inj (htext.symm.trans hfield)
  obtain rfl := Except.ok.inj (hparse.symm.trans hinstant)
  exact .inr ⟨⟨nextSecond, _, _⟩, List.mem_cons_self, by decide⟩

end Lakehouse.Dashboard
