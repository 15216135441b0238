/-
What the checks of `_health` amount to.

The checks run one after the other and each may keep the status, raise it or
replace it. `Rated` says of an intermediate result that its status is the worst
of the conditions seen so far, so that a check adds its own conditions to it.

* `Host.Unhealthy`, `Host.Warning`, `Situation.NoSession`: the conditions.
* `Rated.freshness`, `Rated.escalate`: what one check adds.
* `Host.rated_health`: the whole of `_health`.
* `health_worst`: the status, and that it only gets worse with time.
-/

import Lakehouse.Dashboard.SnapshotReturns

namespace Lakehouse.Dashboard

/-- What `_health` looks at, apart from the time. -/
structure Situation where
  state : MarketState
  extractor : ExtractorSummary
  loader : LoaderSummary
  alerts : List Alert
  settings : DashboardSettings

def Host.healthAt (host : Host) (s : Situation) (now : Utc) : Py Health :=
  host.health s.state now s.extractor s.loader s.alerts s.settings

/-- The bar time is absent or can be read, and the limits are durations. -/
structure Situation.Checkable (s : Situation) (host : Host) : Prop where
  bar : host.Dated s.extractor.lastBarUtc
  limits : s.settings.Usable

/-! ### Conditions -/

/-- A time that is more than a number of minutes ago. -/
def Host.Older (host : Host) (now : Utc) (value : Json) (limit : Int) : Prop :=
  ∃ t, host.parseUtcValue value = .ok t ∧ limit * minuteMicros < now.micros - t.micros

/-- A time that is missing or too long ago. -/
def Host.Lapsed (host : Host) (now : Utc) (value : Json) (limit : Int) : Prop :=
  value = .null ∨ host.Older now value limit

/-- An error that no later commit has resolved. -/
def Host.Unresolved (host : Host) (lastCommit : Option UtcText) (a : Alert) : Prop :=
  a.severity = .error ∧
    (a.component ≠ .loader ∨ lastCommit = none ∨
      ∃ commit at_ committed, lastCommit = some commit ∧ host.parseUtc a.atUtc.text = .ok at_ ∧
        host.parseUtc commit.text = .ok committed ∧ committed.micros < at_.micros)

inductive Host.Unhealthy (host : Host) (s : Situation) (now : Utc) : Prop where
  | bar : s.state = .marketOpen →
      host.Lapsed now s.extractor.lastBarUtc s.settings.barUnhealthyMinutes → Unhealthy host s now
  | commit : s.state = .marketOpen →
      host.Lapsed now (orNull UtcText.toJson s.loader.lastCommitUtc)
        s.settings.commitUnhealthyMinutes → Unhealthy host s now
  | heartbeat :
      host.Lapsed now (orNull UtcText.toJson s.loader.latestHeartbeatUtc)
        s.settings.heartbeatUnhealthyMinutes → Unhealthy host s now
  | stalled : s.loader.state = some "stalled" → Unhealthy host s now
  | error {a : Alert} : a ∈ s.alerts → host.Unresolved s.loader.lastCommitUtc a →
      Unhealthy host s now

inductive Host.Warning (host : Host) (s : Situation) (now : Utc) : Prop where
  | bar : s.state = .marketOpen →
      host.Older now s.extractor.lastBarUtc s.settings.barWarningMinutes → Warning host s now
  | commit : s.state = .marketOpen →
      host.Older now (orNull UtcText.toJson s.loader.lastCommitUtc)
        s.settings.commitWarningMinutes → Warning host s now
  | heartbeat :
      host.Older now (orNull UtcText.toJson s.loader.latestHeartbeatUtc)
        s.settings.heartbeatWarningMinutes → Warning host s now
  | shutdown : s.state = .settling → s.extractor.finalMetricsAtUtc = none → Warning host s now

/-- Outside of a session, and none was seen. -/
def Situation.NoSession (s : Situation) : Prop :=
  (s.state = .closed ∨ s.state = .weekend ∨ s.state = .preOpen) ∧
    s.extractor.status = .noRecentSession

section Waiting

variable {host : Host} {s : Situation} {now later : Utc} (hlater : now.micros ≤ later.micros)

include hlater

theorem Host.Older.mono {value : Json} {limit : Int} (h : host.Older now value limit) :
    host.Older later value limit := by
  obtain ⟨t, ht, hage⟩ := h
  exact ⟨t, ht, by omega⟩

theorem Host.Lapsed.mono {value : Json} {limit : Int} (h : host.Lapsed now value limit) :
    host.Lapsed later value limit :=
  h.imp_right fun h => h.mono hlater

theorem Host.Unhealthy.mono (h : host.Unhealthy s now) : host.Unhealthy s later := by
  cases h with
  | bar hopen h => exact .bar hopen (h.mono hlater)
  | commit hopen h => exact .commit hopen (h.mono hlater)
  | heartbeat h => exact .heartbeat (h.mono hlater)
  | stalled h => exact .stalled h
  | error ha h => exact .error ha h

theorem Host.Warning.mono (h : host.Warning s now) : host.Warning s later := by
  cases h with
  | bar hopen h => exact .bar hopen (h.mono hlater)
  | commit hopen h => exact .commit hopen (h.mono hlater)
  | heartbeat h => exact .heartbeat (h.mono hlater)
  | shutdown hsettling h => exact .shutdown hsettling h

end Waiting

/-! ### The worst of several conditions -/

theorem eq_of_minutes {n age : Int} (h : minutes n = .ok age) : age = n * minuteMicros := by
  unfold minutes at h
  split at h
  · cases h
    rfl
  · cases h

/-- The order of the statuses. -/
def HealthStatus.severity : HealthStatus → Nat
  | .healthy => 0
  | .unknown => 1
  | .warning => 2
  | .unhealthy => 3

/-- The status is the worst of three conditions, and has reasons unless it is healthy. -/
structure Rated (h : Health) (unhealthy warning unknown : Prop) : Prop where
  unhealthy_iff : h.status = .unhealthy ↔ unhealthy
  warning_iff : h.status = .warning ↔ ¬ unhealthy ∧ warning
  unknown_iff : h.status = .unknown ↔ ¬ unhealthy ∧ ¬ warning ∧ unknown
  reasons_iff : h.status = .healthy ↔ h.reasons = []

theorem rated_healthy : Rated ⟨.healthy, []⟩ False False False := by
  constructor <;> simp

theorem rated_unhealthy {h : Health} {u w k : Prop} (r : HealthReason) (hu : u) :
    Rated ⟨.unhealthy, h.reasons ++ [r]⟩ u w k := by
  constructor <;> simp [hu]

theorem rated_warning (r : HealthReason) : Rated ⟨.warning, [r]⟩ False True False := by
  constructor <;> simp

theorem rated_unknown (r : HealthReason) : Rated ⟨.unknown, [r]⟩ False False True := by
  constructor <;> simp

namespace Rated

variable {h : Health} {u w k u' w' k' : Prop}

theorem healthy_iff (hr : Rated h u w k) : h.status = .healthy ↔ ¬ u ∧ ¬ w ∧ ¬ k := by
  obtain ⟨hu, hw, hk, -⟩ := hr
  constructor
  · intro hstatus
    simp only [hstatus, reduceCtorEq, false_iff] at hu hw hk
    exact ⟨hu, fun h => hw ⟨hu, h⟩, fun h => hk ⟨hu, fun h => hw ⟨hu, h⟩, h⟩⟩
  · rintro ⟨hnu, hnw, hnk⟩
    cases hstatus : h.status with
    | healthy => rfl
    | warning => exact absurd (hw.mp hstatus).2 hnw
    | unhealthy => exact absurd (hu.mp hstatus) hnu
    | unknown => exact absurd (hk.mp hstatus).2.2 hnk

theorem congr (hr : Rated h u w k) (hu : u ↔ u') (hw : w ↔ w') (hk : k ↔ k') : Rated h u' w' k' := by
  obtain rfl := propext hu
  obtain rfl := propext hw
  obtain rfl := propext hk
  exact hr

/-- A check that makes the status unhealthy when it fails. -/
theorem escalate {c : Prop} [Decidable c] (hr : Rated h u w k) (r : HealthReason) :
    Rated (if c then ⟨.unhealthy, h.reasons ++ [r]⟩ else h) (u ∨ c) w k := by
  by_cases hc : c
  · rw [if_pos hc]
    exact rated_unhealthy r (.inr hc)
  · rw [if_neg hc]
    exact hr.congr (by simp [hc]) Iff.rfl Iff.rfl

/-- A check that raises the status to a warning when it fails. -/
theorem warn {c : Prop} [Decidable c] (hr : Rated h u w k) (r : HealthReason) :
    Rated (if c ∧ h.status ≠ .unhealthy then ⟨.warning, h.reasons ++ [r]⟩ else h) u (w ∨ c) k := by
  by_cases hc : c
  · by_cases hu : u
    · rw [if_neg fun h => h.2 (hr.unhealthy_iff.mpr hu)]
      have hstatus := hr.unhealthy_iff.mpr hu
      refine ⟨hr.unhealthy_iff, ?_, ?_, hr.reasons_iff⟩
      · simp [hstatus, hu]
      · simp [hstatus, hu]
    · rw [if_pos ⟨hc, fun h => hu (hr.unhealthy_iff.mp h)⟩]
      constructor <;> simp [hc, hu]
  · rw [if_neg fun h => hc h.1]
    exact hr.congr Iff.rfl (by simp [hc]) Iff.rfl

/-- Worse conditions give no better status. -/
theorem severity_le {h' : Health} (hr : Rated h u w k) (hr' : Rated h' u' w' k') (hu : u → u')
    (hw : w → w') (hk : k → k') : h.status.severity ≤ h'.status.severity := by
  by_cases hu' : u'
  · rw [hr'.unhealthy_iff.mpr hu']
    cases h.status <;> decide
  · have hnu : ¬ u := fun h => hu' (hu h)
    by_cases hw' : w'
    · rw [hr'.warning_iff.mpr ⟨hu', hw'⟩]
      cases hstatus : h.status with
      | unhealthy => exact absurd (hr.unhealthy_iff.mp hstatus) hnu
      | _ => decide
    · have hnw : ¬ w := fun h => hw' (hw h)
      by_cases hk' : k'
      · rw [hr'.unknown_iff.mpr ⟨hu', hw', hk'⟩]
        cases hstatus : h.status with
        | unhealthy => exact absurd (hr.unhealthy_iff.mp hstatus) hnu
        | warning => exact absurd (hr.warning_iff.mp hstatus).2 hnw
        | _ => decide
      · rw [hr.healthy_iff.mpr ⟨hnu, hnw, fun h => hk' (hk h)⟩]
        exact Nat.zero_le _

/-- One freshness check. -/
theorem freshness {host : Host} {now : Utc} {signal : Signal} {value : Json} {warning unhealthy : Int}
    {next : Health} (hr : Rated h u w k)
    (hnext : host.applyFreshness h signal value now warning unhealthy = .ok next) :
    Rated next (u ∨ host.Lapsed now value unhealthy) (w ∨ host.Older now value warning) k := by
  unfold Host.applyFreshness at hnext
  split at hnext
  · cases hnext
    exact rated_unhealthy _ (.inr (.inl rfl))
  · rename_i hnull
    obtain ⟨t, ht, hnext⟩ := Result.bind_eq_ok.mp hnext
    obtain ⟨unhealthyAge, hunhealthy, hnext⟩ := Result.bind_eq_ok.mp hnext
    have holder (limit : Int) :
        host.Older now value limit ↔ limit * minuteMicros < now.micros - t.micros := by
      simp [Host.Older, ht]
    rw [eq_of_minutes hunhealthy] at hnext
    split at hnext
    · rename_i hstale
      cases hnext
      exact rated_unhealthy _ (.inr (.inr ((holder _).mpr hstale)))
    · rename_i hstale
      obtain ⟨warningAge, hwarning, hnext⟩ := Result.bind_eq_ok.mp hnext
      rw [eq_of_minutes hwarning] at hnext
      have hlapsed : ¬ host.Lapsed now value unhealthy := by
        rintro (hmissing | hold)
        · exact hnull hmissing
        · exact hstale ((holder _).mp hold)
      have hwarned := (hr.warn (.aging signal) (c := warning * minuteMicros < now.micros - t.micros))
      have hresult : next = if warning * minuteMicros < now.micros - t.micros ∧ h.status ≠ .unhealthy
          then ⟨.warning, h.reasons ++ [.aging signal]⟩ else h := by
        split at hnext
        · rename_i hc
          cases hnext
          rw [if_pos hc]
        · rename_i hc
          cases hnext
          rw [if_neg hc]
      rw [hresult]
      exact hwarned.congr (by simp [hlapsed]) (by rw [holder]) Iff.rfl

end Rated

/-! ### The whole of `_health` -/

section Whole

variable {host : Host} {s : Situation} {now : Utc}

/-- What the market's state adds. -/
def Host.SessionUnhealthy (host : Host) (s : Situation) (now : Utc) : Prop :=
  s.state = .marketOpen ∧
    (host.Lapsed now s.extractor.lastBarUtc s.settings.barUnhealthyMinutes ∨
      host.Lapsed now (orNull UtcText.toJson s.loader.lastCommitUtc) s.settings.commitUnhealthyMinutes)

def Host.SessionWarning (host : Host) (s : Situation) (now : Utc) : Prop :=
  s.state = .marketOpen ∧
    (host.Older now s.extractor.lastBarUtc s.settings.barWarningMinutes ∨
      host.Older now (orNull UtcText.toJson s.loader.lastCommitUtc) s.settings.commitWarningMinutes) ∨
  s.state = .settling ∧ s.extractor.finalMetricsAtUtc = none

theorem rated_sessionHealth {h : Health}
    (hh : host.sessionHealth s.state now s.extractor s.loader s.settings = .ok h) :
    Rated h (host.SessionUnhealthy s now) (host.SessionWarning s now) s.NoSession := by
  unfold Host.SessionUnhealthy Host.SessionWarning Situation.NoSession
  unfold Host.sessionHealth at hh
  cases hstate : s.state with
  | marketOpen =>
      simp only [hstate] at hh
      obtain ⟨bar, hbar, hcommit⟩ := Result.bind_eq_ok.mp hh
      exact ((rated_healthy.freshness hbar).freshness hcommit).congr (by simp) (by simp) (by simp)
  | settling =>
      simp only [hstate] at hh
      split at hh
      · rename_i hfinal
        cases hh
        exact (rated_warning _).congr (by simp) (by simpa using hfinal) (by simp)
      · rename_i hfinal
        cases hh
        exact rated_healthy.congr (by simp) (by simpa using hfinal) (by simp)
  | _ =>
      simp only [hstate] at hh
      split at hh
      · rename_i hnone
        cases hh
        exact (rated_unknown _).congr (by simp) (by simp) (by simp [hnone])
      · rename_i hnone
        cases hh
        exact rated_healthy.congr (by simp) (by simp) (by simp [hnone])

/-- The alerts that `_health` counts. -/
theorem isUnresolved_eq_true {lastCommit : Option UtcText} {a : Alert} {b : Bool}
    (h : host.isUnresolved lastCommit a = .ok b) : b = true ↔ host.Unresolved lastCommit a := by
  unfold Host.isUnresolved at h
  split at h
  · rename_i hseverity
    cases h
    simp [Host.Unresolved, hseverity]
  · rename_i hseverity
    have hseverity := not_not.mp hseverity
    split at h
    · rename_i hcomponent
      cases h
      simp [Host.Unresolved, hseverity, hcomponent]
    · rename_i hcomponent
      split at h
      · cases h
        simp [Host.Unresolved, hseverity]
      · rename_i commit
        obtain ⟨at_, hat, h⟩ := Result.bind_eq_ok.mp h
        obtain ⟨committed, hcommitted, h⟩ := Result.bind_eq_ok.mp h
        cases h
        simp [Host.Unresolved, hseverity, not_not.mp hcomponent, hat, hcommitted]

theorem any_unresolved {lastCommit : Option UtcText} {alerts : List Alert} {bs : List Bool}
    (h : List.Forall₂ (fun a b => host.isUnresolved lastCommit a = .ok b) alerts bs) :
    bs.any id = true ↔ ∃ a ∈ alerts, host.Unresolved lastCommit a := by
  induction h with
  | nil => simp
  | cons ha _ ih =>
      rw [List.any_cons, Bool.or_eq_true, ih, id, isUnresolved_eq_true ha]
      simp

theorem unhealthy_iff :
    host.Unhealthy s now ↔ host.SessionUnhealthy s now ∨
      host.Lapsed now (orNull UtcText.toJson s.loader.latestHeartbeatUtc)
        s.settings.heartbeatUnhealthyMinutes ∨
      s.loader.state = some "stalled" ∨ ∃ a ∈ s.alerts, host.Unresolved s.loader.lastCommitUtc a := by
  constructor
  · intro h
    cases h with
    | bar hopen h => exact .inl ⟨hopen, .inl h⟩
    | commit hopen h => exact .inl ⟨hopen, .inr h⟩
    | heartbeat h => exact .inr (.inl h)
    | stalled h => exact .inr (.inr (.inl h))
    | error ha h => exact .inr (.inr (.inr ⟨_, ha, h⟩))
  · rintro (⟨hopen, h | h⟩ | h | h | ⟨a, ha, h⟩)
    · exact .bar hopen h
    · exact .commit hopen h
    · exact .heartbeat h
    · exact .stalled h
    · exact .error ha h

theorem warning_iff :
    host.Warning s now ↔ host.SessionWarning s now ∨
      host.Older now (orNull UtcText.toJson s.loader.latestHeartbeatUtc)
        s.settings.heartbeatWarningMinutes := by
  constructor
  · intro h
    cases h with
    | bar hopen h => exact .inl (.inl ⟨hopen, .inl h⟩)
    | commit hopen h => exact .inl (.inl ⟨hopen, .inr h⟩)
    | heartbeat h => exact .inr h
    | shutdown hsettling h => exact .inl (.inr ⟨hsettling, h⟩)
  · rintro ((⟨hopen, h | h⟩ | ⟨hsettling, h⟩) | h)
    · exact .bar hopen h
    · exact .commit hopen h
    · exact .shutdown hsettling h
    · exact .heartbeat h

theorem rated_health {h : Health} (hh : host.healthAt s now = .ok h) :
    Rated h (host.Unhealthy s now) (host.Warning s now) s.NoSession := by
  unfold Host.healthAt Host.health at hh
  obtain ⟨session, hsession, hh⟩ := Result.bind_eq_ok.mp hh
  obtain ⟨beat, hbeat, hh⟩ := Result.bind_eq_ok.mp hh
  obtain ⟨unresolved, hunresolved, hh⟩ := Result.bind_eq_ok.mp hh
  cases hh
  have hany := any_unresolved (Result.mapM_eq_ok.mp hunresolved)
  have hrated := (((rated_sessionHealth hsession).freshness hbeat).escalate .loaderStalled
    (c := s.loader.state = some "stalled")).escalate .recentError (c := unresolved.any id = true)
  refine hrated.congr ?_ warning_iff.symm Iff.rfl
  rw [unhealthy_iff, hany, or_assoc, or_assoc]

/-- The status is that of the worst condition, and it does not improve by waiting. -/
theorem health_worst {host : Host} {s : Situation} (hs : s.Checkable host) (now : Utc) :
    ∃ h, host.healthAt s now = .ok h ∧
      (h.status = .unhealthy ↔ host.Unhealthy s now) ∧
      (h.status = .warning ↔ ¬ host.Unhealthy s now ∧ host.Warning s now) ∧
      (h.status = .unknown ↔ ¬ host.Unhealthy s now ∧ ¬ host.Warning s now ∧ s.NoSession) ∧
      (h.status = .healthy ↔ ¬ host.Unhealthy s now ∧ ¬ host.Warning s now ∧ ¬ s.NoSession) ∧
      (h.status = .healthy ↔ h.reasons = []) ∧
      ∀ later : Utc, now.micros ≤ later.micros →
        ∃ h', host.healthAt s later = .ok h' ∧ h.status.severity ≤ h'.status.severity := by
  obtain ⟨h, hh⟩ := health_returns now hs.bar hs.limits s.state s.loader s.alerts
  have hr := rated_health (s := s) hh
  refine ⟨h, hh, hr.unhealthy_iff, hr.warning_iff, hr.unknown_iff, hr.healthy_iff, hr.reasons_iff, ?_⟩
  intro later hlater
  obtain ⟨h', hh'⟩ := health_returns later hs.bar hs.limits s.state s.loader s.alerts
  exact ⟨h', hh', hr.severity_le (rated_health (s := s) hh') (.mono hlater) (.mono hlater) id⟩

end Whole

/-! ### Two situations -/

/-- A loader that has just sent a heartbeat, on a Saturday. -/
def quietWeekend (settings : DashboardSettings) : Situation where
  state := .weekend
  extractor := extractorSummary []
  loader :=
    { status := .observed
      state := some "running"
      latestHeartbeatUtc := some (.of saturdayNoon)
      processStartedAtUtc := none
      lastInputUtc := none
      lastCommitUtc := none
      lastCommitDurationMs := none
      aggregateLagRecords := none
      bufferedBars := none
      bufferedSourceRecords := none
      partitions := []
      failureCount := 0
      failureCountIsCapped := false
      lastFailureUtc := none
      lastFailureCode := none
      recentCommits := [] }
  alerts := []
  settings

theorem quietWeekend_checkable (host : Host) (projectId : String) :
    (quietWeekend (.default projectId)).Checkable host :=
  ⟨.inl rfl, usable_default projectId⟩

theorem quietWeekend_worst :
    ∃ h, summerHost.healthAt (quietWeekend (.default "p")) saturdayNoon = .ok h ∧
      h.status = .unknown ∧
      ∀ later : Utc, saturdayNoon.micros ≤ later.micros →
        ∃ h', summerHost.healthAt (quietWeekend (.default "p")) later = .ok h' ∧
          HealthStatus.unknown.severity ≤ h'.status.severity := by
  obtain ⟨h, hh, -, -, -, -, -, hlater⟩ :=
    health_worst (quietWeekend_checkable summerHost "p") saturdayNoon
  have hstatus : h.status = .unknown := by
    have hvalue : summerHost.healthAt (quietWeekend (.default "p")) saturdayNoon =
        .ok ⟨.unknown, [.noRecentSession]⟩ := rfl
    rw [hvalue] at hh
    cases hh
    rfl
  rw [hstatus] at hlater
  exact ⟨h, hh, hstatus, hlater⟩

/-- Limits beyond a `timedelta`. -/
def endlessLimits : DashboardSettings :=
  { DashboardSettings.default "p" with heartbeatUnhealthyMinutes := 10 ^ 15 }

/-- There is no status when a limit is no duration. -/
theorem endlessLimits_raises :
    summerHost.Dated (quietWeekend endlessLimits).extractor.lastBarUtc ∧
      ¬ ∃ h, summerHost.healthAt (quietWeekend endlessLimits) saturdayNoon = .ok h := by
  have hraises : summerHost.healthAt (quietWeekend endlessLimits) saturdayNoon =
      .error .overflowError := rfl
  refine ⟨.inl rfl, ?_⟩
  rintro ⟨h, hh⟩
  rw [hraises] at hh
  cases hh

end Lakehouse.Dashboard
