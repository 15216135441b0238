/-
The quiet window of `submit_compaction.py` against the table it watches.

A `History` says which metadata version is in force at every instant, a
`Timing` when the sleeps and reads of a call happen. The loop samples the table
after each sleep, and it ends when a reading of the clock is past the deadline,
which the last sample need not be.

* `quietLoop_spec` — which rounds the loop makes and when it accepts.
* `rounds_bound` — the loop ends within `⌈window / interval⌉` rounds.
* `missesNoUpdate_iff_seen` — when an accepted window had no update.
-/

import Lakehouse.Compaction.Submitter
import Mathlib.Algebra.Order.Floor.Ring
import Mathlib.Data.Rat.Floor
import Mathlib.Tactic.Linarith

namespace Lakehouse.Compaction

/-- The metadata version in force at every instant, and the snapshot id in each
version's file. -/
structure History where
  version : ℚ → ℕ
  grows : Monotone version
  currentSnapshot : ℕ → ℤ

namespace History

variable (table : History)

/-- What a read at an instant observes. -/
def snapshot (t : ℚ) : Snapshot :=
  ⟨toString (table.version t), toString (table.currentSnapshot (table.version t))⟩

/-- No update takes effect after `first` up to `last`. -/
def Quiet (first last : ℚ) : Prop :=
  ∀ t, first ≤ t → t ≤ last → table.version t = table.version first

variable {table}

theorem snapshot_eq_iff {s t : ℚ} :
    table.snapshot s = table.snapshot t ↔ table.version s = table.version t := by
  constructor
  · intro h
    exact Scan.natText_injective (congrArg Snapshot.metadataVersion h)
  · intro h
    simp only [snapshot, h]

/-- Versions do not come back: it is enough to look at the end. -/
theorem quiet_iff {first last : ℚ} (h : first ≤ last) :
    table.Quiet first last ↔ table.version last = table.version first := by
  constructor
  · intro hquiet
    exact hquiet last h le_rfl
  · intro heq t hfirst hlast
    exact le_antisymm (heq ▸ table.grows hlast) (table.grows hfirst)

end History

/-- When the calls of `require_quiet_snapshot` happen: the `n`-th read lasts
from `began n` to `ended n` and observes the table at `observed n`, and sleep
`k` lasts `slept k`. Calls after the end of the loop may have any times. -/
structure Timing (settings : Settings) (clock : ℕ → ℚ) where
  began : ℕ → ℚ
  observed : ℕ → ℚ
  ended : ℕ → ℚ
  slept : ℕ → ℚ
  clock_mono : Monotone clock
  within : ∀ n, began n ≤ observed n ∧ observed n ≤ ended n
  first : ended 0 ≤ clock 0
  asked : ∀ k, sleepSeconds settings (deadline settings clock) (clock (2 * k + 2)) ≤ slept k
  awake : ∀ k, clock (2 * k + 2) + slept k ≤ began (k + 1)
  back : ∀ k, ended (k + 1) ≤ clock (2 * k + 3)

section Window

variable {settings : Settings} {clock : ℕ → ℚ}

/-! ### The rounds -/

/-- The loop test fails at `n` for the first time. -/
structure Rounds (settings : Settings) (clock : ℕ → ℚ) (n : ℕ) : Prop where
  before : ∀ k < n, clock (2 * k + 1) < deadline settings clock
  after : deadline settings clock ≤ clock (2 * n + 1)

theorem Rounds.lt_of_before {n k : ℕ} (h : Rounds settings clock n) (hmono : Monotone clock)
    (hk : clock (2 * k + 1) < deadline settings clock) : k < n := by
  by_contra hle
  have hclock : clock (2 * n + 1) ≤ clock (2 * k + 1) := hmono (by omega)
  exact absurd (h.after.trans hclock) (not_le.mpr hk)

/-- The rounds from test `k` on: the loop accepts when all samples still to come
are the expected one. -/
theorem quietLoop_spec (sample : ℕ → Snapshot) (expected : Snapshot) {n : ℕ}
    (h : Rounds settings clock n) (left k : ℕ) (hk : k + left = n) :
    ∃ watch : Watch, (∀ fuel, left < fuel →
        quietLoop settings clock (fun i => .ok (sample i)) expected fuel k = some watch) ∧
      watch.sleeps.length ≤ left ∧
      ∀ e, watch.result = .ok e ↔
        e = expected ∧ ∀ j, k ≤ j → j < n → sample (j + 1) = expected := by
  induction left generalizing k with
  | zero =>
      have hkn : k = n := by omega
      subst hkn
      refine ⟨⟨.ok expected, []⟩, ?_, Nat.le_refl 0, ?_⟩
      · intro fuel hfuel
        obtain ⟨fuel, rfl⟩ := Nat.exists_eq_succ_of_ne_zero (Nat.ne_of_gt hfuel)
        rw [quietLoop, if_neg (not_lt.mpr h.after)]
      · intro e
        constructor
        · intro he
          cases he
          exact ⟨rfl, fun j hle hlt => absurd hlt (Nat.not_lt.mpr hle)⟩
        · rintro ⟨rfl, _⟩
          rfl
  | succ left ih =>
      have hopen : clock (2 * k + 1) < deadline settings clock := h.before k (by omega)
      by_cases hsample : sample (k + 1) = expected
      · obtain ⟨watch, hwatch, hlength, hresult⟩ := ih (k + 1) (by omega)
        refine ⟨watch.afterSleep (sleepSeconds settings (deadline settings clock)
          (clock (2 * k + 2))), ?_, Nat.succ_le_succ hlength, ?_⟩
        · intro fuel hfuel
          obtain ⟨fuel, rfl⟩ := Nat.exists_eq_succ_of_ne_zero (Nat.ne_zero_of_lt hfuel)
          rw [quietLoop, if_pos hopen]
          simp only [hsample, ne_eq, not_true_eq_false, if_false,
            hwatch fuel (Nat.lt_of_succ_lt_succ hfuel), Option.map_some]
        · intro e
          rw [Watch.afterSleep, hresult e]
          constructor
          · rintro ⟨he, hrest⟩
            refine ⟨he, fun j hle hlt => ?_⟩
            rcases Nat.eq_or_lt_of_le hle with rfl | hlt'
            · exact hsample
            · exact hrest j hlt' hlt
          · rintro ⟨he, hall⟩
            exact ⟨he, fun j hle hlt => hall j (Nat.le_of_succ_le hle) hlt⟩
      · refine ⟨⟨.error (tableChanged expected (sample (k + 1))), [sleepSeconds settings
          (deadline settings clock) (clock (2 * k + 2))]⟩, ?_, by simp, ?_⟩
        · intro fuel hfuel
          obtain ⟨fuel, rfl⟩ := Nat.exists_eq_succ_of_ne_zero (Nat.ne_zero_of_lt hfuel)
          rw [quietLoop, if_pos hopen]
          simp only [ne_eq, hsample, not_false_eq_true, if_true]
        · intro e
          constructor
          · intro he
            cases he
          · rintro ⟨_, hall⟩
            exact absurd (hall k le_rfl (by omega)) hsample

/-! ### How many there are -/

section Bound

variable (timing : Timing settings clock)
include timing

/-- A round that is not the last takes a whole interval. -/
theorem interval_le {k : ℕ} (h : clock (2 * (k + 1) + 1) < deadline settings clock) :
    clock (2 * k + 1) + settings.checkIntervalSeconds ≤ clock (2 * (k + 1) + 1) := by
  have hread : clock (2 * k + 1) ≤ clock (2 * k + 2) := timing.clock_mono (by omega)
  have hasked := timing.asked k
  have hawake := timing.awake k
  have hwithin := timing.within (k + 1)
  have hback : timing.ended (k + 1) ≤ clock (2 * (k + 1) + 1) := timing.back k
  rw [sleepSeconds] at hasked
  rcases min_choice (settings.checkIntervalSeconds : ℚ)
    (max 0 (deadline settings clock - clock (2 * k + 2))) with hmin | hmin
  · rw [hmin] at hasked
    linarith [hwithin.1, hwithin.2]
  · -- A sleep up to the deadline would end the loop.
    rw [hmin] at hasked
    have hleft := le_max_right 0 (deadline settings clock - clock (2 * k + 2))
    linarith [hwithin.1, hwithin.2]

theorem intervals_le {k : ℕ} (h : clock (2 * k + 1) < deadline settings clock) :
    clock 0 + k * settings.checkIntervalSeconds ≤ clock (2 * k + 1) := by
  induction k with
  | zero =>
      have hclock : clock 0 ≤ clock (2 * 0 + 1) := timing.clock_mono (Nat.zero_le _)
      simpa using hclock
  | succ k ih =>
      have hmono : clock (2 * k + 1) ≤ clock (2 * (k + 1) + 1) := timing.clock_mono (by omega)
      have hround := interval_le timing h
      have hbefore := ih (lt_of_le_of_lt hmono h)
      push_cast
      linarith

variable (hminima : settings.Minima)
include hminima

/-- A round begins before the window is over. -/
theorem round_lt {k : ℕ} (h : clock (2 * k + 1) < deadline settings clock) :
    (k : ℤ) < ⌈(settings.quietWindowSeconds : ℚ) / settings.checkIntervalSeconds⌉ := by
  have hpos : (0 : ℚ) < settings.checkIntervalSeconds := by
    exact_mod_cast lt_of_lt_of_le Int.zero_lt_one hminima.checkInterval
  have hrounds := intervals_le timing h
  rw [deadline] at h
  rw [Int.lt_ceil, lt_div_iff₀ hpos]
  push_cast
  linarith

/-- The loop ends within `⌈window / interval⌉` rounds. -/
theorem rounds_bound : ∃ n : ℕ, Rounds settings clock n ∧
    (n : ℤ) ≤ ⌈(settings.quietWindowSeconds : ℚ) / settings.checkIntervalSeconds⌉ := by
  have hends : ∃ n, deadline settings clock ≤ clock (2 * n + 1) := by
    by_contra hnever
    have hbefore := round_lt timing hminima (not_le.mp (not_exists.mp hnever
      ⌈(settings.quietWindowSeconds : ℚ) / settings.checkIntervalSeconds⌉.toNat))
    exact absurd (Int.self_le_toNat _) (not_le.mpr hbefore)
  have hround : Rounds settings clock (Nat.find hends) :=
    ⟨fun k hk => not_le.mp (Nat.find_min hends hk), Nat.find_spec hends⟩
  refine ⟨Nat.find hends, hround, ?_⟩
  cases hn : Nat.find hends with
  | zero =>
      have hwindow : (0 : ℚ) ≤ settings.quietWindowSeconds := by exact_mod_cast hminima.quietWindow
      have hinterval : (0 : ℚ) ≤ settings.checkIntervalSeconds := by
        exact_mod_cast le_trans Int.one_nonneg hminima.checkInterval
      exact Int.ceil_nonneg (div_nonneg hwindow hinterval)
  | succ k =>
      have hlt := round_lt timing hminima (hround.before k (by omega))
      push_cast
      omega

end Bound

/-! ### The instants of the samples -/

theorem Timing.first_le_deadline (timing : Timing settings clock)
    (hwindow : 0 ≤ settings.quietWindowSeconds) :
    timing.observed 0 ≤ deadline settings clock := by
  have hwindow' : (0 : ℚ) ≤ settings.quietWindowSeconds := by exact_mod_cast hwindow
  rw [deadline]
  linarith [(timing.within 0).2, timing.first]

/-! ### The window -/

/-- What the reads of a call return. -/
def Timing.reads (timing : Timing settings clock) (table : History) (n : ℕ) :
    Except Failure Snapshot :=
  .ok (table.snapshot (timing.observed n))

/-- The loop ends; a snapshot it returns is the first sample, with no update from
there to the deadline; and the samples besides the first are at most
`⌈window / interval⌉ + 1`. -/
def MissesNoUpdate (table : History) (timing : Timing settings clock) : Prop :=
  ∃ watch enough, (∀ fuel, enough ≤ fuel →
      requireQuietSnapshot settings clock (timing.reads table) false fuel = some watch) ∧
    (∀ e, watch.result = .ok e → timing.reads table 0 = .ok e ∧
      table.Quiet (timing.observed 0) (deadline settings clock)) ∧
    (watch.sleeps.length : ℤ) ≤
      ⌈(settings.quietWindowSeconds : ℚ) / settings.checkIntervalSeconds⌉ + 1

/-- Sample `k + 1`, whose round began before the deadline, shows an update. -/
def Seen (table : History) (timing : Timing settings clock) (k : ℕ) : Prop :=
  clock (2 * k + 1) < deadline settings clock ∧
    table.version (timing.observed (k + 1)) ≠ table.version (timing.observed 0)

/-- How a call ends: it accepts the first sample unless a round shows an update. -/
theorem requireQuietSnapshot_spec (hminima : settings.Minima) (table : History)
    (timing : Timing settings clock) :
    ∃ watch enough, (∀ fuel, enough ≤ fuel →
        requireQuietSnapshot settings clock (timing.reads table) false fuel = some watch) ∧
      (∀ e, watch.result = .ok e →
        timing.reads table 0 = .ok e ∧ ¬ ∃ k, Seen table timing k) ∧
      ((¬ ∃ k, Seen table timing k) → ∃ e, watch.result = .ok e) ∧
      (watch.sleeps.length : ℤ) ≤
        ⌈(settings.quietWindowSeconds : ℚ) / settings.checkIntervalSeconds⌉ := by
  obtain ⟨n, hround, hn⟩ := rounds_bound timing hminima
  obtain ⟨watch, hwatch, hlength, hresult⟩ := quietLoop_spec
    (fun i => table.snapshot (timing.observed i)) (table.snapshot (timing.observed 0)) hround n 0
    (Nat.zero_add n)
  refine ⟨watch, n + 1, fun fuel hfuel => hwatch fuel hfuel, ?_, ?_, ?_⟩
  · intro e he
    obtain ⟨hexpected, hsame⟩ := (hresult e).mp he
    refine ⟨congrArg Except.ok hexpected.symm, ?_⟩
    rintro ⟨k, hopen, hchanged⟩
    have hk : k < n := hround.lt_of_before timing.clock_mono hopen
    exact hchanged (History.snapshot_eq_iff.mp (hsame k (Nat.zero_le k) hk))
  · intro hnone
    refine ⟨_, (hresult _).mpr ⟨rfl, fun k _ hk => ?_⟩⟩
    by_contra hdiffers
    exact hnone ⟨k, hround.before k hk, fun heq => hdiffers (History.snapshot_eq_iff.mpr heq)⟩
  · have hlength' : (watch.sleeps.length : ℤ) ≤ n := by exact_mod_cast hlength
    exact hlength'.trans hn

/-- An update that no round shows is missed. -/
theorem not_missesNoUpdate (hminima : settings.Minima) {table : History}
    {timing : Timing settings clock}
    (hupdated : table.version (deadline settings clock) ≠ table.version (timing.observed 0))
    (hnone : ¬ ∃ k, Seen table timing k) : ¬ MissesNoUpdate table timing := by
  rintro ⟨other, enough, hother, hquiet, _⟩
  obtain ⟨watch, enough', hwatch, _, haccepts, _⟩ := requireQuietSnapshot_spec hminima table timing
  have hsame : other = watch := Option.some.inj
    ((hother _ (Nat.le_max_left enough enough')).symm.trans (hwatch _ (Nat.le_max_right _ _)))
  subst hsame
  obtain ⟨e, he⟩ := haccepts hnone
  have hfirst := timing.first_le_deadline hminima.quietWindow
  exact hupdated ((History.quiet_iff hfirst).mp (hquiet e he).2)

/-- The window misses no update exactly when a table that is updated by the
deadline is sampled after an update, in a round that begins before the deadline. -/
theorem missesNoUpdate_iff_seen {environ : Environment}
    (hsettings : Settings.fromEnvironment environ = .ok settings)
    (table : History) (timing : Timing settings clock) :
    MissesNoUpdate table timing ↔
      (table.version (deadline settings clock) ≠ table.version (timing.observed 0) →
        ∃ k, Seen table timing k) := by
  have hminima := Settings.fromEnvironment_minima hsettings
  constructor
  · intro hmisses hupdated
    by_contra hnone
    exact not_missesNoUpdate hminima hupdated hnone hmisses
  · intro hseen
    obtain ⟨watch, enough, hwatch, haccepted, _, hlength⟩ :=
      requireQuietSnapshot_spec hminima table timing
    refine ⟨watch, enough, hwatch, fun e he => ⟨(haccepted e he).1, ?_⟩, by omega⟩
    rw [History.quiet_iff (timing.first_le_deadline hminima.quietWindow)]
    by_contra hupdated
    exact (haccepted e he).2 (hseen hupdated)

/-- It is enough that the last sample is taken at the deadline or later. -/
theorem seen_of_sampled_past {table : History} {timing : Timing settings clock} {k : ℕ}
    (hopen : clock (2 * k + 1) < deadline settings clock)
    (hpast : deadline settings clock ≤ timing.observed (k + 1))
    (hfirst : timing.observed 0 ≤ deadline settings clock)
    (hupdated : table.version (deadline settings clock) ≠ table.version (timing.observed 0)) :
    Seen table timing k := by
  have hgrown : table.version (timing.observed 0) < table.version (deadline settings clock) :=
    lt_of_le_of_ne (table.grows hfirst) (Ne.symm hupdated)
  exact ⟨hopen, ne_of_gt (hgrown.trans_le (table.grows hpast))⟩

end Window

/-! ### Slow reads -/

/-- The shell of the runbook, with the default window and interval. -/
def runbook : Environment :=
  [("GCP_PROJECT", "project-66783f65-9c3e-4880-9a3"),
   ("ICEBERG_WAREHOUSE", "gs://lakehouse/warehouse"),
   ("ICEBERG_NAMESPACE", "alpaca_candidate"),
   ("ICEBERG_TABLE", "bars_direct"),
   ("COMPACTION_SERVICE_ACCOUNT", "iceberg-maintenance@lakehouse.iam.gserviceaccount.com"),
   ("COMPACTION_STAGING_BUCKET", "gs://maintenance"),
   ("COMPACTION_RECEIPT_DIRECTORY", "gs://maintenance/receipts/")]

def runbookSettings : Settings where
  project := "project-66783f65-9c3e-4880-9a3"
  region := "us-east1"
  warehouse := "gs://lakehouse/warehouse"
  namespace_ := "alpaca_candidate"
  table := "bars_direct"
  serviceAccount := "iceberg-maintenance@lakehouse.iam.gserviceaccount.com"
  stagingBucket := "gs://maintenance"
  receiptDirectory := "gs://maintenance/receipts/"
  quietWindowSeconds := 900
  checkIntervalSeconds := 60
  targetFileSizeBytes := 134217728
  executorInstances := 2
  diskSizeGib := 250
  runtimeVersion := "2.3"
  icebergRuntimePackage := "org.apache.iceberg:iceberg-spark-runtime-3.5_2.12:1.9.2"

theorem fromEnvironment_runbook : Settings.fromEnvironment runbook = .ok runbookSettings := by
  rfl

/-- A clock on which every round takes 64.5 seconds. -/
def slowClock (n : ℕ) : ℚ := (((n - 1) / 2 : ℕ) : ℚ) * (129 / 2)

/-- Sleeps of 60 seconds, and reads that observe the table at once and then take
4.5 seconds. -/
def slowReads : Timing runbookSettings slowClock where
  began n := (n : ℚ) * (129 / 2) - if n = 0 then 0 else 9 / 2
  observed n := (n : ℚ) * (129 / 2) - if n = 0 then 0 else 9 / 2
  ended n := (n : ℚ) * (129 / 2)
  slept _ := 60
  clock_mono := by
    intro m n h
    have hround : (((m - 1) / 2 : ℕ) : ℚ) ≤ ((n - 1) / 2 : ℕ) := by
      exact_mod_cast Nat.div_le_div_right (Nat.sub_le_sub_right h 1)
    exact mul_le_mul_of_nonneg_right hround (by norm_num)
  within := by
    intro n
    refine ⟨le_rfl, ?_⟩
    split <;> linarith
  first := by norm_num [slowClock]
  asked := fun k => min_le_left _ _
  awake := by
    intro k
    have hround : (2 * k + 2 - 1) / 2 = k := by omega
    rw [slowClock, hround, if_neg (Nat.succ_ne_zero k)]
    push_cast
    linarith
  back := by
    intro k
    have hround : (2 * k + 3 - 1) / 2 = k + 1 := by omega
    rw [slowClock, hround]

/-- A table with one update. -/
def updatedAt (moment : ℚ) : History where
  version t := if t < moment then 1 else 2
  grows := by
    intro s t h
    by_cases ht : t < moment
    · simp [ht, h.trans_lt ht]
    · simp only [ht, if_false]
      split <;> decide
  currentSnapshot version := 7000 + version

/-- An update in the middle of the window is seen. -/
theorem updateAt500_kept : MissesNoUpdate (updatedAt 500) slowReads :=
  (missesNoUpdate_iff_seen fromEnvironment_runbook (updatedAt 500) slowReads).mpr fun _ =>
    ⟨7, by norm_num [slowClock, deadline, runbookSettings],
      by norm_num [updatedAt, slowReads]⟩

/-- The last sample observes the table after 898.5 seconds, and its read ends
after 903: an update after 899 is accepted as quiet. -/
theorem updateAt899_missed :
    Settings.fromEnvironment runbook = .ok runbookSettings ∧
      ¬ MissesNoUpdate (updatedAt 899) slowReads := by
  refine ⟨fromEnvironment_runbook, not_missesNoUpdate
    (Settings.fromEnvironment_minima fromEnvironment_runbook) ?_ ?_⟩
  · norm_num [updatedAt, slowReads, slowClock, deadline, runbookSettings]
  · rintro ⟨k, hopen, hchanged⟩
    have hround : (2 * k + 1 - 1) / 2 = k := by omega
    have hk : k ≤ 13 := by
      by_contra hlate
      have hlate' : (14 : ℚ) ≤ k := by exact_mod_cast Nat.not_le.mp hlate
      rw [slowClock, hround] at hopen
      norm_num [slowClock, deadline, runbookSettings] at hopen
      linarith
    have hk' : (k : ℚ) ≤ 13 := by exact_mod_cast hk
    refine hchanged ?_
    have hsample : slowReads.observed (k + 1) < 899 := by
      simp only [slowReads, Nat.succ_ne_zero, if_false]
      push_cast
      linarith
    have hfirst : slowReads.observed 0 < 899 := by norm_num [slowReads]
    simp only [updatedAt, hsample, hfirst, if_true]

end Lakehouse.Compaction
