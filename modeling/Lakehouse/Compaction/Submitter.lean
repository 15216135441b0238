/-
`submit_compaction.py`: the reading of the table's current snapshot and the
quiet window around it.

A clock reading is a number of seconds; `clock` and `read` give what the
successive calls of the two callables return.
-/

import Lakehouse.Compaction.Settings
import Lakehouse.Lib.Calendar
import Mathlib.Algebra.Order.Ring.Rat

namespace Lakehouse.Compaction

open Dashboard (Python)

structure Snapshot where
  metadataVersion : String
  snapshotId : String
deriving DecidableEq, Repr

/-- `[1-9][0-9]*`. -/
def isVersion (s : String) : Bool :=
  match s.toList with
  | [] => false
  | c :: rest => c.isDigit && c != '0' && rest.all Char.isDigit

/-- A call of `json`, of `dict.get` or of `str`. -/
def python {α : Type} (value : Dashboard.Py α) : Except Failure α := value.mapError .python

/-- `subprocess.run(...).stdout`. -/
abbrev Command := List String → Except Failure String

def Settings.metadata (settings : Settings) : String :=
  settings.warehouse ++ "/" ++ settings.namespace_ ++ "/" ++ settings.table ++ "/metadata"

/-- The command line that prints an object. -/
def cat (uri : String) : List String := ["gcloud", "storage", "cat", uri]

def Settings.hint (settings : Settings) : String := settings.metadata ++ "/version-hint.text"

def Settings.metadataFile (settings : Settings) (version : String) : String :=
  settings.metadata ++ "/v" ++ version ++ ".metadata.json"

/-- `read_snapshot`. -/
def readSnapshot (py : Python) (settings : Settings) (command : Command) :
    Except Failure Snapshot := do
  let version := strip (← command (cat settings.hint))
  if isVersion version then
    let text ← command (cat (settings.metadataFile version))
    let document ← python (py.loads text)
    match ← python (Dashboard.get document "current-snapshot-id") with
    | .null => .error (.runtimeError "Iceberg table has no current snapshot")
    | snapshotId => return ⟨version, ← python (py.str snapshotId)⟩
  else .error (.runtimeError "Iceberg version-hint.text is invalid")

/-- What a call of `require_quiet_snapshot` ends with, and the seconds of each
`sleep` it made. -/
structure Watch where
  result : Except Failure Snapshot
  sleeps : List ℚ

def Watch.afterSleep (seconds : ℚ) (watch : Watch) : Watch :=
  { watch with sleeps := seconds :: watch.sleeps }

/-- The error of a sample that differs from the first. -/
def tableChanged (expected observed : Snapshot) : Failure :=
  .runtimeError ("table changed during quiet window: metadata v" ++ expected.metadataVersion ++
    "/snapshot " ++ expected.snapshotId ++ " -> v" ++ observed.metadataVersion ++ "/snapshot " ++
    observed.snapshotId)

/-- `min(check_interval_seconds, max(0, deadline - clock()))`. -/
def sleepSeconds (settings : Settings) (deadline now : ℚ) : ℚ :=
  min (settings.checkIntervalSeconds : ℚ) (max 0 (deadline - now))

section Window

variable (settings : Settings) (clock : ℕ → ℚ) (read : ℕ → Except Failure Snapshot)

/-- `clock() + settings.quiet_window_seconds`. -/
def deadline : ℚ := clock 0 + settings.quietWindowSeconds

/-- The `while` loop from its test number `k` on, which reads the clock for the
time `2 * k + 1`; `none` when more rounds than `fuel` are needed. -/
def quietLoop (expected : Snapshot) : (fuel k : ℕ) → Option Watch
  | 0, _ => none
  | fuel + 1, k =>
      if clock (2 * k + 1) < deadline settings clock then
        let seconds := sleepSeconds settings (deadline settings clock) (clock (2 * k + 2))
        match read (k + 1) with
        | .error e => some ⟨.error e, [seconds]⟩
        | .ok observed =>
            if observed ≠ expected then some ⟨.error (tableChanged expected observed), [seconds]⟩
            else (quietLoop expected fuel (k + 1)).map (Watch.afterSleep seconds)
      else some ⟨.ok expected, []⟩

/-- `require_quiet_snapshot`. -/
def requireQuietSnapshot (runNow : Bool) (fuel : ℕ) : Option Watch :=
  match read 0 with
  | .error e => some ⟨.error e, []⟩
  | .ok expected =>
      if runNow then some ⟨.ok expected, []⟩
      else quietLoop settings clock read expected fuel 0

end Window

/-! ### What a read returns -/

theorem toDigits_head {n : ℕ} (h : 0 < n) :
    ∃ c rest, Nat.toDigits 10 n = c :: rest ∧ c ≠ '0' := by
  induction n using Nat.base_induction 10 (by decide) with
  | single m hm =>
      refine ⟨Nat.digitChar m, [], Nat.toDigits_of_lt_base hm, fun hzero => ?_⟩
      have hvalue := Calendar.digitValue_digitChar hm
      rw [hzero] at hvalue
      exact absurd hvalue (Nat.ne_of_lt h)
  | digit m k hk hm ih =>
      obtain ⟨c, rest, heq, hc⟩ := ih hm
      exact ⟨c, rest ++ Nat.toDigits 10 k, by
        rw [← Nat.toDigits_append_toDigits (by decide) hm hk, heq, List.cons_append], hc⟩

theorem isVersion_natText {n : ℕ} (h : 0 < n) : isVersion (toString n) = true := by
  obtain ⟨c, rest, heq, hc⟩ := toDigits_head h
  have hdigits : ∀ d ∈ c :: rest, d.isDigit = true := fun d hd =>
    Nat.isDigit_of_mem_toDigits (by decide) (by decide) (heq ▸ hd)
  simp only [isVersion, Nat.toString_eq_repr, Nat.toList_repr, heq, Bool.and_eq_true,
    bne_iff_ne, ne_eq]
  exact ⟨⟨hdigits c List.mem_cons_self, hc⟩,
    List.all_eq_true.mpr fun d hd => hdigits d (List.mem_cons_of_mem _ hd)⟩

/-- Files that name a version and a snapshot are read as both. -/
theorem readSnapshot_eq {py : Python} {settings : Settings} {command : Command} {hint text : String}
    {version : ℕ} {document : Dashboard.Dict} {snapshotId : ℤ} (hversion : 0 < version)
    (hhint : command (cat settings.hint) = .ok hint) (hstrip : strip hint = toString version)
    (hfile : command (cat (settings.metadataFile (toString version))) = .ok text)
    (hloads : py.loads text = .ok (.obj document))
    (hcurrent : Dashboard.dictGet document "current-snapshot-id" = .int snapshotId)
    (hdigits : (Nat.toDigits 10 snapshotId.natAbs).length ≤ Dashboard.maxStrDigits) :
    readSnapshot py settings command = .ok ⟨toString version, toString snapshotId⟩ := by
  have hid : py.str (.int snapshotId) = .ok (toString snapshotId) := by
    simp only [Python.str, Python.repr, Dashboard.intText, if_pos hdigits, Except.map,
      String.ofList_toList]
  have hget : Dashboard.get (.obj document) "current-snapshot-id" = .ok (.int snapshotId) := by
    rw [Dashboard.dictGet_obj, hcurrent]
  simp only [readSnapshot, bind, Except.bind, hhint, hstrip, isVersion_natText hversion, if_true,
    hfile, hloads, hget, hid, python, Except.mapError]
  rfl

end Lakehouse.Compaction
