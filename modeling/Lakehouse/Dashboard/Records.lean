/-
Which log records the loop of `build_snapshot` reads.

An `Entry` is a record with a payload and a time that can be read; everything
else in it is arbitrary. Most fields are looked at only after a test of their
type. The ones that are not are listed here.

* `Host.Takes`: the records the loop reads without raising.
* `readEntry_returns`, `readEntries_eq_ok`: it is exactly those.
-/

import Lakehouse.Dashboard.BuildSnapshot
import Lakehouse.Dashboard.Returns

namespace Lakehouse.Dashboard

/-- A log record: an object with a payload and a time that can be read, each with its
default. -/
structure Entry (host : Host) (now : Utc) where
  members : Dict
  payload : Dict
  stamp : String
  time : Utc
  jsonPayload : dictGetOr members "jsonPayload" (.obj []) = .obj payload
  timestamp : dictGetOr members "timestamp" (dictGetOr payload "timestamp" (.str (utcText now))) =
    .str stamp
  parsed : host.parseUtc stamp = .ok time

def Entry.toJson {host : Host} {now : Utc} (e : Entry host now) : Json := .obj e.members

/-! ### Records the loop can read -/

/-- A value `str` can write. -/
def Python.Writable (py : Python) (value : Json) : Prop :=
  value.nesting ≤ py.reprDepth ∧ value.AllLeaves ShortInt

/-- A text `json.loads` reads, or finds to be no JSON. -/
def Python.Loadable (py : Python) (text : String) : Prop :=
  ∀ e, py.loads text = .error e → e = .jsonDecodeError

def levelOf (payload : Dict) : Json :=
  dictGetOr payload "level" (dictGetOr payload "severity" (.str "INFO"))

def messageOf (payload : Dict) : Json :=
  match dictGet payload "fields" with
  | .obj fields => dictGetOr fields "message" (.str "")
  | _ => dictGetOr payload "MESSAGE" (.str "")

/-- The level is one of those that make an alert. -/
def Python.Alerts (py : Python) (level : Json) : Prop :=
  ∃ text, py.str level = .ok text ∧
    Casing.upper text ∈ ["WARN", "WARNING", "ERROR", "CRITICAL"]

/-- A record of the extractor: the snapshot of a message can be loaded, and what an
alert says can be written. -/
structure Python.TakesExtractor (py : Python) (payload : Dict) : Prop where
  snapshot : ∀ fields message text, dictGet payload "fields" = .obj fields →
    dictGet fields "message" = .str message → dictGet fields "snapshot" = .str text →
    py.Loadable text
  level : py.Writable (levelOf payload)
  message : py.Alerts (levelOf payload) → py.Writable (messageOf payload)

/-- A record of the loader: its event can be looked up in a set. -/
def TakesLoader (payload : Dict) : Prop :=
  dictGet payload "target" = .str LOADER_HEALTH_TARGET →
    ∀ fields, dictGet payload "fields" = .obj fields → hashable (dictGet fields "event") = true

structure Python.Takes (py : Python) (payload : Dict) : Prop where
  extractor : dictGet payload "_SYSTEMD_UNIT" = .str EXTRACTOR_UNIT → py.TakesExtractor payload
  loader : dictGet payload "_SYSTEMD_UNIT" = .str LOADER_UNIT → TakesLoader payload

section Records

variable {host : Host} {payload : Dict} {time : Utc}

theorem loadSnapshot_returns {raw : Json} :
    Returns (host.loadSnapshot raw) ↔ ∀ text, raw = .str text → host.Loadable text := by
  unfold Host.loadSnapshot
  split
  · rename_i text
    simp only [Json.str.injEq, forall_eq', Python.Loadable]
    split
    · rename_i h
      simp [h]
    · rename_i h
      simp [h]
    · rename_i h
      simp [h]
    · rename_i e hne h
      simp only [h, not_returns_error, Except.error.injEq, forall_eq', false_iff]
      exact hne
  · rename_i hraw
    simp only [returns_ok, true_iff]
    exact fun text htext => absurd htext (hraw text)

theorem extractExtractorEvent_returns :
    Returns (host.extractExtractorEvent payload time) ↔
      ∀ fields message text, dictGet payload "fields" = .obj fields →
        dictGet fields "message" = .str message → dictGet fields "snapshot" = .str text →
        host.Loadable text := by
  unfold Host.extractExtractorEvent
  split
  · rename_i fields hfields
    split
    · rename_i message hmessage
      rw [returns_map, loadSnapshot_returns]
      constructor
      · intro h fields' _ text hfields' _ htext
        obtain rfl := Json.obj.inj (hfields.symm.trans hfields')
        exact h text htext
      · exact fun h text htext => h fields message text hfields hmessage htext
    · rename_i hmessage
      simp only [returns_pure, true_iff]
      intro fields' message _ hfields' hmessage'
      obtain rfl := Json.obj.inj (hfields.symm.trans hfields')
      exact absurd hmessage' (hmessage message)
  · rename_i hfields
    simp only [returns_pure, true_iff]
    exact fun fields _ _ hfields' => absurd hfields' (hfields fields)

/-- The idle message is the only alert that is not written, and it is a string. -/
theorem safeAlert_returns {component : Component} :
    Returns (host.safeAlert component payload time) ↔
      host.Writable (levelOf payload) ∧
        (host.Alerts (levelOf payload) → host.Writable (messageOf payload)) := by
  have hmessage (alert : String → Alert) :
      Returns (if isText (messageOf payload) idleMessage = true then pure none
        else host.str (messageOf payload) >>= fun text => pure (some (alert text))) ↔
        host.Writable (messageOf payload) := by
    split
    · rename_i hidle
      have hwritable : host.Writable (.str idleMessage) := (str_returns _ _).mp ⟨_, rfl⟩
      simp [isText_iff.mp hidle, hwritable]
    · rw [returns_map]
      exact str_returns _ _
  have halert : Returns (host.safeAlert component payload time) ↔
      ∃ text, host.str (levelOf payload) = .ok text ∧
        (Casing.upper text ∈ ["WARN", "WARNING", "ERROR", "CRITICAL"] →
          host.Writable (messageOf payload)) := by
    unfold Host.safeAlert
    rw [returns_bind]
    refine exists_congr fun text => and_congr_right fun _ => ?_
    dsimp only
    by_cases hlevel : Casing.upper text ∈ ["WARN", "WARNING", "ERROR", "CRITICAL"]
    · rw [if_neg (not_not.mpr hlevel)]
      exact (hmessage _).trans (by simp only [hlevel, forall_const])
    · rw [if_pos hlevel]
      simp only [hlevel, returns_pure, false_imp_iff]
  rw [halert]
  constructor
  · rintro ⟨text, htext, hwritable⟩
    refine ⟨(str_returns _ _).mp ⟨text, htext⟩, ?_⟩
    rintro ⟨text', htext', hlevel⟩
    obtain rfl := Except.ok.inj (htext.symm.trans htext')
    exact hwritable hlevel
  · rintro ⟨hlevel, hwritable⟩
    obtain ⟨text, htext⟩ := (str_returns _ _).mpr hlevel
    exact ⟨text, htext, fun hmem => hwritable ⟨text, htext, hmem⟩⟩

theorem extractLoaderEvent_returns :
    Returns (extractLoaderEvent payload time) ↔ TakesLoader payload := by
  unfold extractLoaderEvent TakesLoader
  by_cases htarget : dictGet payload "target" = .str LOADER_HEALTH_TARGET
  · rw [if_neg (by simp [isText_iff.mpr htarget])]
    simp only [htarget, forall_const]
    split
    · rename_i fields hfields
      simp only [hfields, Json.obj.injEq, forall_eq']
      split
      · rename_i text htext
        rw [htext]
        split
        · split
          · simp [hashable]
          · simp [hashable]
        · simp [hashable]
      · split
        · rename_i hhash
          simp [hhash]
        · rename_i hhash
          simp [hhash]
    · rename_i hfields
      simp only [returns_ok, true_iff]
      exact fun fields hfields' => absurd hfields' (hfields fields)
  · have hother : isText (dictGet payload "target") LOADER_HEALTH_TARGET = false := by
      rw [Bool.eq_false_iff, Ne, isText_iff]
      exact htarget
    simp [hother, htarget]

/-- What the loop does with a record. -/
theorem readEntry_eq {now : Utc} (e : Entry host now) :
    host.readEntry now e.toJson =
      if isText (dictGet e.payload "_SYSTEMD_UNIT") EXTRACTOR_UNIT = true then do
        let event ← host.extractExtractorEvent e.payload e.time
        let alert ← host.safeAlert .extractor e.payload e.time
        return ⟨event, none, alert⟩
      else if isText (dictGet e.payload "_SYSTEMD_UNIT") LOADER_UNIT = true then do
        let event ← extractLoaderEvent e.payload e.time
        return ⟨none, event, event.bind loaderAlert⟩
      else return ⟨none, none, none⟩ := by
  simp only [Host.readEntry, Entry.toJson, dictGetOr_obj, e.jsonPayload, e.timestamp,
    Host.parseUtcValue, e.parsed, bind, Except.bind]

/-- The loop reads a record that nothing in it prevents. -/
theorem readEntry_returns {now : Utc} (e : Entry host now) :
    Returns (host.readEntry now e.toJson) ↔ host.Takes e.payload := by
  have hunits : (.str EXTRACTOR_UNIT : Json) ≠ .str LOADER_UNIT := by
    simp [EXTRACTOR_UNIT, LOADER_UNIT]
  rw [readEntry_eq]
  split
  · rename_i hunit
    rw [isText_iff] at hunit
    have htakes : host.Takes e.payload ↔ host.TakesExtractor e.payload :=
      ⟨fun h => h.extractor hunit,
        fun h => ⟨fun _ => h, fun hloader => absurd (hunit.symm.trans hloader) hunits⟩⟩
    rw [htakes, returns_bind]
    simp only [returns_map]
    rw [exists_and_right]
    change Returns _ ∧ Returns _ ↔ _
    rw [extractExtractorEvent_returns, safeAlert_returns]
    exact ⟨fun ⟨h, hlevel, hmessage⟩ => ⟨h, hlevel, hmessage⟩,
      fun h => ⟨h.snapshot, h.level, h.message⟩⟩
  · rename_i hextractor
    rw [isText_iff] at hextractor
    split
    · rename_i hunit
      rw [isText_iff] at hunit
      have htakes : host.Takes e.payload ↔ TakesLoader e.payload :=
        ⟨fun h => h.loader hunit, fun h => ⟨fun hunit => absurd hunit hextractor, fun _ => h⟩⟩
      rw [htakes, returns_map, extractLoaderEvent_returns]
    · rename_i hloader
      rw [isText_iff] at hloader
      simp only [returns_pure, true_iff]
      exact ⟨fun hunit => absurd hunit hextractor, fun hunit => absurd hunit hloader⟩

end Records

/-- What the loop takes from the records it can read. -/
def Host.readings (host : Host) (now : Utc) (entries : List (Entry host now)) : Readings :=
  .of (entries.filterMap fun e => (host.readEntry now e.toJson).toOption)

theorem readEntries_eq_ok {host : Host} {now : Utc} {entries : List (Entry host now)} {r : Readings} :
    host.readEntries now (entries.map Entry.toJson) = .ok r ↔
      (∀ e ∈ entries, host.Takes e.payload) ∧ r = host.readings now entries := by
  have hall : (∀ e ∈ entries, host.Takes e.payload) ↔
      Returns ((entries.map Entry.toJson).mapM (host.readEntry now)) := by
    rw [returns_mapM, List.forall_mem_map]
    exact forall₂_congr fun e _ => (readEntry_returns e).symm
  have hreadings : ∀ rs, (entries.map Entry.toJson).mapM (host.readEntry now) = .ok rs →
      rs = entries.filterMap fun e => (host.readEntry now e.toJson).toOption := by
    intro rs hrs
    have hrel := List.forall₂_map_left_iff.mp (Result.mapM_eq_ok.mp hrs)
    clear hrs hall
    induction hrel with
    | nil => rfl
    | cons h _ ih => rw [List.filterMap_cons_some (by rw [h]; rfl), ih]
  unfold Host.readEntries
  rw [Result.bind_eq_ok, hall]
  constructor
  · rintro ⟨rs, hrs, hr⟩
    obtain rfl := Result.pure_eq_ok.mp hr
    exact ⟨⟨rs, hrs⟩, by rw [Host.readings, hreadings rs hrs]⟩
  · rintro ⟨⟨rs, hrs⟩, rfl⟩
    exact ⟨rs, hrs, by rw [Host.readings, hreadings rs hrs]; rfl⟩

end Lakehouse.Dashboard
