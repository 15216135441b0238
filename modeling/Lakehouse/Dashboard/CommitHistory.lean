/-
The commit history: which start belongs to a success.

The code keeps the started commits in a map and takes them out again. Looked at
from a success, its start is the newest earlier event of the same process, if
that is a start.

* `startBefore`: the start that belongs to an outcome.
* `pairedSuccesses`: the successes, each with its start.
* `commitStep_paired`, `history_paired`: the map holds what `startBefore` finds.
* `recentCommits_iff`: the history shown is that of the pairs, if no timestamp
  read on the way raises.
-/

import Lakehouse.Dashboard.BuildSnapshot
import Lakehouse.Dashboard.LatestHeartbeat

namespace Lakehouse.Dashboard

/-! ### Pairs -/

/-- Whether an event starts or ends a commit of a process. -/
def LoaderEvent.Decides (process : String) (e : LoaderEvent) : Bool :=
  isText e.process process && e.event != .heartbeat

/-- The newest event that starts or ends a commit of a process, if it is a start. -/
def startBefore (process : String) (earlier : List LoaderEvent) : Option LoaderEvent :=
  (findLast (LoaderEvent.Decides process) earlier).filter fun e => e.event == .commitStarted

/-- An event with its start, if it is a success. -/
def pairOf (earlier : List LoaderEvent) (e : LoaderEvent) :
    List (Option LoaderEvent × LoaderEvent) :=
  match e.process, e.event with
  | .str process, .commitSucceeded => [(startBefore process earlier, e)]
  | _, _ => []

/-- The successes of a list, each with its start, behind the events before it. -/
def pairedSuccesses : List LoaderEvent → List LoaderEvent → List (Option LoaderEvent × LoaderEvent)
  | _, [] => []
  | earlier, e :: rest => pairOf earlier e ++ pairedSuccesses (earlier ++ [e]) rest

/-- The element of the history for a success with its start. -/
structure Host.Shows (host : Host) (pair : Option LoaderEvent × LoaderEvent) (c : Commit) : Prop where
  atUtc : host.loaderTimestamp (dictGet pair.2.fields "last_commit_at_utc") pair.2.at_ = .ok c.atUtc
  bars : c.bars = pair.1.bind fun s => integer (dictGet s.fields "batch_bars")
  sourceRecords : c.sourceRecords =
    pair.1.bind fun s => integer (dictGet s.fields "batch_source_records")
  durationMs : c.durationMs = integer (dictGet pair.2.fields "durable_commit_total_duration_ms")

theorem findLast_append_singleton {α : Type} (p : α → Bool) (xs : List α) (x : α) :
    findLast p (xs ++ [x]) = if p x then some x else findLast p xs := by
  unfold findLast
  rw [List.reverse_append]
  cases hp : p x <;> simp [hp]

theorem startBefore_append (process : String) (earlier : List LoaderEvent) (e : LoaderEvent) :
    startBefore process (earlier ++ [e]) =
      if e.Decides process then (if e.event = .commitStarted then some e else none)
      else startBefore process earlier := by
  unfold startBefore
  rw [findLast_append_singleton]
  split
  · by_cases hstart : e.event = .commitStarted <;> simp [hstart]
  · rfl

/-! ### The map of started commits -/

/-- The map holds the starts of the events so far. -/
def History.Tracks (h : History) (earlier : List LoaderEvent) : Prop :=
  ∀ process, h.pending.lookup process = startBefore process earlier

theorem lookup_cons_eq {α : Type} (key other : String) (value : α) (rest : List (String × α)) :
    ((key, value) :: rest).lookup other = if other = key then some value else rest.lookup other := by
  by_cases h : other = key
  · simp [h]
  · have hne : (other == key) = false := beq_eq_false_iff_ne.mpr h
    simp [List.lookup_cons, hne, h]

theorem lookup_others {α : Type} (pending : List (String × α)) (process other : String) :
    (pending.filter fun p => p.1 != process).lookup other =
      if other = process then none else pending.lookup other := by
  induction pending with
  | nil => simp
  | cons p pending ih =>
      obtain ⟨key, value⟩ := p
      by_cases hkey : key = process
      · rw [List.filter_cons_of_neg (by simp [hkey]), ih, lookup_cons_eq, hkey]
        split <;> rfl
      · rw [List.filter_cons_of_pos (by simp [hkey]), lookup_cons_eq, lookup_cons_eq, ih]
        by_cases hother : other = process
        · simp [hother, Ne.symm hkey]
        · simp [hother]

/-- What an event of a process leaves in the map. -/
theorem tracks_of_lookup {earlier : List LoaderEvent} {h : History} {e : LoaderEvent}
    {process : String} (hprocess : e.process = .str process) (hevent : e.event ≠ .heartbeat)
    (htracks : h.Tracks earlier) {next : History}
    (hnext : ∀ other, next.pending.lookup other =
      if other = process then (if e.event = .commitStarted then some e else none)
      else h.pending.lookup other) : next.Tracks (earlier ++ [e]) := by
  intro other
  have hdecides : e.Decides other = decide (other = process) := by
    by_cases hother : other = process
    · simp [LoaderEvent.Decides, hprocess, hevent, hother]
    · simp [LoaderEvent.Decides, hprocess, isText, hother, Ne.symm hother]
  rw [hnext, startBefore_append, hdecides, htracks other]
  simp

/-- An event that starts and ends nothing leaves the map as it is. -/
theorem tracks_of_not_decides {earlier : List LoaderEvent} {h : History} {e : LoaderEvent}
    (hdecides : ∀ process, e.Decides process = false) (htracks : h.Tracks earlier) :
    h.Tracks (earlier ++ [e]) := by
  intro process
  rw [startBefore_append, hdecides process, htracks process]
  rfl

theorem shows_of_commitOf {host : Host} {start : Option LoaderEvent} {e : LoaderEvent} {c : Commit}
    (h : host.commitOf start e = .ok c) : host.Shows (start, e) c := by
  obtain ⟨atUtc, hat, hc⟩ := Result.bind_eq_ok.mp h
  cases hc
  cases start with
  | none => exact ⟨hat, rfl, rfl, rfl⟩
  | some s => exact ⟨hat, rfl, rfl, rfl⟩

/-- One event: the map goes on tracking the starts, and a success adds its element. -/
theorem commitStep_paired {host : Host} {earlier : List LoaderEvent} {h next : History}
    {e : LoaderEvent} (htracks : h.Tracks earlier) (hstep : host.commitStep h e = .ok next) :
    next.Tracks (earlier ++ [e]) ∧
      ∃ added, next.commits = h.commits ++ added ∧ List.Forall₂ host.Shows (pairOf earlier e) added := by
  unfold Host.commitStep at hstep
  unfold pairOf
  split at hstep
  · rename_i process hprocess
    split at hstep
    · rename_i hevent
      cases hstep
      refine ⟨tracks_of_lookup hprocess (by simp [hevent]) htracks fun other => ?_, [], ?_, ?_⟩
      · rw [lookup_cons_eq, lookup_others, if_pos hevent]
        split <;> rfl
      · exact (List.append_nil _).symm
      · simp [hprocess, hevent]
    · rename_i hevent
      obtain ⟨c, hc, hnext⟩ := Result.bind_eq_ok.mp hstep
      cases hnext
      refine ⟨tracks_of_lookup hprocess (by simp [hevent]) htracks fun other => ?_, [c], rfl, ?_⟩
      · simp [lookup_others, hevent]
      · rw [htracks process] at hc
        simpa [hprocess, hevent] using shows_of_commitOf hc
    · rename_i f hevent
      cases hstep
      refine ⟨tracks_of_lookup hprocess (by simp [hevent]) htracks fun other => ?_, [], ?_, ?_⟩
      · simp [lookup_others, hevent]
      · exact (List.append_nil _).symm
      · simp [hprocess, hevent]
    · rename_i hevent
      cases hstep
      refine ⟨tracks_of_not_decides (fun other => ?_) htracks, [], ?_, ?_⟩
      · simp [LoaderEvent.Decides, hevent]
      · exact (List.append_nil _).symm
      · simp [hprocess, hevent]
  · rename_i hprocess
    cases hstep
    refine ⟨tracks_of_not_decides (fun other => ?_) htracks, [], ?_, ?_⟩
    · have hother : isText e.process other = false := by
        rw [Bool.eq_false_iff, Ne, isText_iff]
        exact hprocess other
      simp [LoaderEvent.Decides, hother]
    · exact (List.append_nil _).symm
    · split
      · rename_i htext _
        exact absurd htext (hprocess _)
      · exact .nil

/-- The whole list. -/
theorem history_paired {host : Host} {earlier events : List LoaderEvent} {h last : History}
    (htracks : h.Tracks earlier) (hrun : events.foldlM host.commitStep h = .ok last) :
    ∃ added, last.commits = h.commits ++ added ∧
      List.Forall₂ host.Shows (pairedSuccesses earlier events) added := by
  induction events generalizing earlier h with
  | nil =>
      cases hrun
      exact ⟨[], (List.append_nil _).symm, .nil⟩
  | cons e events ih =>
      rw [List.foldlM_cons] at hrun
      obtain ⟨next, hstep, hrest⟩ := Result.bind_eq_ok.mp hrun
      obtain ⟨htracks, added, hcommits, hshows⟩ := commitStep_paired htracks hstep
      obtain ⟨rest, hlast, hrestShows⟩ := ih htracks hrest
      refine ⟨added ++ rest, ?_, List.rel_append hshows hrestShows⟩
      rw [hlast, hcommits, List.append_assoc]

theorem tracks_nil (commits : List Commit) : History.Tracks ⟨[], commits⟩ [] := fun _ => rfl

/-! ### When nothing raises -/

theorem parseUtc_of_iso {host : Host} {text : String} {parsed : Utc × Option Int}
    (h : fromisoformat (replaceZulu text) = some parsed) :
    host.parseUtc text = host.astimezoneUtc parsed := by
  unfold Host.parseUtc
  rw [h]

theorem parseUtc_of_not_iso {host : Host} {text : String}
    (h : fromisoformat (replaceZulu text) = none) : host.parseUtc text = .error .valueError := by
  unfold Host.parseUtc
  rw [h]

/-- If the value is a time in ISO format, then one of the years 1 to 9999 in UTC. A time
without an offset is the machine's, whose conversion may also raise what is caught. -/
structure Host.InCalendar (host : Host) (value : Json) : Prop where
  zoned : ∀ text wall utcOffset, value = .str text →
    fromisoformat (replaceZulu text) = some (wall, some utcOffset) →
      firstDay * dayMicros ≤ wall.micros - utcOffset ∧
        wall.micros - utcOffset < (lastDay + 1) * dayMicros
  naive : ∀ text wall e, value = .str text →
    fromisoformat (replaceZulu text) = some (wall, none) →
      host.localZone.instant wall.micros = .error e → e.isValueError = true

theorem Host.inCalendar_null (host : Host) : host.InCalendar .null := by
  constructor
  · intro text wall utcOffset h
    cases h
  · intro text wall e h
    cases h

/-- `_optional_utc` returns for what is no time in ISO format, and for the times of the
calendar. -/
theorem readable_iff {host : Host} {value : Json} :
    host.Readable value ↔ host.InCalendar value := by
  have hraises : ∀ {text : String} {parsed : Utc × Option Int} {e : PyError},
      fromisoformat (replaceZulu text) = some parsed → host.astimezoneUtc parsed = .error e →
        (host.Readable (.str text) ↔ e.isValueError = true) := by
    intro text parsed e hparsed herror
    rw [Host.Readable, optionalUtc_of_error ((parseUtc_of_iso hparsed).trans herror)]
    cases e.isValueError <;> simp
  constructor
  · intro h
    constructor
    · rintro text wall utcOffset rfl hparsed
      by_contra hrange
      have hinstant := ofMicros_eq_error.mpr ⟨rfl, hrange⟩
      exact Bool.false_ne_true ((hraises hparsed hinstant).mp h)
    · rintro text wall e rfl hparsed herror
      exact (hraises hparsed herror).mp h
  · intro h
    cases value with
    | str text =>
        cases hparsed : fromisoformat (replaceZulu text) with
        | none => exact ⟨none, optionalUtc_of_error (parseUtc_of_not_iso hparsed)⟩
        | some parsed =>
            cases hinstant : host.astimezoneUtc parsed with
            | ok t => exact ⟨_, optionalUtc_of_ok ((parseUtc_of_iso hparsed).trans hinstant)⟩
            | error e =>
                refine (hraises hparsed hinstant).mpr ?_
                obtain ⟨wall, utcOffset | utcOffset⟩ := parsed
                · exact h.naive text wall e rfl hparsed hinstant
                · exact absurd (h.zoned text wall utcOffset rfl hparsed)
                    (ofMicros_eq_error.mp hinstant).2
    | _ => exact ⟨none, rfl⟩

theorem readable_of_shows {host : Host} {pair : Option LoaderEvent × LoaderEvent} {c : Commit}
    (h : host.Shows pair c) : host.Readable (dictGet pair.2.fields "last_commit_at_utc") := by
  obtain ⟨text, htext, -⟩ := Result.bind_eq_ok.mp h.atUtc
  exact ⟨text, htext⟩

/-- The summary of the loader raises nowhere: its heartbeat is found, and every time in ISO
format that is read is in the calendar. -/
structure Host.Summarizable (host : Host) (events : List LoaderEvent) : Prop where
  search : host.Searchable events
  commits : ∀ pair ∈ pairedSuccesses [] events,
    host.InCalendar (dictGet pair.2.fields "last_commit_at_utc")
  process : host.InCalendar (dictGet (fieldsOf (currentEvent events)) "process_started_at_utc")
  lastInput : host.InCalendar (dictGet (fieldsOf (currentEvent events)) "last_input_at_utc")
  lastCommit : host.InCalendar (shownCommit events)

/-- Every success of a process is paired. -/
theorem exists_paired_of_succeeds {earlier events : List LoaderEvent} {e : LoaderEvent}
    (he : e ∈ events) (hsucceeds : e.Succeeds) :
    ∃ start, (start, e) ∈ pairedSuccesses earlier events := by
  induction events generalizing earlier with
  | nil => cases he
  | cons x events ih =>
      rcases List.mem_cons.mp he with rfl | he
      · obtain ⟨hevent, process, hprocess⟩ := hsucceeds
        refine ⟨startBefore process earlier, List.mem_append_left _ ?_⟩
        unfold pairOf
        rw [hprocess, hevent]
        exact List.mem_singleton_self _
      · obtain ⟨start, hstart⟩ := @ih (earlier ++ [x]) he
        exact ⟨start, List.mem_append_right _ hstart⟩

theorem sliceFrom_neg {α : Type} (xs : List α) {limit : Int} (h : 1 ≤ limit) :
    sliceFrom xs (-limit) = xs.drop (xs.length - limit.toNat) := by
  unfold sliceFrom
  rw [if_pos (by omega)]
  congr 1
  omega

theorem summarizable_of_loaderSummary {host : Host} {events : List LoaderEvent} {limit : Int}
    {summary : LoaderSummary} (h : host.loaderSummary events limit = .ok summary) :
    host.Summarizable events := by
  obtain ⟨hsearch, h⟩ := loaderSummary_eq_ok.mp h
  obtain ⟨history, hhistory, h⟩ := Result.bind_eq_ok.mp h
  obtain ⟨process, hprocess, h⟩ := Result.bind_eq_ok.mp h
  obtain ⟨input, hinput, h⟩ := Result.bind_eq_ok.mp h
  obtain ⟨commit, hcommit, -⟩ := Result.bind_eq_ok.mp h
  obtain ⟨added, -, hshows⟩ := history_paired (tracks_nil []) hhistory
  refine ⟨hsearch, fun pair hpair => ?_, readable_iff.mp ⟨process, hprocess⟩,
    readable_iff.mp ⟨input, hinput⟩, readable_iff.mp ⟨commit, hcommit⟩⟩
  obtain ⟨c, -, hc⟩ := Result.exists_of_mem_left hshows hpair
  exact readable_iff.mp (readable_of_shows hc)

/-- Readable times make a summary, with the commits of the map. -/
theorem exists_loaderSummary {host : Host} {events : List LoaderEvent}
    (h : host.Summarizable events) (limit : Int) :
    ∃ history summary, events.foldlM host.commitStep ⟨[], []⟩ = .ok history ∧
      host.loaderSummary events limit = .ok summary ∧
      summary.recentCommits = sliceFrom history.commits (-limit) := by
  obtain ⟨process, hprocess⟩ := readable_iff.mpr h.process
  obtain ⟨input, hinput⟩ := readable_iff.mpr h.lastInput
  obtain ⟨commit, hcommit⟩ := readable_iff.mpr h.lastCommit
  obtain ⟨history, hhistory⟩ := history_returns (fun e he hsucceeds =>
    (exists_paired_of_succeeds he hsucceeds).elim fun start hpair =>
      readable_iff.mpr (h.commits (start, e) hpair)) ⟨[], []⟩
  exact ⟨history, _, hhistory, loaderSummary_eq_ok.mpr ⟨h.search, Result.bind_eq_ok.mpr
    ⟨history, hhistory, Result.bind_eq_ok.mpr ⟨process, hprocess, Result.bind_eq_ok.mpr
      ⟨input, hinput, Result.bind_eq_ok.mpr ⟨commit, hcommit, rfl⟩⟩⟩⟩⟩, rfl⟩

/-- The history shown is that of the last pairs, unless a timestamp raises. -/
theorem recentCommits_iff (host : Host) (events : List LoaderEvent) {limit : Int} (hlimit : 1 ≤ limit) :
    (∃ summary, host.loaderSummary events limit = .ok summary ∧
      List.Forall₂ host.Shows
        ((pairedSuccesses [] events).drop ((pairedSuccesses [] events).length - limit.toNat))
        summary.recentCommits) ↔
      host.Summarizable events := by
  constructor
  · rintro ⟨summary, hsummary, -⟩
    exact summarizable_of_loaderSummary hsummary
  · intro h
    obtain ⟨history, summary, hhistory, hsummary, hcommits⟩ := exists_loaderSummary h limit
    obtain ⟨added, hadded, hshows⟩ := history_paired (tracks_nil []) hhistory
    refine ⟨summary, hsummary, ?_⟩
    rw [hcommits, sliceFrom_neg _ hlimit, hadded, List.nil_append, ← hshows.length_eq]
    exact List.forall₂_drop _ hshows

/-! ### Two processes, and a time before the calendar -/

/-- An event of a process with a batch. -/
def batchEvent (event : LoaderEventName) (process : String) (bars : Int) : LoaderEvent :=
  ⟨saturdayNoon, event, [("process_started_at_utc", .str process), ("batch_bars", .int bars)]⟩

/-- Two processes whose commits overlap; that of the second one fails at first. -/
def overlapping : List LoaderEvent :=
  [batchEvent .commitStarted "2026-08-29T10:00:00Z" 3, batchEvent .commitStarted "2026-08-29T11:00:00Z" 5,
    batchEvent .commitSucceeded "2026-08-29T10:00:00Z" 0,
    batchEvent (.failure .icebergCommitFailed) "2026-08-29T11:00:00Z" 0,
    batchEvent .commitSucceeded "2026-08-29T11:00:00Z" 0]

theorem overlapping_summarizable : summerHost.Summarizable overlapping := by
  have hsearch : summerHost.Searchable overlapping := by
    apply searchable_of_nesting
    intro e he
    have hzero : e.process.nesting = 0 := by
      revert e
      decide
    rw [hzero]
    exact Nat.zero_le _
  refine ⟨hsearch, fun pair hpair => ?_, readable_iff.mp ⟨_, rfl⟩,
    summerHost.inCalendar_null, summerHost.inCalendar_null⟩
  have hpairs : pairedSuccesses [] overlapping =
      [(some (batchEvent .commitStarted "2026-08-29T10:00:00Z" 3),
          batchEvent .commitSucceeded "2026-08-29T10:00:00Z" 0),
        (none, batchEvent .commitSucceeded "2026-08-29T11:00:00Z" 0)] := rfl
  rw [hpairs] at hpair
  simp only [List.mem_cons, List.not_mem_nil, or_false] at hpair
  rcases hpair with rfl | rfl
  · exact summerHost.inCalendar_null
  · exact summerHost.inCalendar_null

theorem overlapping_paired : ∃ summary, summerHost.loaderSummary overlapping 48 = .ok summary ∧
    List.Forall₂ summerHost.Shows
      [(some (batchEvent .commitStarted "2026-08-29T10:00:00Z" 3),
          batchEvent .commitSucceeded "2026-08-29T10:00:00Z" 0),
        (none, batchEvent .commitSucceeded "2026-08-29T11:00:00Z" 0)] summary.recentCommits :=
  (recentCommits_iff summerHost overlapping (by decide)).mpr overlapping_summarizable

/-- A success whose commit time is in the year 0 in UTC. -/
def beforeCalendar : LoaderEvent :=
  ⟨saturdayNoon, .commitSucceeded, [("process_started_at_utc", .str "2026-08-29T10:00:00Z"),
    ("last_commit_at_utc", .str "0001-01-01T00:00:00+01:00")]⟩

/-- There is no history with it. -/
theorem beforeCalendar_raises :
    ¬ ∃ summary, summerHost.loaderSummary [beforeCalendar] 48 = .ok summary ∧
      List.Forall₂ summerHost.Shows [(none, beforeCalendar)] summary.recentCommits := by
  have hraises : summerHost.loaderSummary [beforeCalendar] 48 = .error .overflowError := rfl
  rintro ⟨summary, hsummary, -⟩
  rw [hraises] at hsummary
  cases hsummary

end Lakehouse.Dashboard
