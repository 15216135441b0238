/-
Which heartbeat the summary of the loader shows, and when it is found.

The process id of an event may be any JSON value, and `==` raises where two ids
share more nesting than it goes down. `Host.Searchable` says of which heartbeats
that matters: those the search looks at before it finds one. With it,
`shownHeartbeat` says which one is found (`latestHeartbeat_eq_ok`).
-/

import Lakehouse.Dashboard.Returns
import Lakehouse.Dashboard.Summaries

namespace Lakehouse.Dashboard

def LoaderEvent.isHeartbeatOf (process : Json) (e : LoaderEvent) : Bool :=
  e.event == .heartbeat && equal e.process process

/-- The newest heartbeat of the process of the newest event. -/
def shownHeartbeat (events : List LoaderEvent) : Option LoaderEvent :=
  let latestProcess := (events.getLast?.map LoaderEvent.process).getD .null
  findLast (LoaderEvent.isHeartbeatOf latestProcess) events

/-- The event whose fields are shown. -/
def currentEvent (events : List LoaderEvent) : Option LoaderEvent :=
  (shownHeartbeat events).or events.getLast?

/-- Newest first: `==` returns for every heartbeat with none of the process before it. -/
def Host.SearchableFor (host : Host) (process : Json) (events : List LoaderEvent) : Prop :=
  ∀ newer e older, events = newer ++ e :: older → e.event = .heartbeat →
    (∀ x ∈ newer, x.isHeartbeatOf process = false) →
      Returns (equalWithin e.process process host.eqDepth)

/-- The process of the newest event is compared with the ones before it, unless the newest
event is a heartbeat itself. -/
def Host.Searchable (host : Host) (events : List LoaderEvent) : Prop :=
  ∀ latest older, events.reverse = latest :: older →
    latest.isHeartbeatOf latest.process = false → host.SearchableFor latest.process older

section

variable {host : Host} {process : Json} {events : List LoaderEvent}

theorem searchableFor_nil : host.SearchableFor process [] := by
  intro newer e older hsplit
  simp at hsplit

theorem searchableFor_cons {e : LoaderEvent} :
    host.SearchableFor process (e :: events) ↔
      (e.event = .heartbeat → Returns (equalWithin e.process process host.eqDepth)) ∧
        (e.isHeartbeatOf process = false → host.SearchableFor process events) := by
  constructor
  · intro h
    refine ⟨fun hbeat => h [] e events rfl hbeat (by simp), ?_⟩
    rintro hother newer x older rfl hbeat hnewer
    exact h (e :: newer) x older rfl hbeat (List.forall_mem_cons.mpr ⟨hother, hnewer⟩)
  · rintro ⟨hfirst, hrest⟩ newer x older hsplit hbeat hnewer
    cases newer with
    | nil =>
        obtain ⟨rfl, -⟩ := List.cons.inj hsplit
        exact hfirst hbeat
    | cons y newer =>
        obtain ⟨rfl, rfl⟩ := List.cons.inj hsplit
        obtain ⟨hother, hnewer⟩ := List.forall_mem_cons.mp hnewer
        exact hrest hother newer x older rfl hbeat hnewer

theorem findHeartbeat_eq_ok {found : Option LoaderEvent} :
    host.findHeartbeat process events = .ok found ↔
      host.SearchableFor process events ∧
        found = events.find? (LoaderEvent.isHeartbeatOf process) := by
  induction events generalizing found with
  | nil =>
      simp only [Host.findHeartbeat, searchableFor_nil, true_and, List.find?_nil]
      exact ⟨fun h => (Except.ok.inj h).symm, fun h => congrArg _ h.symm⟩
  | cons e events ih =>
      rw [searchableFor_cons, Host.findHeartbeat, List.find?_cons]
      by_cases hbeat : e.event = .heartbeat
      · rw [if_pos hbeat, Result.bind_eq_ok]
        have hvalue : ∀ {same : Bool}, equalWithin e.process process host.eqDepth = .ok same →
            e.isHeartbeatOf process = same := by
          intro same hsame
          rw [LoaderEvent.isHeartbeatOf, hbeat, equal_of_within _ _ hsame, beq_self_eq_true,
            Bool.true_and]
        constructor
        · rintro ⟨same, hsame, h⟩
          rw [hvalue hsame]
          cases same with
          | true => exact ⟨⟨fun _ => ⟨true, hsame⟩, nofun⟩, (Except.ok.inj h).symm⟩
          | false =>
              obtain ⟨hrest, hfound⟩ := ih.mp h
              exact ⟨⟨fun _ => ⟨false, hsame⟩, fun _ => hrest⟩, hfound⟩
        · rintro ⟨⟨hfirst, hrest⟩, hfound⟩
          obtain ⟨same, hsame⟩ := hfirst hbeat
          refine ⟨same, hsame, ?_⟩
          rw [hvalue hsame] at hrest hfound
          cases same with
          | true => exact congrArg _ hfound.symm
          | false => exact ih.mpr ⟨hrest rfl, hfound⟩
      · have hother : e.isHeartbeatOf process = false := by
          rw [LoaderEvent.isHeartbeatOf, beq_eq_false_iff_ne.mpr hbeat, Bool.false_and]
        rw [if_neg hbeat, ih, hother]
        simp only [hbeat, false_imp_iff, true_and, forall_const]

/-- The search returns when the process ids can be compared, and finds the heartbeat shown. -/
theorem latestHeartbeat_eq_ok {found : Option LoaderEvent} :
    host.latestHeartbeat events = .ok found ↔
      host.Searchable events ∧ found = shownHeartbeat events := by
  unfold Host.latestHeartbeat Host.Searchable shownHeartbeat findLast
  rw [← List.head?_reverse]
  cases events.reverse with
  | nil =>
      simp only [List.find?_nil, reduceCtorEq, false_imp_iff, implies_true, true_and]
      exact ⟨fun h => (Except.ok.inj h).symm, fun h => congrArg _ h.symm⟩
  | cons latest older =>
      have hprocess : ((latest :: older).head?.map LoaderEvent.process).getD .null =
          latest.process := rfl
      have hsearch : (∀ newest rest, latest :: older = newest :: rest →
          newest.isHeartbeatOf newest.process = false → host.SearchableFor newest.process rest) ↔
          (latest.isHeartbeatOf latest.process = false →
            host.SearchableFor latest.process older) := by
        constructor
        · exact fun h => h latest older rfl
        · rintro h newest rest hsplit
          obtain ⟨rfl, rfl⟩ := List.cons.inj hsplit
          exact h
      have hown : (latest.event = .heartbeat ∧ equal latest.process latest.process = true) ↔
          latest.isHeartbeatOf latest.process = true := by
        rw [LoaderEvent.isHeartbeatOf, Bool.and_eq_true, beq_iff_eq]
      rw [hprocess, hsearch, List.find?_cons]
      dsimp only
      simp only [hown]
      cases latest.isHeartbeatOf latest.process with
      | true =>
          simp only [if_true, reduceCtorEq, false_imp_iff, true_and]
          exact ⟨fun h => (Except.ok.inj h).symm, fun h => congrArg _ h.symm⟩
      | false =>
          simp only [Bool.false_eq_true, if_false, forall_const]
          exact findHeartbeat_eq_ok

/-- Process ids that nest no deeper than `==` goes can be compared. -/
theorem searchable_of_nesting (h : ∀ e ∈ events, e.process.nesting ≤ host.eqDepth) :
    host.Searchable events := by
  intro latest older hsplit _ newer e rest _ _ _
  have hmem : latest ∈ events := List.mem_reverse.mp (hsplit ▸ List.mem_cons_self)
  exact equalWithin_returns _ _ (h latest hmem)

/-- The summary is made when the heartbeat is found, with the heartbeat shown. -/
theorem loaderSummary_eq_ok {limit : Int} {summary : LoaderSummary} :
    host.loaderSummary events limit = .ok summary ↔
      host.Searchable events ∧
        host.loaderSummaryOf (shownHeartbeat events) events limit = .ok summary := by
  rw [Host.loaderSummary, Result.bind_eq_ok]
  constructor
  · rintro ⟨found, hfound, h⟩
    obtain ⟨hsearch, rfl⟩ := latestHeartbeat_eq_ok.mp hfound
    exact ⟨hsearch, h⟩
  · rintro ⟨hsearch, h⟩
    exact ⟨_, latestHeartbeat_eq_ok.mpr ⟨hsearch, rfl⟩, h⟩

/-! ### What the summary shows -/

/-- The text of the newest commit: of the newest success, or else of the event shown. -/
def shownCommit (events : List LoaderEvent) : Json :=
  orElse (dictGet (fieldsOf (latestSuccess events)) "last_commit_at_utc")
    (dictGet (fieldsOf (currentEvent events)) "last_commit_at_utc")

/-- What the health rules look at. -/
theorem loaderSummary_shows {limit : Int} {loader : LoaderSummary}
    (h : host.loaderSummary events limit = .ok loader) :
    loader.state = textOf (dictGet (fieldsOf (currentEvent events)) "state") ∧
      loader.latestHeartbeatUtc = (shownHeartbeat events).map (fun e => .of e.at_) ∧
      host.optionalUtc (shownCommit events) = .ok loader.lastCommitUtc := by
  obtain ⟨-, h⟩ := loaderSummary_eq_ok.mp h
  obtain ⟨history, -, h⟩ := Result.bind_eq_ok.mp h
  obtain ⟨process, -, h⟩ := Result.bind_eq_ok.mp h
  obtain ⟨input, -, h⟩ := Result.bind_eq_ok.mp h
  obtain ⟨commit, hcommit, h⟩ := Result.bind_eq_ok.mp h
  cases h
  exact ⟨rfl, rfl, hcommit⟩

theorem currentEvent_mem {e : LoaderEvent} (h : e ∈ currentEvent events) : e ∈ events := by
  rcases Option.or_eq_some_iff.mp h with h | ⟨_, h⟩
  · exact findLast_mem h
  · exact List.mem_of_getLast? h

/-- Events with readable timestamps and a heartbeat that is found have a summary. -/
theorem loaderSummary_returns (hsearch : host.Searchable events)
    (h : ∀ e ∈ events, e.Readable host) (limit : Int) :
    ∃ summary, host.loaderSummary events limit = .ok summary := by
  obtain ⟨history, hhistory⟩ := history_returns (fun e he _ => (h e he).lastCommit) ⟨[], []⟩
  obtain ⟨process, hprocess⟩ : host.Readable
      (dictGet (fieldsOf (currentEvent events)) "process_started_at_utc") :=
    dictGet_fieldsOf host.readable_null (fun _ => currentEvent_mem) fun e he => (h e he).process
  obtain ⟨input, hinput⟩ : host.Readable
      (dictGet (fieldsOf (currentEvent events)) "last_input_at_utc") :=
    dictGet_fieldsOf host.readable_null (fun _ => currentEvent_mem) fun e he => (h e he).lastInput
  obtain ⟨commit, hcommit⟩ : host.Readable (shownCommit events) := by
    unfold shownCommit orElse
    split
    · exact dictGet_fieldsOf host.readable_null (fun _ => findLast_mem) fun e he =>
        (h e he).lastCommit
    · exact dictGet_fieldsOf host.readable_null (fun _ => currentEvent_mem) fun e he =>
        (h e he).lastCommit
  exact ⟨_, loaderSummary_eq_ok.mpr ⟨hsearch, Result.bind_eq_ok.mpr ⟨history, hhistory,
    Result.bind_eq_ok.mpr ⟨process, hprocess, Result.bind_eq_ok.mpr ⟨input, hinput,
      Result.bind_eq_ok.mpr ⟨commit, hcommit, rfl⟩⟩⟩⟩⟩⟩

end

end Lakehouse.Dashboard
