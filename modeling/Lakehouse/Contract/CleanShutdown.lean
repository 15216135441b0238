/-
How the dashboard tells how the extractor ended.

The exporter reads the log of the extractor's processes and shows
`clean_shutdown` when the newest metrics event is a `final metrics` event.

* `ExtractorLog` — entries that hold the log of these processes, in order, among
  the entries of other units.
* `clean_shutdown_iff` — what `clean_shutdown` means: the newest process that
  logged metrics exited after the flush.
* `clean_shutdown_sound_iff` — when that implies that the newest process ended
  with `Ok(())`.
* `turnedAway_shown_clean` — a process that ends with a fatal error.
-/

import Lakehouse.Dashboard.BuildSnapshot
import Lakehouse.Extractor.ProcessLog
import Lakehouse.Extractor.Shutdown

namespace Lakehouse.Contract

open Dashboard (Host Utc Reading Readings ExtractorEvent Snapshot DashboardSettings Inputs
  EXTRACTOR_UNIT dictGet dictGetOr isText extractorSummary)
open Extractor (ExtractorProcess Line currentFinal)

/-- A line with the time the log gives it. -/
structure StampedLine (host : Host) where
  line : Line
  stamp : String
  at_ : Utc
  parsed : host.parseUtc stamp = .ok at_

/-- The log entry of a line. -/
def StampedLine.entry {host : Host} (l : StampedLine host) : Json :=
  .obj [("timestamp", .str l.stamp),
    ("jsonPayload", .obj (("_SYSTEMD_UNIT", .str EXTRACTOR_UNIT) ::
      ("fields", .obj (("message", .str l.line.message) :: l.line.fields)) :: l.line.payload))]

/-- Whether an entry is of the extractor's unit. -/
def isExtractorEntry (entry : Json) : Bool :=
  match entry with
  | .obj d =>
      match dictGetOr d "jsonPayload" (.obj []) with
      | .obj payload => isText (dictGet payload "_SYSTEMD_UNIT") EXTRACTOR_UNIT
      | _ => false
  | _ => false

/-- The extractor's entries are the lines of the processes, in order of time. -/
def ExtractorLog (host : Host) (processes : List ExtractorProcess) (entries : List Json) : Prop :=
  ∃ lines : List (StampedLine host), lines.map StampedLine.line = processes.flatMap (·.log) ∧
    lines.Pairwise (fun a b => a.at_.micros ≤ b.at_.micros) ∧
    entries.filter isExtractorEntry = lines.map StampedLine.entry

/-- The newest process that has logged metrics. -/
def NewestMetered (processes : List ExtractorProcess) (p : ExtractorProcess) : Prop :=
  ∃ before after, processes = before ++ p :: after ∧ p.metered ≠ [] ∧ ∀ q ∈ after, q.metered = []

/-! ### From entries to lines -/

section Reading

variable {host : Host} {now : Utc}

/-- The event a line is read as. -/
structure ReadsLine (e : ExtractorEvent) (l : StampedLine host) : Prop where
  at_ : e.at_ = l.at_
  message : e.message = l.line.message
  snapshot : host.loadSnapshot (dictGet (("message", .str l.line.message) :: l.line.fields)
    "snapshot") = .ok e.snapshot

theorem readEntry_line {l : StampedLine host} {reading : Reading}
    (h : host.readEntry now l.entry = .ok reading) :
    ∃ e, reading.extractor = some e ∧ ReadsLine e l := by
  have hstamp : host.parseUtcValue (.str l.stamp) = .ok l.at_ := l.parsed
  obtain ⟨payload, hpayload, h⟩ := Result.bind_eq_ok.mp h
  obtain rfl : _ = payload := Except.ok.inj hpayload
  obtain ⟨stamp, hvalue, h⟩ := Result.bind_eq_ok.mp h
  obtain rfl : .str l.stamp = stamp := Except.ok.inj hvalue
  obtain ⟨at_, hat, h⟩ := Result.bind_eq_ok.mp h
  rw [hstamp] at hat
  cases hat
  rw [if_pos (by rfl)] at h
  obtain ⟨event, hevent, h⟩ := Result.bind_eq_ok.mp h
  obtain ⟨alert, _, h⟩ := Result.bind_eq_ok.mp h
  cases Result.pure_eq_ok.mp h
  obtain ⟨snapshot, hsnapshot, hevent⟩ := Result.bind_eq_ok.mp hevent
  cases Result.pure_eq_ok.mp hevent
  exact ⟨_, rfl, rfl, rfl, hsnapshot⟩

theorem readEntry_other {entry : Json} {reading : Reading}
    (h : host.readEntry now entry = .ok reading) (hnot : isExtractorEntry entry = false) :
    reading.extractor = none := by
  cases entry with
  | obj d =>
      obtain ⟨payload, hpayload, h⟩ := Result.bind_eq_ok.mp h
      simp only [isExtractorEntry] at hnot
      obtain rfl : _ = payload := Except.ok.inj hpayload
      cases hfields : dictGetOr d "jsonPayload" (.obj []) with
      | obj payload =>
          rw [hfields] at h hnot
          dsimp only at hnot
          obtain ⟨stamp, _, h⟩ := Result.bind_eq_ok.mp h
          obtain ⟨at_, _, h⟩ := Result.bind_eq_ok.mp h
          rw [hnot, if_neg (by simp)] at h
          split at h
          · obtain ⟨event, _, h⟩ := Result.bind_eq_ok.mp h
            cases Result.pure_eq_ok.mp h
            rfl
          · cases Result.pure_eq_ok.mp h
            rfl
      | _ =>
          rw [hfields] at h
          cases h
  | _ =>
      obtain ⟨payload, hpayload, _⟩ := Result.bind_eq_ok.mp h
      cases hpayload

/-- The extractor events of a log are its lines. -/
theorem events_of_lines {entries : List Json} {readings : List Reading}
    {lines : List (StampedLine host)}
    (h : List.Forall₂ (fun entry reading => host.readEntry now entry = .ok reading) entries readings)
    (hlines : entries.filter isExtractorEntry = lines.map StampedLine.entry) :
    List.Forall₂ ReadsLine (readings.filterMap Reading.extractor) lines := by
  induction h generalizing lines with
  | nil =>
      obtain rfl : lines = [] := by simpa using hlines.symm
      exact .nil
  | @cons entry reading entries readings hentry _ ih =>
      cases hunit : isExtractorEntry entry with
      | false =>
          rw [List.filter_cons_of_neg (by simp [hunit])] at hlines
          rw [List.filterMap_cons_none (readEntry_other hentry hunit)]
          exact ih hlines
      | true =>
          rw [List.filter_cons_of_pos hunit] at hlines
          cases lines with
          | nil => simp at hlines
          | cons l lines =>
              obtain ⟨rfl, hrest⟩ := List.cons.inj hlines
              obtain ⟨e, he, hline⟩ := readEntry_line hentry
              rw [List.filterMap_cons_some he]
              exact .cons hline (ih hrest)

/-- Events that are read in order of time are not moved by the sort. -/
theorem sorted_of_lines {events : List ExtractorEvent} {lines : List (StampedLine host)}
    (h : List.Forall₂ ReadsLine events lines)
    (hordered : lines.Pairwise fun a b => a.at_.micros ≤ b.at_.micros) :
    events.insertionSort ExtractorEvent.Le = events := by
  have htimes : events.map (fun e => e.at_.micros) = lines.map fun l => l.at_.micros := by
    rw [← List.forall₂_eq_eq_eq, List.forall₂_map_left_iff, List.forall₂_map_right_iff]
    exact h.imp fun _ _ hl => congrArg Utc.micros hl.at_
  have hpairwise : (events.map fun e => e.at_.micros).Pairwise (· ≤ ·) := by
    rw [htimes]
    exact List.pairwise_map.mpr hordered
  have hsorted := List.pairwise_map.mp hpairwise
  exact List.Pairwise.insertionSort_eq (r := ExtractorEvent.Le) hsorted

end Reading

/-! ### From lines to the status -/

/-- Whether the newest metrics message is the final one. -/
def endsFinal (messages : List String) : Bool :=
  (messages.filter fun m => m == "metrics" || m == "final metrics").getLast? == some "final metrics"

theorem filter_isSome_eq {α : Type} (f : α → String) (l : List α) :
    ((l.filter fun x => f x == "metrics" || f x == "final metrics").getLast?.filter
      fun x => f x == "final metrics").isSome = endsFinal (l.map f) := by
  unfold endsFinal
  rw [List.filter_map, List.getLast?_map]
  change _ = (Option.map f (l.filter fun x => f x == "metrics" || f x == "final metrics").getLast? ==
    some "final metrics")
  cases (l.filter fun x => f x == "metrics" || f x == "final metrics").getLast? with
  | none => rfl
  | some x => cases h : f x == "final metrics" <;> simp_all

theorem status_eq_cleanShutdown_iff (events : List ExtractorEvent) :
    (extractorSummary events).status = .cleanShutdown ↔
      endsFinal (events.map ExtractorEvent.message) = true := by
  rw [← filter_isSome_eq]
  change (if ((events.filter ExtractorEvent.isMetrics).getLast?.filter
    ExtractorEvent.isFinal).isSome then _ else _) = _ ↔ ((events.filter
      ExtractorEvent.isMetrics).getLast?.filter ExtractorEvent.isFinal).isSome = true
  cases ((events.filter ExtractorEvent.isMetrics).getLast?.filter ExtractorEvent.isFinal).isSome with
  | true => simp
  | false =>
      simp only [Bool.false_eq_true, if_false, iff_false]
      split <;> simp

theorem currentFinal_isSome (log : List Line) :
    (currentFinal log).isSome = endsFinal (log.map Line.message) :=
  filter_isSome_eq Line.message log

theorem getLast?_flatMap_eq_some {α β : Type} {f : α → List β} {l : List α} {x : β} :
    (l.flatMap f).getLast? = some x ↔
      ∃ before a after, l = before ++ a :: after ∧ (f a).getLast? = some x ∧
        ∀ b ∈ after, f b = [] := by
  induction l with
  | nil => simp
  | cons a l ih =>
      rw [List.flatMap_cons, List.getLast?_append, Option.or_eq_some_iff, ih,
        List.getLast?_eq_none_iff, List.flatMap_eq_nil_iff]
      constructor
      · rintro (⟨before, b, after, rfl, hb, hafter⟩ | ⟨hnil, hlast⟩)
        · exact ⟨a :: before, b, after, rfl, hb, hafter⟩
        · exact ⟨[], a, l, rfl, hlast, hnil⟩
      · rintro ⟨before, b, after, heq, hb, hafter⟩
        cases before with
        | nil =>
            obtain ⟨rfl, rfl⟩ := List.cons.inj heq
            exact .inr ⟨hafter, hb⟩
        | cons c before =>
            obtain ⟨rfl, rfl⟩ := List.cons.inj heq
            exact .inl ⟨before, b, after, rfl, hb, hafter⟩

/-- The newest metrics line of a log is the one of the newest process that has any. -/
theorem currentFinal_flatMap_isSome (processes : List ExtractorProcess) :
    (currentFinal (processes.flatMap (·.log))).isSome ↔
      ∃ p, NewestMetered processes p ∧ p.world.Reported := by
  have hsome : ∀ log, (currentFinal log).isSome ↔
      ∃ line, (log.filter Line.isMetered).getLast? = some line ∧ line.isFinal = true := by
    intro log
    unfold currentFinal
    cases (log.filter Line.isMetered).getLast? with
    | none => simp
    | some line => cases hfinal : line.isFinal <;> simp [hfinal]
  rw [hsome, List.filter_flatMap]
  simp only [getLast?_flatMap_eq_some]
  constructor
  · rintro ⟨line, ⟨before, p, after, hsplit, hlast, hafter⟩, hfinal⟩
    have hne : p.metered ≠ [] := by
      intro hnil
      rw [ExtractorProcess.metered] at hnil
      simp [hnil] at hlast
    exact ⟨p, ⟨before, after, hsplit, hne, hafter⟩,
      (Extractor.newest_metered_isFinal p).mp ((hsome p.log).mpr ⟨line, hlast, hfinal⟩)⟩
  · rintro ⟨p, ⟨before, after, hsplit, _, hafter⟩, hreported⟩
    obtain ⟨line, hlast, hfinal⟩ :=
      (hsome p.log).mp ((Extractor.newest_metered_isFinal p).mpr hreported)
    exact ⟨line, ⟨before, p, after, hsplit, hlast, hafter⟩, hfinal⟩

/-! ### From the status to the processes -/

section Document

variable {host : Host} {entries : List Json} {settings : DashboardSettings} {now : Utc}
  {inputs : Inputs} {doc : Snapshot}

/-- The document's extractor section is the summary of the lines' events. -/
theorem extractor_of_lines {processes : List ExtractorProcess}
    (hlog : ExtractorLog host processes entries)
    (hdoc : host.buildSnapshot entries settings now inputs = .ok doc) :
    ∃ (lines : List (StampedLine host)) (events : List ExtractorEvent),
      lines.map StampedLine.line = processes.flatMap (·.log) ∧ List.Forall₂ ReadsLine events lines ∧
      doc.extractor = extractorSummary events := by
  obtain ⟨lines, hprocesses, hordered, hentries⟩ := hlog
  obtain ⟨_, _, readings, _, _, _, _, _, hread, _, _, _, _, rfl⟩ :=
    Dashboard.buildSnapshot_eq_ok.mp hdoc
  obtain ⟨rs, hrs, hreadings⟩ := Result.bind_eq_ok.mp hread
  cases Result.pure_eq_ok.mp hreadings
  have hevents := events_of_lines (Result.mapM_eq_ok.mp hrs) hentries
  have hsorted : (Readings.of rs).sorted.extractorEvents = rs.filterMap Reading.extractor :=
    sorted_of_lines hevents hordered
  exact ⟨lines, _, hprocesses, hevents, congrArg extractorSummary hsorted⟩

/-- The document shows `clean_shutdown` exactly when the newest process that logged
metrics exited after the flush. -/
theorem clean_shutdown_iff {processes : List ExtractorProcess}
    (hlog : ExtractorLog host processes entries)
    (hdoc : host.buildSnapshot entries settings now inputs = .ok doc) :
    doc.extractor.status = .cleanShutdown ↔
      ∃ p, NewestMetered processes p ∧ p.world.Reported := by
  obtain ⟨lines, events, hprocesses, hevents, hsummary⟩ := extractor_of_lines hlog hdoc
  have hmessages : events.map ExtractorEvent.message =
      (processes.flatMap (·.log)).map Line.message := by
    rw [← hprocesses, List.map_map, ← List.forall₂_eq_eq_eq, List.forall₂_map_left_iff,
      List.forall₂_map_right_iff]
    exact hevents.imp fun _ _ h => h.message
  rw [hsummary, status_eq_cleanShutdown_iff, hmessages, ← currentFinal_isSome,
    currentFinal_flatMap_isSome]

/-- `clean_shutdown` implies that the newest process ended with `Ok(())` exactly when
that process did, or the newest process that logged metrics did not exit after the
flush. -/
theorem clean_shutdown_sound_iff {processes : List ExtractorProcess} {newest : ExtractorProcess}
    (hlog : ExtractorLog host (processes ++ [newest]) entries)
    (hdoc : host.buildSnapshot entries settings now inputs = .ok doc) :
    (doc.extractor.status = .cleanShutdown → newest.ReturnedOk) ↔
      (newest.ReturnedOk ∨
        ∀ p, NewestMetered (processes ++ [newest]) p → ¬ p.world.Reported) := by
  rw [clean_shutdown_iff hlog hdoc]
  constructor
  · intro hsound
    by_cases hok : newest.ReturnedOk
    · exact .inl hok
    · exact .inr fun p hp hreported => hok (hsound ⟨p, hp, hreported⟩)
  · rintro (hok | hnot) ⟨p, hp, hreported⟩
    · exact hok
    · exact absurd hreported (hnot p hp)

end Document

/-! ### A process the server turns away -/

/-- The server answers the handshake with an error frame; `main` tears down. -/
def turnedAwayRun : List Extractor.Action :=
  [.startAttempt, .setup (.error (.fatal "server error 402: auth failed")), .endAttempt,
   .teardown (.ok ()), .teardown (.ok ()), .teardown (.ok ()), .emitterStop,
   .prodPollShutdown, .prodPollShutdown, .teardown (.ok ()), .teardown (.ok ())]

def finalLine : Line := ⟨"final metrics", [("snapshot", .str "\x7b\x7d")], [("level", .str "INFO")]⟩

theorem turnedAway_logged : ∃ p : ExtractorProcess, p.log = [finalLine] ∧
    p.world.ws.pc = .done (.error (.fatal "server error 402: auth failed")) := by
  obtain ⟨w, w', hrun, hmain, hstep, hexited, hdone⟩ : ∃ w w',
      (Extractor.system Extractor.sampleConfig).run (Extractor.World.new Extractor.sampleConfig)
        turnedAwayRun = some w ∧
      w.main = .reporting (.error (.fatal "server error 402: auth failed")) ∧
      Extractor.step Extractor.sampleConfig w (.teardown (.ok ())) = some w' ∧
      w'.main = .exited (.ok (.error (.fatal "server error 402: auth failed"))) ∧
      w'.ws.pc = .done (.error (.fatal "server error 402: auth failed")) :=
    ⟨_, _, rfl, rfl, rfl, rfl, rfl⟩
  have hlogged := Extractor.LoggedRun.start.run hrun (by simp [hmain])
  exact ⟨⟨_, w', _, hlogged.final finalLine hstep hmain hexited rfl⟩, rfl, hdone⟩

def finalStamped : StampedLine Dashboard.summerHost :=
  ⟨finalLine, "2026-08-29T11:59:00Z", Dashboard.minuteToNoon, Dashboard.parseUtc_minuteToNoon⟩

def finalReadings : Readings :=
  ⟨[⟨Dashboard.minuteToNoon, "final metrics", [], .null⟩], [], []⟩

theorem finalStamped_document : ∃ doc,
    Dashboard.summerHost.buildSnapshot [finalStamped.entry] (.default "p") Dashboard.saturdayNoon
      .none = .ok doc ∧ doc.extractor.status = .cleanShutdown := by
  have hread : Dashboard.summerHost.readEntries Dashboard.saturdayNoon [finalStamped.entry] =
      .ok finalReadings := rfl
  have hmarket : ∃ nextOpen, Dashboard.summerHost.marketState Dashboard.saturdayNoon =
      .ok (.weekend, nextOpen) := ⟨_, rfl⟩
  have hsummary : ∃ loader, Dashboard.summerHost.loaderSummary finalReadings.sorted.loaderEvents 48 =
      .ok loader ∧ loader.latestHeartbeatUtc = none := ⟨_, rfl, rfl⟩
  have hstatus : (extractorSummary finalReadings.sorted.extractorEvents).status = .cleanShutdown := rfl
  obtain ⟨nextOpen, hmarket⟩ := hmarket
  obtain ⟨loader, hloader, hbeat⟩ := hsummary
  have hhealth : ∃ health, Dashboard.summerHost.health .weekend Dashboard.saturdayNoon
      (extractorSummary finalReadings.sorted.extractorEvents) loader finalReadings.sorted.alerts
      (.default "p") = .ok health := by
    unfold Host.health
    rw [hbeat]
    exact ⟨_, rfl⟩
  obtain ⟨health, hhealth⟩ := hhealth
  exact ⟨_, Dashboard.buildSnapshot_eq_ok.mpr ⟨_, nextOpen, finalReadings, loader, _, _, health,
    hmarket, hread, hloader, rfl, rfl, hhealth, rfl⟩, hstatus⟩

theorem finalStamped_log {p : ExtractorProcess} (hp : p.log = [finalLine]) :
    ExtractorLog Dashboard.summerHost ([] ++ [p]) [finalStamped.entry] :=
  ⟨[finalStamped], by simp [hp, finalStamped], List.pairwise_singleton _ _, rfl⟩

/-- A process that ended with a fatal error is shown as a clean shutdown. -/
theorem turnedAway_shown_clean : ∃ (p : ExtractorProcess) (doc : Snapshot),
    ExtractorLog Dashboard.summerHost ([] ++ [p]) [finalStamped.entry] ∧
    Dashboard.summerHost.buildSnapshot [finalStamped.entry] (.default "p") Dashboard.saturdayNoon
      .none = .ok doc ∧
    p.world.ws.pc = .done (.error (.fatal "server error 402: auth failed")) ∧
    doc.extractor.status = .cleanShutdown := by
  obtain ⟨p, hp, hfatal⟩ := turnedAway_logged
  obtain ⟨doc, hdoc, hstatus⟩ := finalStamped_document
  exact ⟨p, doc, finalStamped_log hp, hdoc, hfatal, hstatus⟩

/-- A process that a signal ends while a frame is handed over, up to its last step. -/
def signalledRun : List Extractor.Action :=
  Extractor.frameInForward ++ Extractor.forwardFirst.dropLast

theorem signalled_logged : ∃ p : ExtractorProcess, p.log = [finalLine] ∧ p.ReturnedOk := by
  obtain ⟨w, w', hrun, hmain, hstep, hexited, hdone⟩ : ∃ w w',
      (Extractor.system Extractor.sampleConfig).run (Extractor.World.new Extractor.sampleConfig)
        signalledRun = some w ∧ w.main = .reporting (.ok ()) ∧
      Extractor.step Extractor.sampleConfig w (.teardown (.ok ())) = some w' ∧
      w'.main = .exited (.ok (.ok ())) ∧ w'.ws.pc = .done (.ok ()) :=
    ⟨_, _, rfl, rfl, rfl, rfl, rfl⟩
  have hlogged := Extractor.LoggedRun.start.run hrun (by simp [hmain])
  exact ⟨⟨_, w', _, hlogged.final finalLine hstep hmain hexited rfl⟩, rfl, hdone⟩

/-- A process that ended with `Ok(())` is shown as a clean shutdown, and rightly. -/
theorem signalled_sound : ∃ (p : ExtractorProcess) (doc : Snapshot),
    Dashboard.summerHost.buildSnapshot [finalStamped.entry] (.default "p") Dashboard.saturdayNoon
      .none = .ok doc ∧
    doc.extractor.status = .cleanShutdown ∧
    (doc.extractor.status = .cleanShutdown → p.ReturnedOk) ∧ p.ReturnedOk := by
  obtain ⟨p, hp, hok⟩ := signalled_logged
  obtain ⟨doc, hdoc, hstatus⟩ := finalStamped_document
  have hsound := (clean_shutdown_sound_iff (finalStamped_log hp) hdoc).mpr (.inl hok)
  exact ⟨p, doc, hdoc, hstatus, hsound, hok⟩

end Lakehouse.Contract
