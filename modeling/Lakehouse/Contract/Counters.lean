/-
The extractor's counters on the dashboard.

A metrics line carries the counters as JSON text, which the exporter reads and
shows.

* `ShowsMetrics` — the document shows counters, modulo 2^64, and a bar time that
  `parse_utc` reads back.
* `shown_counters` — they are those of a state the newest process that logged
  metrics was in.
* `clean_counters` — a document with `clean_shutdown` accounts for every frame that
  process has read.
-/

import Lakehouse.Contract.CleanShutdown
import Lakehouse.Contract.InstantText
import Lakehouse.Dashboard.SnapshotReturns
import Lakehouse.Extractor.MetricsSnapshot

namespace Lakehouse.Contract

open Calendar (Date padded)
open Dashboard (Host Utc ExtractorEvent ExtractorSummary Snapshot DashboardSettings Inputs IsoFields
  Readings dictGet dictGetOr extractorSummary integer)
open Extractor (Config ExtractorProcess Line LoggedAt MeteredRun Passed Sample Shows World iso
  snapshotLine snapshotText u64)
open Loader (Instant)

/-! ### Times -/

section Times

theorem parseUtc_offset {f : IsoFields} (hf : f.Fits) (host : Host) :
    host.parseUtc (String.ofList (f.body ++ "+00:00".toList)) =
      host.parseUtc (String.ofList (f.body ++ ['Z'])) := by
  have hbody : f.body.flatMap (fun c => if c = 'Z' then "+00:00".toList else [c]) = f.body :=
    Dashboard.flatMap_eq_self fun c hc => if_neg (Dashboard.plain_body hf hc).ne_Z
  have hsame : Dashboard.replaceZulu (String.ofList (f.body ++ "+00:00".toList)) =
      String.ofList (f.body ++ "+00:00".toList) := by
    unfold Dashboard.replaceZulu
    simp only [String.toList_ofList, List.flatMap_append, hbody]
    rfl
  unfold Host.parseUtc
  rw [hsame, Dashboard.replaceZulu_body hf]

/-- The fraction of a time in milliseconds. -/
theorem fractionText_millis (ms : Int) : (instantFields (ms * 1000000)).fractionText =
    if (ms % 1000).toNat = 0 then [] else '.' :: padded 3 (ms % 1000).toNat := by
  have hnanos : (ms * 1000000 % 1000000000).toNat = (ms % 1000).toNat * 1000000 := by omega
  have hdigits : (instantFields (ms * 1000000)).fraction =
      fractionDigits ((ms % 1000).toNat * 1000000) := by rw [← hnanos]; rfl
  rw [IsoFields.fractionText, hdigits, fractionDigits]
  by_cases hzero : (ms % 1000).toNat = 0
  · rw [hzero]
    rfl
  · have hpadded : padded 3 (ms % 1000).toNat ≠ [] := by
      intro hnil
      have := congrArg List.length hnil
      rw [Calendar.length_padded (by decide) (by omega)] at this
      cases this
    rw [if_neg (show ¬ (ms % 1000).toNat * 1000000 = 0 by omega), Nat.mul_mod_left, if_pos rfl,
      Nat.mul_div_cancel _ (by decide), if_neg hpadded, if_neg hzero]

/-- `to_rfc3339` in the years 0 to 9999 is the text of the instant, with an offset. -/
theorem toRfc3339_eq {ms : Int} (hyear : 0 ≤ (Date.ofDays (ms / 1000 / 86400)).year ∧
    (Date.ofDays (ms / 1000 / 86400)).year ≤ 9999) :
    Extractor.toRfc3339 ms =
      String.ofList ((instantFields (ms * 1000000)).body ++ "+00:00".toList) := by
  have hseconds : ms * 1000000 / 1000000000 = ms / 1000 := by omega
  have hyearText : Extractor.yearText (Date.ofDays (ms / 1000 / 86400)).year =
      padded 4 (Date.ofDays (ms / 1000 / 86400)).year.natAbs := by
    rw [Extractor.yearText, if_neg (by omega), if_neg (by omega)]
  simp only [Extractor.toRfc3339, hyearText, ← fractionText_millis]
  simp [instantFields, IsoFields.body, IsoFields.dateText, IsoFields.clockText, hseconds]

/-- A bar time is read back. -/
theorem parseUtc_iso (host : Host) {ms : Int} (hms : ms ≠ 0) {u : Utc} (hu : u.micros = ms * 1000) :
    host.parseUtcValue (iso ms) = .ok u := by
  have hof : utcOf? (ms * 1000000) = some u := by
    have hmicros : ms * 1000000 / 1000 = u.micros := by omega
    rw [utcOf?, hmicros, Utc.of?, dif_pos u.inRange]
  have hseconds : ms * 1000000 / 1000000000 = ms / 1000 := by omega
  have hyear := year_of_utcOf? hof
  rw [hseconds] at hyear
  have hdays := (Calendar.year_ofDays_iff _).mp hyear
  have hchrono : Extractor.minDay ≤ ms / 1000 / 86400 ∧ ms / 1000 / 86400 ≤ Extractor.maxDay := by
    have hmin : Extractor.minDay ≤ -719162 := by decide
    have hmax : 2932896 ≤ Extractor.maxDay := by decide
    omega
  have hfits : (instantFields (ms * 1000000)).Fits := by
    apply fits_instantFields
    simp only [instantFields, hseconds]
    omega
  rw [iso, if_neg hms, if_pos hchrono]
  change host.parseUtc (Extractor.toRfc3339 ms) = .ok u
  rw [toRfc3339_eq ⟨by omega, hyear.2⟩, parseUtc_offset hfits,
    ← text_eq (hseconds ▸ ⟨by omega, hyear.2⟩), parseUtc_text host hof]

end Times

/-! ### The newest metrics line -/

theorem getLast?_forall₂ {α β : Type} {R : α → β → Prop} {xs : List α} {ys : List β}
    (h : List.Forall₂ R xs ys) : Option.Rel R xs.getLast? ys.getLast? := by
  induction h with
  | nil => exact .none
  | @cons x y xs ys hxy _ ih =>
      rw [List.getLast?_cons, List.getLast?_cons]
      generalize xs.getLast? = last, ys.getLast? = last' at ih
      cases ih with
      | some hlast => exact .some hlast
      | none => exact .some hxy

/-- The newest metrics line of a log is the newest of the newest process that has any. -/
theorem newest_line {processes : List ExtractorProcess} {p : ExtractorProcess}
    (h : NewestMetered processes p) :
    ((processes.flatMap (·.log)).filter Line.isMetered).getLast? = p.metered.getLast? := by
  obtain ⟨before, after, rfl, hmetered, hafter⟩ := h
  obtain ⟨line, hline⟩ := Option.ne_none_iff_exists'.mp (mt List.getLast?_eq_none_iff.mp hmetered)
  rw [List.filter_flatMap, hline]
  exact getLast?_flatMap_eq_some.mpr ⟨before, p, after, rfl, hline, hafter⟩

theorem exists_newestMetered {processes : List ExtractorProcess} (h : ∃ p ∈ processes, p.metered ≠ []) :
    ∃ p, NewestMetered processes p := by
  induction processes with
  | nil => simp at h
  | cons q processes ih =>
      by_cases hrest : ∃ p ∈ processes, p.metered ≠ []
      · obtain ⟨p, before, after, rfl, hp⟩ := ih hrest
        exact ⟨p, q :: before, after, rfl, hp⟩
      · push Not at hrest
        obtain ⟨p, hp, hmetered⟩ := h
        rcases List.mem_cons.mp hp with rfl | hp
        · exact ⟨p, [], processes, rfl, hmetered, hrest⟩
        · exact absurd (hrest p hp) hmetered

section Lines

variable {host : Host} {events : List ExtractorEvent} {lines : List (StampedLine host)}
  {processes : List ExtractorProcess}

/-- The newest metrics event is the newest metrics line. -/
theorem newest_event (hevents : List.Forall₂ ReadsLine events lines)
    (hlines : lines.map StampedLine.line = processes.flatMap (·.log)) :
    Option.Rel (fun (e : ExtractorEvent) (line : Line) =>
        host.loadSnapshot (dictGet (("message", .str line.message) :: line.fields) "snapshot") =
          .ok e.snapshot)
      (events.filter ExtractorEvent.isMetrics).getLast?
      ((processes.flatMap (·.log)).filter Line.isMetered).getLast? := by
  have hfilter : List.Forall₂ ReadsLine (events.filter ExtractorEvent.isMetrics)
      (lines.filter fun l => l.line.isMetered) := by
    refine List.rel_filter ?_ hevents
    intro e l h
    simp only [ExtractorEvent.isMetrics, ExtractorEvent.isFinal, Line.isMetered, Line.isFinal,
      h.message]
  have hlast := getLast?_forall₂ hfilter
  rw [← hlines, List.filter_map, List.getLast?_map]
  change Option.Rel _ _ (Option.map _ (lines.filter fun l => l.line.isMetered).getLast?)
  generalize (events.filter ExtractorEvent.isMetrics).getLast? = event,
    (lines.filter fun l => l.line.isMetered).getLast? = line at hlast
  cases hlast with
  | some h => exact .some h.snapshot
  | none => exact .none

end Lines

/-! ### The members of the line -/

section Members

variable {host : Host} {cfg : Config} {component : String} {s : Sample}
  {members : List (String × Json)}

theorem loadSnapshot_text (hshows : Shows cfg component s members) (hdepth : 0 < host.jsonDepth) :
    host.loadSnapshot (.str (snapshotText members)) =
      .ok ((Json.sortMembers members).insertionSort Json.NameLe) := by
  have hread : JsonReader.whole host.json (snapshotText members).toList =
      .ok (Json.sortKeys (.obj members)) :=
    Extractor.whole_snapshotText hshows.isField hshows.nodup rfl
      (decide_eq_true (by decide : 20 ≤ Dashboard.maxStrDigits)) (decide_eq_true hdepth)
  have hloads : host.loads (snapshotText members) = .ok (Json.sortKeys (.obj members)) := by
    unfold Dashboard.Python.loads
    rw [hread]
  unfold Host.loadSnapshot
  dsimp only
  rw [hloads]
  rfl

theorem dictGet_sorted (hshows : Shows cfg component s members) {name : String} {value : Json}
    (hvalue : Json.lookup name (s.metrics.snapshot component) = some value)
    (hfield : Extractor.IsField value) :
    dictGet ((Json.sortMembers members).insertionSort Json.NameLe) name = value := by
  have hlookup := Json.lookup_sortMembers hshows.nodup name
  rw [hshows.lookup hvalue] at hlookup
  rw [dictGet, dictGetOr, hlookup, Option.map_some, hfield.sortKeys]
  rfl

end Members

/-! ### What the document shows -/

/-- The metrics lines of the process are those of its run. -/
def Metered (component : String) (p : ExtractorProcess) : Prop :=
  ∃ loading, MeteredRun p.cfg component p.world loading p.log

/-- The data frames a process has read from its connections. -/
def framesRead (w : World) : Nat := (w.ws.read.filterMap Extractor.Ws.Message.payload?).length

/-- The summary shows the counters of a sample, and the time of its last bar as a text
that `parse_utc` reads back. -/
structure ShowsSample (host : Host) (s : Sample) (shown : ExtractorSummary) : Prop where
  received : shown.messagesReceived = some (.int (s.metrics.messages_received % 2 ^ 64 : Nat))
  sent : shown.messagesSent = some (.int (s.metrics.messages_sent % 2 ^ 64 : Nat))
  failures : shown.deliveryFailures = some (.int (s.metrics.delivery_failures % 2 ^ 64 : Nat))
  errors : shown.errors = some (.int (s.metrics.errors % 2 ^ 64 : Nat))
  bar : shown.lastBarUtc = iso s.metrics.last_message_ts
  barTime : ∀ u : Utc, s.metrics.last_message_ts ≠ 0 →
    u.micros = s.metrics.last_message_ts * 1000 → host.parseUtcValue shown.lastBarUtc = .ok u

/-- The summary shows no counters and no bar. -/
structure ShowsNothing (shown : ExtractorSummary) : Prop where
  received : shown.messagesReceived = none
  sent : shown.messagesSent = none
  failures : shown.deliveryFailures = none
  errors : shown.errors = none
  bar : shown.lastBarUtc = .null

theorem messages_received_eq {cfg : Config} {w : World} (h : (Extractor.system cfg).Reachable w) :
    w.metrics.messages_received = framesRead w :=
  (Extractor.reachable_sound h).received

section Document

variable {host : Host} {entries : List Json} {settings : DashboardSettings} {now : Utc}
  {inputs : Inputs} {doc : Snapshot} {component : String} {processes : List ExtractorProcess}

theorem showsSample_of_event {events : List ExtractorEvent} {e : ExtractorEvent} {cfg : Config}
    {s : Sample} {members payload : List (String × Json)} {message : String}
    (hlatest : (events.filter ExtractorEvent.isMetrics).getLast? = some e)
    (hshows : Shows cfg component s members) (hdepth : 0 < host.jsonDepth)
    (hload : host.loadSnapshot (dictGet (("message", .str message) ::
      (snapshotLine message members payload).fields) "snapshot") = .ok e.snapshot) :
    ShowsSample host s (extractorSummary events) := by
  have hsnapshot : e.snapshot = (Json.sortMembers members).insertionSort Json.NameLe := by
    have hread := hload.symm.trans (loadSnapshot_text hshows hdepth)
    exact Except.ok.inj hread
  have hmember : ∀ {name value}, Json.lookup name (s.metrics.snapshot component) = some value →
      Extractor.IsField value → dictGet e.snapshot name = value := by
    intro name value hvalue hfield
    rw [hsnapshot]
    exact dictGet_sorted hshows hvalue hfield
  have hcount : ∀ {name n}, Json.lookup name (s.metrics.snapshot component) = some (u64 n) →
      integer (dictGet e.snapshot name) = some (.int (n % 2 ^ 64 : Nat)) := by
    intro name n hvalue
    rw [hmember hvalue (Extractor.isField_u64 n)]
    rfl
  have hbar : dictGet e.snapshot "last_message_ts" = iso s.metrics.last_message_ts :=
    hmember rfl (Extractor.isField_iso _)
  unfold extractorSummary
  rw [hlatest]
  constructor
  · exact hcount rfl
  · exact hcount rfl
  · exact hcount rfl
  · exact hcount rfl
  · exact hbar
  · intro u hms hu
    change host.parseUtcValue (dictGet e.snapshot "last_message_ts") = .ok u
    rw [hbar, parseUtc_iso host hms hu]

theorem mem_of_newestMetered {p : ExtractorProcess} (h : NewestMetered processes p) : p ∈ processes := by
  obtain ⟨before, after, rfl, _⟩ := h
  simp

/-- The newest metered process is shown by what its newest line shows. -/
theorem newestMetered_shown {p : ExtractorProcess} (hlog : ExtractorLog host processes entries)
    (hdepth : 0 < host.jsonDepth)
    (hdoc : host.buildSnapshot entries settings now inputs = .ok doc)
    (hp : NewestMetered processes p) (hmetered : Metered component p) :
    ∃ s, LoggedAt p.cfg component s p.world p.log ∧ ShowsSample host s doc.extractor := by
  obtain ⟨lines, events, hlines, hevents, hsummary⟩ := extractor_of_lines hlog hdoc
  have hnewest := newest_event hevents hlines
  have hne : p.log.filter Line.isMetered ≠ [] := by
    obtain ⟨_, _, _, hne, _⟩ := hp
    exact hne
  obtain ⟨loading, hrun⟩ := hmetered
  obtain ⟨s, hs⟩ := Extractor.exists_loggedAt hrun hne
  obtain ⟨message, members, payload, hshows, hline⟩ := hs.line
  rw [newest_line hp, ExtractorProcess.metered, hline] at hnewest
  generalize hlatest : (events.filter ExtractorEvent.isMetrics).getLast? = latest at hnewest
  cases hnewest with
  | some hload =>
      rw [hsummary]
      exact ⟨s, hs, showsSample_of_event hlatest hshows hdepth hload⟩

/-- The document shows the newest metrics line of the newest process that has logged
any: every number in it is the one of a state that process was in. It shows none if
there is no such process. -/
theorem shown_counters (hlog : ExtractorLog host processes entries)
    (hmetered : ∀ p ∈ processes, Metered component p) (hdepth : 0 < host.jsonDepth)
    (hdoc : host.buildSnapshot entries settings now inputs = .ok doc) :
    (∃ p s, NewestMetered processes p ∧ (∀ l, ∃ w, Passed p.cfg w p.world ∧ s.Agrees w l) ∧
        ShowsSample host s doc.extractor) ∨
      ((∀ p ∈ processes, p.metered = []) ∧ ShowsNothing doc.extractor) := by
  by_cases hsome : ∃ p ∈ processes, p.metered ≠ []
  · obtain ⟨p, hp⟩ := exists_newestMetered hsome
    obtain ⟨s, hs, hshown⟩ :=
      newestMetered_shown hlog hdepth hdoc hp (hmetered p (mem_of_newestMetered hp))
    exact .inl ⟨p, s, hp, hs.loaded, hshown⟩
  · push Not at hsome
    obtain ⟨lines, events, hlines, hevents, hsummary⟩ := extractor_of_lines hlog hdoc
    have hnewest := newest_event hevents hlines
    have hnone : ((processes.flatMap (·.log)).filter Line.isMetered).getLast? = none := by
      rw [List.filter_flatMap, List.getLast?_eq_none_iff, List.flatMap_eq_nil_iff]
      exact hsome
    rw [hnone] at hnewest
    generalize hlatest : (events.filter ExtractorEvent.isMetrics).getLast? = latest at hnewest
    cases hnewest
    refine .inr ⟨hsome, ?_⟩
    rw [hsummary]
    unfold extractorSummary
    rw [hlatest]
    exact ⟨rfl, rfl, rfl, rfl, rfl⟩

/-- The frames of a process that exited after the flush. -/
theorem framesRead_of_reported {cfg : Extractor.Config} {w : World}
    (h : (Extractor.system cfg).Reachable w) (hreported : w.Reported) :
    ∃ lost, lost ≤ cfg.channel_capacity + 1 ∧
      framesRead w = w.metrics.messages_sent + w.metrics.delivery_failures + lost := by
  have hcoherent := Extractor.reachable_coherent h
  have hsound := Extractor.reachable_sound h
  obtain ⟨result, hmain⟩ := hreported
  have hws : w.ws.pc = .done result := hcoherent.returned result (by rw [hmain]; rfl)
  have hclosed : w.channel.receiving = false :=
    hcoherent.done_iff.mp (hcoherent.joined (by rw [hmain]; rfl))
  have hforwarding : w.handover.forwarding = [] := by
    simp [World.handover, hws, Extractor.Ws.Pc.forwarded]
  obtain ⟨hcount, _⟩ := hsound.closed_count hclosed hforwarding
  have hcapacity : w.handover.capacity = cfg.channel_capacity :=
    Extractor.Handover.capacity_of_reaches (Extractor.reachable_reaches h)
  have hdiscarded := hsound.bounded.2
  have hrefused := hsound.refused.1
  refine ⟨w.handover.discarded.length + w.handover.refused.length, by omega, ?_⟩
  have hreceived := messages_received_eq h
  change w.metrics.messages_received = w.metrics.messages_sent + w.metrics.delivery_failures +
    w.handover.discarded.length + w.handover.refused.length at hcount
  omega

/-- A document with `clean_shutdown` accounts for every frame its process has read: as
sent, as failed, or among the few that were in the channel, or on their way to it, when
the producer stopped. -/
theorem clean_counters (hlog : ExtractorLog host processes entries)
    (hmetered : ∀ p ∈ processes, Metered component p) (hdepth : 0 < host.jsonDepth)
    (hdoc : host.buildSnapshot entries settings now inputs = .ok doc)
    (hclean : doc.extractor.status = .cleanShutdown) :
    ∃ p sent failed lost, NewestMetered processes p ∧ lost ≤ p.cfg.channel_capacity + 1 ∧
      framesRead p.world = sent + failed + lost ∧
      doc.extractor.messagesReceived = some (.int (framesRead p.world % 2 ^ 64 : Nat)) ∧
      doc.extractor.messagesSent = some (.int (sent % 2 ^ 64 : Nat)) ∧
      doc.extractor.deliveryFailures = some (.int (failed % 2 ^ 64 : Nat)) := by
  obtain ⟨p, hp, hreported⟩ := (clean_shutdown_iff hlog hdoc).mp hclean
  have hreachable := p.logged.reachable
  obtain ⟨s, hs, hshown⟩ :=
    newestMetered_shown hlog hdepth hdoc hp (hmetered p (mem_of_newestMetered hp))
  have hsettled := hs.settled hreported
  obtain ⟨lost, hlost, hcount⟩ := framesRead_of_reported hreachable hreported
  refine ⟨p, _, _, lost, hp, hlost, hcount, ?_, ?_, ?_⟩
  · rw [hshown.received, hsettled, messages_received_eq hreachable]
  · rw [hshown.sent, hsettled]
  · rw [hshown.failures, hsettled]

end Document

/-! ### A process that throws a frame away -/

def lossyMetrics : Extractor.Metrics := ⟨2, 1, 0, 0, 3, 4, false⟩

def lossyLine : Line :=
  snapshotLine "final metrics" (lossyMetrics.snapshot "alpaca-extractor-rs") [("level", .str "INFO")]

theorem lossy_metered : ∃ p : ExtractorProcess, p.log = [lossyLine] ∧
    Metered "alpaca-extractor-rs" p := by
  obtain ⟨w, w', result, hrun, hmain, hmetrics, hstep, hexited⟩ : ∃ w w' result,
      (Extractor.system Extractor.sampleConfig).run (World.new Extractor.sampleConfig)
        Extractor.frameAtShutdownRun.dropLast = some w ∧
      w.main = .reporting result ∧ w.metrics = lossyMetrics ∧
      Extractor.step Extractor.sampleConfig w (.teardown (.ok ())) = some w' ∧
      w'.main = .exited (.ok result) :=
    ⟨_, _, _, rfl, rfl, rfl, rfl, rfl⟩
  have hstart : MeteredRun Extractor.sampleConfig "alpaca-extractor-rs"
      (World.new Extractor.sampleConfig) none [] := .start
  have hfinal := (hstart.run hrun (by simp [hmain])).final [("level", .str "INFO")] hstep hmain hexited
  rw [hmetrics] at hfinal
  exact ⟨⟨_, w', _, hfinal.logged⟩, rfl, none, hfinal⟩

def lossyStamped : StampedLine Dashboard.summerHost :=
  ⟨lossyLine, "2026-08-29T11:59:00Z", Dashboard.minuteToNoon, Dashboard.parseUtc_minuteToNoon⟩

def lossyEvent : ExtractorEvent :=
  ⟨Dashboard.minuteToNoon, "final metrics",
    (Json.sortMembers (lossyMetrics.snapshot "alpaca-extractor-rs")).insertionSort Json.NameLe, .null⟩

theorem lossy_read : Dashboard.summerHost.readEntries Dashboard.saturdayNoon [lossyStamped.entry] =
    .ok ⟨[lossyEvent], [], []⟩ := by
  have hshows : Shows Extractor.sampleConfig "alpaca-extractor-rs" ⟨lossyMetrics, 0⟩
      (lossyMetrics.snapshot "alpaca-extractor-rs") := .final
  have hload : Dashboard.summerHost.loadSnapshot
      (.str (snapshotText (lossyMetrics.snapshot "alpaca-extractor-rs"))) = .ok lossyEvent.snapshot :=
    loadSnapshot_text hshows (by decide)
  have hentry : Dashboard.summerHost.readEntry Dashboard.saturdayNoon lossyStamped.entry =
      .ok ⟨some lossyEvent, none, none⟩ := by
    unfold Host.readEntry
    refine Result.bind_eq_ok.mpr ⟨_, rfl, ?_⟩
    refine Result.bind_eq_ok.mpr ⟨_, rfl, ?_⟩
    refine Result.bind_eq_ok.mpr ⟨Dashboard.minuteToNoon, Dashboard.parseUtc_minuteToNoon, ?_⟩
    rw [if_pos (by rfl)]
    refine Result.bind_eq_ok.mpr ⟨some lossyEvent, ?_, Result.bind_eq_ok.mpr ⟨none, rfl, rfl⟩⟩
    exact Result.bind_eq_ok.mpr ⟨_, hload, rfl⟩
  refine Result.bind_eq_ok.mpr ⟨[⟨some lossyEvent, none, none⟩], ?_, rfl⟩
  rw [List.mapM_cons, hentry]
  rfl

theorem lossy_bar : dictGet lossyEvent.snapshot "last_message_ts" =
    .str (Extractor.toRfc3339 3) := by
  have hshows : Shows Extractor.sampleConfig "alpaca-extractor-rs" ⟨lossyMetrics, 0⟩
      (lossyMetrics.snapshot "alpaca-extractor-rs") := .final
  have hiso : iso 3 = .str (Extractor.toRfc3339 3) := rfl
  exact hiso ▸ dictGet_sorted hshows rfl (Extractor.isField_iso 3)

theorem lossy_document : ∃ doc, Dashboard.summerHost.buildSnapshot [lossyStamped.entry] (.default "p")
    Dashboard.saturdayNoon .none = .ok doc ∧ doc.extractor.status = .cleanShutdown := by
  have hiso : iso 3 = .str (Extractor.toRfc3339 3) := rfl
  have htime : ∃ u, Dashboard.summerHost.parseUtcValue (iso 3) = .ok u :=
    ⟨⟨3000, by decide⟩, parseUtc_iso Dashboard.summerHost (by decide) rfl⟩
  have hdated : Dashboard.summerHost.Dated
      (extractorSummary (Readings.mk [lossyEvent] [] []).sorted.extractorEvents).lastBarUtc := by
    change Dashboard.summerHost.Dated (dictGet lossyEvent.snapshot "last_message_ts")
    rw [lossy_bar, ← hiso]
    exact .inr htime
  have hmarket : Dashboard.Returns (Dashboard.summerHost.marketState Dashboard.saturdayNoon) := ⟨_, rfl⟩
  obtain ⟨doc, hdoc⟩ := Dashboard.buildSnapshot_returns _ hmarket lossy_read rfl hdated
    (Dashboard.usable_default "p")
  refine ⟨doc, hdoc, ?_⟩
  obtain ⟨_, _, readings, _, _, _, _, _, hread, _, _, _, _, rfl⟩ :=
    Dashboard.buildSnapshot_eq_ok.mp hdoc
  cases lossy_read.symm.trans hread
  rfl

theorem lossy_log {p : ExtractorProcess} (hp : p.log = [lossyLine]) :
    ExtractorLog Dashboard.summerHost [p] [lossyStamped.entry] :=
  ⟨[lossyStamped], by simp [hp, lossyStamped], List.pairwise_singleton _ _, rfl⟩

theorem lossy_shown : ∃ (p : ExtractorProcess) (doc : Snapshot),
    ExtractorLog Dashboard.summerHost [p] [lossyStamped.entry] ∧
    ((∃ q s, NewestMetered [p] q ∧ (∀ l, ∃ w, Passed q.cfg w q.world ∧ s.Agrees w l) ∧
        ShowsSample Dashboard.summerHost s doc.extractor) ∨
      ((∀ q ∈ [p], q.metered = []) ∧ ShowsNothing doc.extractor)) := by
  obtain ⟨p, hp, hmetered⟩ := lossy_metered
  obtain ⟨doc, hdoc, _⟩ := lossy_document
  exact ⟨p, doc, lossy_log hp, shown_counters (lossy_log hp)
    (fun q hq => List.mem_singleton.mp hq ▸ hmetered) (by decide) hdoc⟩

theorem lossy_counted : ∃ (p : ExtractorProcess) (doc : Snapshot),
    ExtractorLog Dashboard.summerHost [p] [lossyStamped.entry] ∧
    ∃ q sent failed lost, NewestMetered [p] q ∧ lost ≤ q.cfg.channel_capacity + 1 ∧
      framesRead q.world = sent + failed + lost ∧
      doc.extractor.messagesReceived = some (.int (framesRead q.world % 2 ^ 64 : Nat)) ∧
      doc.extractor.messagesSent = some (.int (sent % 2 ^ 64 : Nat)) ∧
      doc.extractor.deliveryFailures = some (.int (failed % 2 ^ 64 : Nat)) := by
  obtain ⟨p, hp, hmetered⟩ := lossy_metered
  obtain ⟨doc, hdoc, hclean⟩ := lossy_document
  exact ⟨p, doc, lossy_log hp, clean_counters (lossy_log hp)
    (fun q hq => List.mem_singleton.mp hq ▸ hmetered) (by decide) hdoc hclean⟩

end Lakehouse.Contract
