/-
The extractor's counters on the page.

* `page_counters` — from the counters of a process, over its log, the exporter's
  document and the published file, to the texts of the page.
-/

import Lakehouse.Contract.Counters
import Lakehouse.Dashboard.Rendering

namespace Lakehouse.Contract

open Dashboard (Host Utc Snapshot DashboardSettings Inputs Whole dictGet floatOfInt onPage orNull)
open Dashboard.Page (Browser Js Sees Sized Value Write member perform setText)
open Extractor (ExtractorProcess Passed Sample iso)

/-- A counter as the page gets it. -/
def shownCount (n : Nat) : Value := some (.float (floatOfInt (n % 2 ^ 64 : Nat)))

theorem onPage_iso (ms : Int) : onPage (iso ms) = iso ms := by
  unfold iso
  split
  · rfl
  · split
    · rfl
    · rfl

theorem allLeaves_iso (ms : Int) : (iso ms).AllLeaves Dashboard.FiniteNumber := by
  unfold iso
  split
  · simp [Dashboard.FiniteNumber]
  · split
    · simp [Dashboard.FiniteNumber]
    · simp [Dashboard.FiniteNumber]

/-- The page has the texts of the sample. -/
structure Displays (b : Browser) (s : Sample) (writes : List Write) : Prop where
  received : .text "received" (b.number (shownCount s.metrics.messages_received)) ∈ writes
  sent : .text "sent" (b.number (shownCount s.metrics.messages_sent)) ∈ writes
  failures : .text "delivery-failures" (b.number (shownCount s.metrics.delivery_failures)) ∈ writes
  errors : .text "extractor-errors" (b.number (shownCount s.metrics.errors)) ∈ writes
  bar : ∀ text, b.utc (.ok (some (iso s.metrics.last_message_ts))) = .ok text →
    .text "last-bar" text ∈ writes

section Display

variable {b : Browser} {host : Host} {doc : Snapshot} {s : Sample}

/-- A complete rendering of a document that shows a sample displays it. -/
theorem displays_of_shows (hdistinct : doc.toJson.Distinct) (hshows : ShowsSample host s doc.extractor)
    (hnone : (perform (b.render (some (onPage doc.toJson)))).2 = none) :
    Displays b s (perform (b.render (some (onPage doc.toJson)))).1 := by
  have hdata : Sees (.ok (some (onPage doc.toJson))) doc.toJson := ⟨rfl, hdistinct⟩
  have hextractor : Sees (member (.ok (some (onPage doc.toJson))) "extractor") doc.extractor.toJson :=
    hdata.member rfl
  have hmetric : ∀ {name id : String} {n : Nat},
      Sees (member (member (.ok (some (onPage doc.toJson))) "extractor") name)
        (orNull Whole.toJson (some (.int (n % 2 ^ 64 : Nat)))) →
      .ok (.text id (b.number (shownCount n))) =
        setText id (b.metric (member (member (.ok (some (onPage doc.toJson))) "extractor") name)) := by
    intro name id n hsees
    rw [hsees.value]
    rfl
  have hreceived : Sees (member (member (.ok (some (onPage doc.toJson))) "extractor")
      "messages_received") (orNull Whole.toJson doc.extractor.messagesReceived) := hextractor.member rfl
  have hsent : Sees (member (member (.ok (some (onPage doc.toJson))) "extractor")
      "messages_sent") (orNull Whole.toJson doc.extractor.messagesSent) := hextractor.member rfl
  have hfailures : Sees (member (member (.ok (some (onPage doc.toJson))) "extractor")
      "delivery_failures") (orNull Whole.toJson doc.extractor.deliveryFailures) := hextractor.member rfl
  have herrors : Sees (member (member (.ok (some (onPage doc.toJson))) "extractor")
      "errors") (orNull Whole.toJson doc.extractor.errors) := hextractor.member rfl
  have hbar : Sees (member (member (.ok (some (onPage doc.toJson))) "extractor")
      "last_bar_utc") doc.extractor.lastBarUtc := hextractor.member rfl
  rw [hshows.received] at hreceived
  rw [hshows.sent] at hsent
  rw [hshows.failures] at hfailures
  rw [hshows.errors] at herrors
  rw [hshows.bar] at hbar
  constructor
  · refine Dashboard.Page.mem_perform hnone (Dashboard.Page.mem_render (.inr ?_))
    rw [hmetric hreceived]
    exact List.mem_cons_self
  · refine Dashboard.Page.mem_perform hnone (Dashboard.Page.mem_render (.inr ?_))
    rw [hmetric hsent]
    exact .tail _ List.mem_cons_self
  · refine Dashboard.Page.mem_perform hnone (Dashboard.Page.mem_render (.inr ?_))
    rw [hmetric hfailures]
    exact .tail _ (.tail _ List.mem_cons_self)
  · refine Dashboard.Page.mem_perform hnone (Dashboard.Page.mem_render (.inr ?_))
    rw [hmetric herrors]
    exact .tail _ (.tail _ (.tail _ List.mem_cons_self))
  · intro text htext
    refine Dashboard.Page.mem_perform hnone (Dashboard.Page.mem_render (.inl ?_))
    have hshown : setText "last-bar" (b.utc (member (member (.ok (some (onPage doc.toJson)))
        "extractor") "last_bar_utc")) = .ok (.text "last-bar" text) := by
      rw [hbar.value, onPage_iso, htext]
      rfl
    rw [← hshown]
    exact List.mem_cons_self

end Display

/-- The page can show every file the exporter publishes of the extractor's log whose
sizes are no truth values, if it can read the bar time. It then shows the newest metrics
line of the newest process that has logged one. -/
theorem page_counters {b : Browser} {host : Host} {component : String}
    {processes : List ExtractorProcess} {p : ExtractorProcess} {depth : Nat} {entries : List Json}
    {settings : DashboardSettings} {now : Utc} {inputs : Inputs} {doc : Snapshot} {text : String}
    (hlog : ExtractorLog host processes entries) (hp : NewestMetered processes p)
    (hmetered : Metered component p) (hdepth : 0 < host.jsonDepth) (hb : b.ReadsUtcText)
    (hdoc : host.buildSnapshot entries settings now inputs = .ok doc)
    (htext : host.publish depth entries settings now inputs = .ok text)
    (hrepr : ∀ x, .float x ∈ doc.toJson.leaves → Double.IsFinite x → host.ReprReads x) :
    ∃ s, (∀ l, ∃ w, Passed p.cfg w p.world ∧ s.Agrees w l) ∧
      ((b.load (.ok text)).2 = none ↔ b.Datable (iso s.metrics.last_message_ts) ∧
        Sized doc.table.totalFilesSizeBytes ∧
          (doc.table.status = .available → Sized doc.table.latestAddedFilesSizeBytes)) ∧
      ((b.load (.ok text)).2 = none → Displays b s (b.load (.ok text)).1) := by
  obtain ⟨s, hs, hshows⟩ := newestMetered_shown hlog hdepth hdoc hp hmetered
  refine ⟨s, hs.loaded, ?_, fun hcomplete => ?_⟩
  · rw [Dashboard.Page.load_eq_none_iff hb hdoc htext hrepr, hshows.bar]
    exact and_iff_right (allLeaves_iso _)
  · obtain ⟨hnone, hsame⟩ := Dashboard.Page.load_rendered hdoc htext hrepr hcomplete
    rw [hsame]
    exact displays_of_shows (Dashboard.document_distinct hdoc) hshows hnone

theorem lossy_encoded :
    (match Dashboard.summerHost.buildSnapshot [lossyStamped.entry] (.default "p")
        Dashboard.saturdayNoon .none with
      | .ok doc => decide (Dashboard.encodeError doc.toJson 990 = none)
      | .error _ => false) = true := by
  decide +kernel

theorem lossy_published : ∃ doc text,
    Dashboard.summerHost.buildSnapshot [lossyStamped.entry] (.default "p") Dashboard.saturdayNoon
      .none = .ok doc ∧
    Dashboard.summerHost.publish 990 [lossyStamped.entry] (.default "p") Dashboard.saturdayNoon
      .none = .ok text ∧
    ∀ x, .float x ∈ doc.toJson.leaves → Double.IsFinite x → Dashboard.summerHost.ReprReads x := by
  obtain ⟨doc, hdoc, _⟩ := lossy_document
  have hencoded := lossy_encoded
  rw [hdoc] at hencoded
  have hreturns : Dashboard.Returns (Dashboard.summerHost.dumps 990 doc.toJson) :=
    Dashboard.dumps_returns.mpr
      ((Dashboard.encodeError_eq_none _ _).mp (of_decide_eq_true hencoded))
  obtain ⟨text, htext⟩ := hreturns
  have hpublish : Dashboard.summerHost.publish 990 [lossyStamped.entry] (.default "p")
      Dashboard.saturdayNoon .none = .ok (text ++ "\n") :=
    Result.bind_eq_ok.mpr ⟨doc, hdoc, Result.bind_eq_ok.mpr ⟨text, htext, rfl⟩⟩
  refine ⟨doc, text ++ "\n", hdoc, hpublish, ?_⟩
  have hordinary : Dashboard.Ordinary fun leaf => ∀ x, leaf ≠ .float x := by
    constructor
    · intro x h
      cases h
    · intro b x h
      cases h
    · intro n x h
      cases h
    · intro s x h
      cases h
  have htidy : Dashboard.Tidy (fun leaf => ∀ x, leaf ≠ .float x) doc.toJson := by
    rw [Dashboard.Snapshot.tidy_iff hordinary]
    obtain ⟨_, _, _, _, _, _, _, _, hread, _, htable, hcosts, _, rfl⟩ :=
      Dashboard.buildSnapshot_eq_ok.mp hdoc
    cases lossy_read.symm.trans hread
    obtain rfl := Except.ok.inj htable
    obtain rfl := Except.ok.inj hcosts
    refine ⟨?_, fun x hx => absurd hx List.not_mem_nil⟩
    change Dashboard.Tidy _ (dictGet lossyEvent.snapshot "last_message_ts")
    rw [lossy_bar]
    exact hordinary.tidy_str _
  exact fun x hx _ => absurd rfl (htidy.2 _ hx x)

theorem lossy_displayed : ∃ (p : ExtractorProcess) (doc : Snapshot) (text : String) (s : Sample),
    ExtractorLog Dashboard.summerHost [p] [lossyStamped.entry] ∧
    Dashboard.summerHost.publish 990 [lossyStamped.entry] (.default "p") Dashboard.saturdayNoon
      .none = .ok text ∧
    (∀ l, ∃ w, Passed p.cfg w p.world ∧ s.Agrees w l) ∧
    ((Dashboard.Page.plainBrowser.load (.ok text)).2 = none ↔
      Dashboard.Page.plainBrowser.Datable (iso s.metrics.last_message_ts) ∧
        Sized doc.table.totalFilesSizeBytes ∧
          (doc.table.status = .available → Sized doc.table.latestAddedFilesSizeBytes)) ∧
    ((Dashboard.Page.plainBrowser.load (.ok text)).2 = none →
      Displays Dashboard.Page.plainBrowser s (Dashboard.Page.plainBrowser.load (.ok text)).1) := by
  obtain ⟨p, hp, hmetered⟩ := lossy_metered
  obtain ⟨doc, text, hdoc, htext, hrepr⟩ := lossy_published
  have hline : p.metered ≠ [] := by
    rw [ExtractorProcess.metered, hp]
    simp [lossyLine, Extractor.snapshotLine, Extractor.Line.isMetered, Extractor.Line.isFinal]
  have hnewest : NewestMetered [p] p := ⟨[], [], rfl, hline, by simp⟩
  obtain ⟨s, hs⟩ := page_counters (lossy_log hp) hnewest hmetered (by decide)
    Dashboard.Page.plainBrowser_reads hdoc htext hrepr
  exact ⟨p, doc, text, s, lossy_log hp, htext, hs⟩

end Lakehouse.Contract
