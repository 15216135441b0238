/-
The extractor session that the shutdown reason of the snapshot is about.

A session is what lies between two final events, the later one included. The
newest metrics event, the final event and the shutdown event are each searched
from the end of the whole list, which may hold several sessions.

* `lastSession`: the session that the newest final event ends.
* `lastSession_split`: where it lies in the list.
* `idleWindow_iff`: when the code reports the idle window.
* `idleWindow_of_session_iff`: when that is the reason of the last session.
-/

import Mathlib.Data.List.TakeWhile
import Lakehouse.Dashboard.BuildSnapshot

namespace Lakehouse.Dashboard

/-- The session that the newest final event ends. -/
def lastSession (events : List ExtractorEvent) : List ExtractorEvent :=
  match events.reverse.dropWhile fun e => !e.isFinal with
  | [] => []
  | final :: before => (before.takeWhile fun e => !e.isFinal).reverse ++ [final]

/-- The newest metrics event is a final one. -/
def EndsFinal (events : List ExtractorEvent) : Prop :=
  ∃ e ∈ (events.filter ExtractorEvent.isMetrics).getLast?, e.isFinal = true

/-- One of the events is an idle shutdown. -/
def HasIdleShutdown (events : List ExtractorEvent) : Prop :=
  ∃ e ∈ events, e.isIdleShutdown = true

instance (events : List ExtractorEvent) : Decidable (HasIdleShutdown events) :=
  decidable_of_iff (events.any ExtractorEvent.isIdleShutdown = true) List.any_eq_true

theorem not_isFinal_of_takeWhile {events : List ExtractorEvent} {e : ExtractorEvent}
    (h : e ∈ events.takeWhile fun e => !e.isFinal) : e.isFinal = false := by
  have := List.mem_takeWhile_imp h
  simpa using this

/-- The last session is the events up to the newest final one, from the final event
before that on. -/
theorem lastSession_split {events : List ExtractorEvent} (h : ∃ e ∈ events, e.isFinal = true) :
    ∃ earlier during final later,
      events = earlier ++ (during ++ [final]) ++ later ∧
      lastSession events = during ++ [final] ∧
      final.isFinal = true ∧
      (∀ e ∈ during, e.isFinal = false) ∧ (∀ e ∈ later, e.isFinal = false) ∧
      ∀ e, earlier.getLast? = some e → e.isFinal = true := by
  obtain ⟨e, he, hfinal⟩ := h
  cases hdrop : events.reverse.dropWhile fun e => !e.isFinal with
  | nil =>
      have hall := List.dropWhile_eq_nil_iff.mp hdrop e (List.mem_reverse.mpr he)
      simp [hfinal] at hall
  | cons final before =>
      have hhead : final.isFinal = true := by
        have := List.head_dropWhile_not (fun e => !e.isFinal) (l := events.reverse)
          (by simp [hdrop])
        simpa [hdrop] using this
      have hevents : events.reverse =
          events.reverse.takeWhile (fun e => !e.isFinal) ++ final :: before := by
        rw [← hdrop, List.takeWhile_append_dropWhile]
      have hbefore : before.reverse = (before.dropWhile fun e => !e.isFinal).reverse ++
          (before.takeWhile fun e => !e.isFinal).reverse := by
        rw [← List.reverse_append, List.takeWhile_append_dropWhile]
      refine ⟨(before.dropWhile fun e => !e.isFinal).reverse,
        (before.takeWhile fun e => !e.isFinal).reverse, final,
        (events.reverse.takeWhile fun e => !e.isFinal).reverse, ?_, ?_, hhead, ?_, ?_, ?_⟩
      · calc events = events.reverse.reverse := (List.reverse_reverse events).symm
          _ = before.reverse ++ [final] ++
              (events.reverse.takeWhile fun e => !e.isFinal).reverse := by
            conv_lhs => rw [hevents]
            simp
          _ = _ := by rw [hbefore, List.append_assoc _ _ [final]]
      · simp only [lastSession, hdrop]
      · exact fun e he => not_isFinal_of_takeWhile (List.mem_reverse.mp he)
      · exact fun e he => not_isFinal_of_takeWhile (List.mem_reverse.mp he)
      · intro e he
        rw [List.getLast?_reverse] at he
        have := List.head?_dropWhile_not (fun e => !e.isFinal) before
        rw [he] at this
        simpa using this

theorem exists_final_of_endsFinal {events : List ExtractorEvent} (h : EndsFinal events) :
    ∃ e ∈ events, e.isFinal = true := by
  obtain ⟨e, he, hfinal⟩ := h
  exact ⟨e, List.mem_of_mem_filter (List.mem_of_getLast? he), hfinal⟩

theorem hasIdleShutdown_of_lastSession {events : List ExtractorEvent} (hends : EndsFinal events)
    (h : HasIdleShutdown (lastSession events)) : HasIdleShutdown events := by
  obtain ⟨e, he, hidle⟩ := h
  obtain ⟨earlier, during, final, later, heq, hsession, -⟩ :=
    lastSession_split (exists_final_of_endsFinal hends)
  rw [hsession] at he
  refine ⟨e, ?_, hidle⟩
  rw [heq]
  exact List.mem_append_left _ (List.mem_append_right _ he)

/-- The reason is reported for any idle shutdown in the list. -/
theorem idleWindow_iff (events : List ExtractorEvent) :
    (extractorSummary events).idleWindow = true ↔ EndsFinal events ∧ HasIdleShutdown events := by
  have hfinal : (((events.filter ExtractorEvent.isMetrics).getLast?).filter
      ExtractorEvent.isFinal).isSome = true ↔ EndsFinal events := by
    simp only [EndsFinal, Option.isSome_iff_exists, Option.filter_eq_some_iff, Option.mem_def]
  have hidle : (findLast ExtractorEvent.isIdleShutdown events).isSome = true ↔
      HasIdleShutdown events := by
    simp [findLast, List.find?_isSome, HasIdleShutdown]
  simp only [extractorSummary, Bool.and_eq_true, hfinal, hidle]

/-- The reason is that of the last session unless that session had no idle shutdown
and another one did. -/
theorem idleWindow_of_session_iff (events : List ExtractorEvent) :
    ((extractorSummary events).idleWindow = true ↔
        EndsFinal events ∧ HasIdleShutdown (lastSession events)) ↔
      ¬ EndsFinal events ∨ HasIdleShutdown (lastSession events) ∨ ¬ HasIdleShutdown events := by
  rw [idleWindow_iff]
  by_cases hends : EndsFinal events
  · simp only [hends, true_and, not_true, false_or]
    constructor
    · intro hiff
      by_cases hidle : HasIdleShutdown events
      · exact .inl (hiff.mp hidle)
      · exact .inr hidle
    · rintro (hsession | hnone)
      · exact ⟨fun _ => hsession, hasIdleShutdown_of_lastSession hends⟩
      · refine ⟨fun h => absurd h hnone, fun h => ?_⟩
        exact absurd (hasIdleShutdown_of_lastSession hends h) hnone
  · simp [hends]

/-- The log of two sessions, of which only the first saw an idle shutdown. -/
def twoSessions : List ExtractorEvent :=
  [⟨minuteToNoon, idleMessage, [], .null⟩,
    ⟨⟨1788004741000000, by decide⟩, "final metrics", [], .null⟩,
    ⟨⟨1788091140000000, by decide⟩, "metrics", [], .null⟩,
    ⟨⟨1788091141000000, by decide⟩, "final metrics", [], .null⟩]

theorem twoSessions_idleWindow : twoSessions.Pairwise ExtractorEvent.Le ∧
    ¬ ((extractorSummary twoSessions).idleWindow = true ↔
      EndsFinal twoSessions ∧ HasIdleShutdown (lastSession twoSessions)) := by
  have hordered : twoSessions.Pairwise ExtractorEvent.Le := by
    simp [twoSessions, ExtractorEvent.Le, minuteToNoon]
  have hsession : ¬ HasIdleShutdown (lastSession twoSessions) := by decide
  have hreported : (extractorSummary twoSessions).idleWindow = true := rfl
  exact ⟨hordered, fun h => hsession (h.mp hreported).2⟩

end Lakehouse.Dashboard
