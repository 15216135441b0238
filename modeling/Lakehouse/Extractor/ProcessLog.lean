/-
What an extractor process logs about its metrics.

The emitter task logs `metrics` while it lives, `main` logs `final metrics` as
its last event, after the producer has been flushed and whatever `ws::run` has
returned. All other events have other messages.

* `ExtractorProcess` — a process from its start to its end or its being killed,
  with the lines it has logged.
* `newest_metered_isFinal` — its newest metrics line is the final one exactly when
  `main` exited after the flush.
-/

import Lakehouse.Extractor.Accounting
import Lakehouse.Lib.Json

namespace Lakehouse.Extractor

/-- A log line: its message, the other members of `fields`, and the other members
of the payload. -/
structure Line where
  message : String
  fields : List (String × Json)
  payload : List (String × Json)

namespace Line

def isFinal (l : Line) : Bool := l.message == "final metrics"

/-- A line that carries a metrics snapshot. -/
def isMetered (l : Line) : Bool := l.message == "metrics" || l.isFinal

end Line

/-- `main` has logged `final metrics`. -/
def World.Reported (w : World) : Prop := ∃ result, w.main = .exited (.ok result)

/-- The run of a process with what it logs: the emitter's line at a tick, the
final line of `main`, and any line with another message. -/
inductive LoggedRun (cfg : Config) : World → List Line → Prop where
  | start : LoggedRun cfg (World.new cfg) []
  | step {w w' log a} : LoggedRun cfg w log → step cfg w a = some w' →
      (∀ result, w.main = .reporting result → w'.main = .reporting result) → LoggedRun cfg w' log
  | final {w w' log a result} (line : Line) : LoggedRun cfg w log → step cfg w a = some w' →
      w.main = .reporting result → w'.main = .exited (.ok result) → line.isFinal = true →
      LoggedRun cfg w' (log ++ [line])
  | tick {w log} (line : Line) : LoggedRun cfg w log → w.emitter = true →
      line.message = "metrics" → LoggedRun cfg w (log ++ [line])
  | other {w log} (line : Line) : LoggedRun cfg w log → line.isMetered = false →
      LoggedRun cfg w (log ++ [line])

/-- A process of the extractor. -/
structure ExtractorProcess where
  cfg : Config
  world : World
  log : List Line
  logged : LoggedRun cfg world log

namespace ExtractorProcess

/-- `ws::run` has returned `Ok(())`. -/
def ReturnedOk (p : ExtractorProcess) : Prop := p.world.ws.pc = .done (.ok ())

/-- The metrics lines of the process. -/
def metered (p : ExtractorProcess) : List Line := p.log.filter Line.isMetered

end ExtractorProcess

variable {cfg : Config} {w w' : World} {log : List Line}

theorem LoggedRun.reachable (h : LoggedRun cfg w log) : (system cfg).Reachable w := by
  induction h with
  | start => exact .init rfl
  | step _ hstep _ ih => exact ih.step hstep
  | final line _ hstep _ _ _ ih => exact ih.step hstep
  | tick line _ _ _ ih => exact ih
  | other line _ _ ih => exact ih

/-- What a step does to `main` and to the emitter: `main` exits with a result only
from `reporting`, and passes `joining` only once the emitter has ended. -/
structure MainStep (w w' : World) : Prop where
  emitter : w.emitter = false → w'.emitter = false
  joined : w'.main.joined = true → w.main.joined = true ∨ w.emitter = false
  exited : ∀ result, w'.main = .exited (.ok result) →
    w.main = .exited (.ok result) ∨ w.main = .reporting result
  stays : ∀ result, w.main = .exited (.ok result) → w'.main = .exited (.ok result)
  reports : ∀ result, w.main = .reporting result →
    w'.main = .reporting result ∨ w'.main = .exited (.ok result)

theorem mainStep_of_main_eq (hmain : w'.main = w.main)
    (hemitter : w.emitter = false → w'.emitter = false) : MainStep w w' where
  emitter := hemitter
  joined := by rw [hmain]; exact .inl
  exited := by rw [hmain]; exact fun _ => .inl
  stays := by rw [hmain]; exact fun _ => id
  reports := by rw [hmain]; exact fun _ => .inl

/-- `main` goes on from `before` to `after`, neither of them its end. -/
theorem mainStep_of_going {before after : MainPc} (hbefore : w.main = before)
    (hafter : w'.main = after) (hemitter : w'.emitter = w.emitter)
    (hjoined : after.joined = true → before.joined = true ∨ w.emitter = false)
    (hexited : ∀ result, after ≠ .exited (.ok result))
    (hopen : ∀ result, before ≠ .exited (.ok result) ∧ before ≠ .reporting result) :
    MainStep w w' where
  emitter := by rw [hemitter]; exact id
  joined := by rw [hbefore, hafter]; exact hjoined
  exited result h := absurd (hafter.symm.trans h) (hexited result)
  stays result h := absurd (hbefore.symm.trans h) (hopen result).1
  reports result h := absurd (hbefore.symm.trans h) (hopen result).2

theorem Main.Teardown.mainStep (h : Main.Teardown w w') : MainStep w w' := by
  cases h with
  | cancel hmain _ => exact mainStep_of_going hmain rfl rfl (by simp [MainPc.joined]) (by simp) (by simp)
  | close hmain => exact mainStep_of_going hmain rfl rfl (by simp [MainPc.joined]) (by simp) (by simp)
  | join hmain => exact mainStep_of_going hmain rfl rfl (by simp [MainPc.joined]) (by simp) (by simp)
  | flush hmain _ hemitter =>
      exact mainStep_of_going hmain rfl rfl (fun _ => .inr hemitter) (by simp) (by simp)
  | report hmain => exact mainStep_of_going hmain rfl rfl (fun _ => .inl rfl) (by simp) (by simp)
  | fail e hmain =>
      exact mainStep_of_going hmain rfl rfl (by simp [MainPc.joined]) (by simp) (by simp)
  | exit hmain =>
      constructor
      · exact id
      · exact fun _ => .inl (by rw [hmain]; rfl)
      · rintro _ ⟨⟩
        exact .inr hmain
      · simp [hmain]
      · intro result hreporting
        rw [hmain] at hreporting
        cases hreporting
        exact .inr rfl

theorem main_step {a : Action} (h : step cfg w a = some w') : MainStep w w' := by
  obtain ⟨_, hf⟩ | ⟨_, hf⟩ | hf | htorn := step_cases h
  · exact mainStep_of_main_eq hf.main (by rw [hf.emitter]; exact id)
  · exact mainStep_of_main_eq hf.main (by rw [hf.emitter]; exact id)
  · exact mainStep_of_main_eq hf.main hf.emitter
  · exact htorn.mainStep

/-- The newest metrics line, if it is the final one. -/
def currentFinal (log : List Line) : Option Line :=
  (log.filter Line.isMetered).getLast?.filter Line.isFinal

theorem currentFinal_concat (log : List Line) (line : Line) : currentFinal (log ++ [line]) =
    if line.isMetered then (some line).filter Line.isFinal else currentFinal log := by
  unfold currentFinal
  cases h : line.isMetered <;> simp [h]

/-- Once the tasks are joined the emitter is silent, and the newest metrics line
is the final one as soon as `main` has logged it. -/
structure Metered (w : World) (log : List Line) : Prop where
  joined : w.main.joined = true → w.emitter = false
  final : (currentFinal log).isSome ↔ w.Reported

theorem LoggedRun.metered (h : LoggedRun cfg w log) : Metered w log := by
  induction h with
  | start =>
      constructor
      · simp [World.new, MainPc.joined]
      · simp [currentFinal, World.Reported, World.new]
  | @step w w' log a hlog hstep hother ih =>
      have hm := main_step hstep
      constructor
      · intro hjoined
        exact hm.emitter ((hm.joined hjoined).elim ih.joined id)
      · rw [ih.final]
        constructor
        · rintro ⟨result, hmain⟩
          exact ⟨result, hm.stays result hmain⟩
        · rintro ⟨result, hmain⟩
          rcases hm.exited result hmain with hbefore | hbefore
          · exact ⟨result, hbefore⟩
          · rw [hother result hbefore] at hmain
            simp at hmain
  | @final w w' log a result line hlog hstep hbefore hafter hfinal ih =>
      have hm := main_step hstep
      constructor
      · intro hjoined
        exact hm.emitter ((hm.joined hjoined).elim ih.joined id)
      · have hmetered : line.isMetered = true := by simp [Line.isMetered, hfinal]
        rw [currentFinal_concat, if_pos hmetered]
        simp only [Option.filter_some, hfinal, if_true, Option.isSome_some, true_iff]
        exact ⟨result, hafter⟩
  | @tick w log line hlog hemitter hmessage ih =>
      refine ⟨ih.joined, ?_⟩
      have hmetered : line.isMetered = true := by simp [Line.isMetered, hmessage]
      have hnot : line.isFinal = false := by simp [Line.isFinal, hmessage]
      rw [currentFinal_concat, if_pos hmetered]
      simp only [Option.filter_some, hnot, Bool.false_eq_true, if_false, Option.isSome_none, false_iff]
      rintro ⟨result, hmain⟩
      have hsilent := ih.joined (by rw [hmain]; rfl)
      rw [hemitter] at hsilent
      simp at hsilent
  | @other w log line hlog hnot ih =>
      refine ⟨ih.joined, ?_⟩
      rw [currentFinal_concat, hnot]
      exact ih.final

/-- The newest metrics line of a process is the final one exactly when `main` exited
after the flush, whatever `ws::run` returned. -/
theorem newest_metered_isFinal (p : ExtractorProcess) :
    (currentFinal p.log).isSome ↔ p.world.Reported :=
  p.logged.metered.final

theorem exited_of_run {actions : List Action} {last : World} {result : Ws.Result}
    (hrun : (system cfg).run w actions = some last) (hmain : w.main = .exited (.ok result)) :
    last.main = .exited (.ok result) := by
  induction actions generalizing w with
  | nil =>
      cases hrun
      exact hmain
  | cons a actions ih =>
      obtain ⟨next, hstep, hrest⟩ := Option.bind_eq_some_iff.mp hrun
      exact ih hrest ((main_step hstep).stays result hmain)

/-- A process that does not get as far as the end of `main` need not log metrics. -/
theorem LoggedRun.run {actions : List Action} {last : World} (h : LoggedRun cfg w log)
    (hrun : (system cfg).run w actions = some last)
    (hopen : ∀ result, last.main ≠ .exited (.ok result)) : LoggedRun cfg last log := by
  induction actions generalizing w with
  | nil =>
      cases hrun
      exact h
  | cons a actions ih =>
      obtain ⟨next, hstep, hrest⟩ := Option.bind_eq_some_iff.mp hrun
      refine ih (h.step hstep ?_) hrest
      intro result hreporting
      rcases (main_step hstep).reports result hreporting with hstill | hexited
      · exact hstill
      · exact absurd (exited_of_run hrest hexited) (hopen result)

end Lakehouse.Extractor
