/-
The batch window over whole runs of the loop.

The clock readings that matter are logged with what they were taken for. From
the log alone follows since when the batch of the moment counts: `opening`. The
window keeps that instant at every point of the loop where it is looked at.

* `Life`: the runs, with the log of the process that runs.
* `InStep`: the window is open exactly if there are bars, since `opening`.
* `tracks_step`, `Life.tracks`: one step, and every run.
* `window_in_step`: the window after an iteration, and when it makes a flush.
-/

import Lakehouse.Loader.Durability

namespace Lakehouse.Loader

variable {Payload Bar : Type}

/-! ### The log of a process -/

inductive WindowEvent where
  /-- The first bar came into an empty batch. -/
  | entered (nanoTime : Int)
  /-- Full batches were flushed and left a remainder. -/
  | remainder (nanoTime : Int)
  /-- The batch was emptied. -/
  | emptied
  /-- The age of a batch was checked. -/
  | checked (nanoTime : Int)
deriving DecidableEq, Repr

def WindowEvent.reading? : WindowEvent → Option Int
  | .entered r => some r
  | .remainder r => some r
  | .emptied => none
  | .checked r => some r

/-- The clock readings of a log. -/
def readings (log : List WindowEvent) : List Int := log.filterMap WindowEvent.reading?

/-- The instant a batch counts from after an event. -/
def openingAfter (opening : Option Int) : WindowEvent → Option Int
  | .entered r => some r
  | .remainder r => some r
  | .emptied => none
  | .checked _ => opening

/-- The instant the batch of the moment counts from, if it has bars. -/
def opening (log : List WindowEvent) : Option Int := log.foldl openingAfter none

/-- The clock never goes back, and is not `-1` at any reading. -/
structure Clock (log : List WindowEvent) : Prop where
  nondecreasing : (readings log).Pairwise (· ≤ ·)
  span : ∀ a ∈ readings log, ∀ b ∈ readings log, b - a < 2 ^ 63
  noSentinel : BatchWindow.CLOSED ∉ readings log

/-- What a step of a process logs. -/
def occurred (a : Action Payload) (p p' : Process Bar) : List WindowEvent :=
  match a with
  | .poll _ c =>
      if p.batch.isEmpty && (p'.polled.drop p.polled.length).any fun r => !r.bars.isEmpty then
        [.entered c.nano]
      else []
  | .resetWindow c => if p.batch.isEmpty then [.emptied] else [.remainder c.nano]
  | .ageCheck c =>
      if p.batch.isEmpty then []
      else if p'.batch.isEmpty then [.checked c.nano, .emptied]
      else [.checked c.nano]
  | _ => []

/-- The log after a step; a process starts with an empty one. -/
def logAfter (log : List WindowEvent) (w : World Payload Bar) (a : Action Payload)
    (w' : World Payload Bar) : List WindowEvent :=
  match w.loader, w'.loader with
  | some p, some p' => log ++ occurred a p p'
  | _, _ => []

/-- The worlds a run reaches, with the log of the process that runs in them. -/
inductive Life (s : Settings Payload Bar) : World Payload Bar → List WindowEvent → Prop where
  | init {w : World Payload Bar} : Main.Initial w → Life s w []
  | step {w w' : World Payload Bar} {log : List WindowEvent} {a : Action Payload} :
      Life s w log → (Main.system s).step w a = some w' → Life s w' (logAfter log w a w')

/-- Every reachable world has a log. -/
theorem exists_life_iff {s : Settings Payload Bar} {w : World Payload Bar} :
    (∃ log, Life s w log) ↔ (Main.system s).Reachable w := by
  constructor
  · rintro ⟨log, h⟩
    induction h with
    | init hinit => exact .init hinit
    | step _ hstep ih => exact ih.step hstep
  · intro h
    induction h with
    | init hinit => exact ⟨[], .init hinit⟩
    | step _ hstep ih =>
        obtain ⟨log, hlog⟩ := ih
        exact ⟨_, hlog.step hstep⟩

/-- The log at the end of a run. -/
def runLog (s : Settings Payload Bar) :
    World Payload Bar → List WindowEvent → List (Action Payload) → List WindowEvent
  | _, log, [] => log
  | w, log, a :: rest =>
      match (Main.system s).step w a with
      | none => log
      | some next => runLog s next (logAfter log w a next) rest

theorem Life.of_run {s : Settings Payload Bar} {w last : World Payload Bar}
    {log : List WindowEvent} {actions : List (Action Payload)} (h : Life s w log)
    (hrun : (Main.system s).run w actions = some last) : Life s last (runLog s w log actions) := by
  induction actions generalizing w log with
  | nil =>
      cases hrun
      exact h
  | cons a rest ih =>
      rw [Transition.System.run_cons] at hrun
      obtain ⟨next, hstep, hrest⟩ := Option.bind_eq_some_iff.mp hrun
      rw [runLog, hstep]
      exact ih (h.step hstep) hrest

/-! ### The instant a batch counts from -/

section Opening

variable {log : List WindowEvent}

@[simp] theorem opening_nil : opening [] = none := rfl

@[simp] theorem opening_append_singleton (log : List WindowEvent) (e : WindowEvent) :
    opening (log ++ [e]) = openingAfter (opening log) e := by
  simp [opening]

@[simp] theorem readings_append (log log' : List WindowEvent) :
    readings (log ++ log') = readings log ++ readings log' := List.filterMap_append

theorem foldl_checked {after : List WindowEvent} (h : ∀ e ∈ after, ∃ c, e = .checked c)
    (start : Option Int) : after.foldl openingAfter start = start := by
  induction after with
  | nil => rfl
  | cons e after ih =>
      obtain ⟨c, rfl⟩ := h e List.mem_cons_self
      exact ih fun e he => h e (List.mem_cons_of_mem _ he)

/-- It is the reading of the newest event that began a batch, and the batch has not
been emptied since. -/
theorem opening_eq_some_iff {r : Int} :
    opening log = some r ↔ ∃ before e after, log = before ++ e :: after ∧
      (e = .entered r ∨ e = .remainder r) ∧ ∀ e ∈ after, ∃ c, e = .checked c := by
  constructor
  · intro h
    induction log using List.reverseRecOn with
    | nil => cases h
    | append_singleton log e ih =>
        rw [opening_append_singleton] at h
        cases e with
        | entered c =>
            cases h
            exact ⟨log, _, [], rfl, .inl rfl, by simp⟩
        | remainder c =>
            cases h
            exact ⟨log, _, [], rfl, .inr rfl, by simp⟩
        | emptied => cases h
        | checked c =>
            obtain ⟨before, e, after, rfl, he, hafter⟩ := ih h
            refine ⟨before, e, after ++ [.checked c], by simp, he, fun e he => ?_⟩
            rcases List.mem_append.mp he with he | he
            · exact hafter e he
            · exact ⟨c, List.mem_singleton.mp he⟩
  · rintro ⟨before, e, after, rfl, he, hafter⟩
    rw [opening, List.foldl_append, List.foldl_cons]
    rcases he with rfl | rfl
    · exact foldl_checked hafter _
    · exact foldl_checked hafter _

theorem opening_mem_readings {r : Int} (h : opening log = some r) : r ∈ readings log := by
  obtain ⟨before, e, after, rfl, he, -⟩ := opening_eq_some_iff.mp h
  refine List.mem_filterMap.mpr ⟨e, List.mem_append_right _ List.mem_cons_self, ?_⟩
  rcases he with rfl | rfl
  · rfl
  · rfl

end Opening

/-! ### The window and the batch -/

/-- The window is open exactly if there are bars, since the instant they count from. -/
def InStep (p : Process Bar) (log : List WindowEvent) : Prop :=
  if p.batch.isEmpty then p.batchWindow.openedAt = BatchWindow.CLOSED ∧ opening log = none
  else opening log = some p.batchWindow.openedAt

/-- What holds at each point of the loop. The window is not looked at while full
batches are flushed, and set anew behind them. -/
def Tracks (p : Process Bar) (log : List WindowEvent) : Prop :=
  match p.pc with
  | .loopHead => InStep p log
  | .polling => InStep p log
  | .ageCheck => InStep p log
  | .heartbeat => InStep p log
  | .flushing _ .aged _ => p.batch.isEmpty = true ∧ opening log = none
  | _ => True

theorem tracks_fresh (broker : Broker Payload) (health : LoaderHealthReporter)
    {batch : BoundedBatch Bar} (h : batch.pending = []) :
    Tracks (Main.fresh broker health batch) [] := by
  have hempty : batch.isEmpty = true := by simp [BoundedBatch.isEmpty, h]
  show InStep _ _
  unfold InStep
  exact (if_pos hempty).mpr ⟨rfl, rfl⟩

/-- What a record logs. -/
theorem occurred_received {p : Process Bar} (tp : TopicPartition) (offset : Nat) (bars : List Bar)
    (c : Readings) :
    occurred (.poll (some tp) c : Action Payload) p (Main.received p tp offset bars c) =
      if p.batch.isEmpty && !bars.isEmpty then [.entered c.nano] else [] := by
  simp [occurred, Main.received]

/-- A batch is empty after a record exactly if it was before and the record has no bars,
unless the record filled it. -/
theorem isEmpty_add {b : BoundedBatch Bar} {source : Source} {bars : List Bar}
    (h : (b.add source bars).2 = []) :
    (b.add source bars).1.isEmpty = (b.isEmpty && bars.isEmpty) := by
  have hentries := b.add_entries source bars
  rw [h, List.flatMap_nil, List.nil_append] at hentries
  unfold BoundedBatch.isEmpty
  rw [hentries, Bool.eq_iff_iff]
  simp [sourceEntries_eq_nil_iff]

/-- A record: an empty batch begins with its first bar. -/
theorem tracks_received {p : Process Bar} {log : List WindowEvent} (tp : TopicPartition)
    (offset : Nat) (bars : List Bar) (c : Readings) (h : InStep p log) :
    Tracks (Main.received p tp offset bars c)
      (log ++ occurred (.poll (some tp) c : Action Payload) p
        (Main.received p tp offset bars c)) := by
  rw [occurred_received]
  cases hfull : (p.batch.add ⟨tp.topic, tp.partition, offset⟩ bars).2 with
  | cons first rest => simp [Tracks, Main.received, hfull, Main.afterAdd]
  | nil =>
      have hempty := isEmpty_add hfull
      have hpc : (Main.received p tp offset bars c).pc = .ageCheck := by
        simp [Main.received, hfull, Main.afterAdd]
      simp only [Tracks, hpc]
      unfold InStep at h ⊢
      simp only [Main.received, hempty]
      cases hwas : p.batch.isEmpty with
      | false => simpa [hwas] using h
      | true =>
          rw [hwas, if_pos rfl] at h
          cases hbars : bars.isEmpty with
          | true => simpa using h
          | false => simp [BatchWindow.openAt, h.1, openingAfter]

/-- One step of a process. -/
theorem tracks_step {s : Settings Payload Bar} {w w' : World Payload Bar} {p p' : Process Bar}
    {a : Action Payload} {log : List WindowEvent} (h : Tracks p log)
    (hstep : Main.ProcessStep s w p a w') (hp' : w'.loader = some p') :
    Tracks p' (log ++ occurred a p p') := by
  unfold Tracks at h
  cases hstep with
  | assign hpc =>
      cases hp'
      rw [hpc] at h
      simpa [Tracks, hpc, occurred, InStep] using h
  | pollNothing hpc =>
      cases hp'
      rw [hpc] at h
      simpa [Tracks, occurred, InStep] using h
  | decodeFailed => cases hp'
  | received hpc =>
      cases hp'
      rw [hpc] at h
      exact tracks_received _ _ _ _ h
  | pollFailed => cases hp'
  | announced hpc =>
      rename_i batch resume c
      cases hp'
      rw [hpc] at h
      cases resume with
      | aged => simpa [Tracks, occurred] using h
      | _ => trivial
  | nothingToWrite hpc =>
      rename_i batch resume startedAt outcome c _
      cases hp'
      rw [hpc] at h
      cases resume with
      | aged => simpa [Tracks, occurred] using h
      | _ => trivial
  | dataFileFailed => cases hp'
  | dataFileWritten hpc =>
      rename_i batch resume startedAt outcome c table file _ _
      cases hp'
      rw [hpc] at h
      cases resume with
      | aged => simpa [Tracks, occurred] using h
      | _ => trivial
  | tableCommitFailed => cases hp'
  | tableCommitted hpc =>
      rename_i batch resume startedAt file outcome c table _
      cases hp'
      rw [hpc] at h
      cases resume with
      | aged => simpa [Tracks, occurred] using h
      | _ => trivial
  | offsetCommitFailed => cases hp'
  | offsetsCommitted hpc =>
      rename_i batch resume startedAt inserted outcome c health payloads _ _
      cases hp'
      rw [hpc] at h
      cases resume with
      | fullBatches rest => cases rest <;> trivial
      | aged =>
          have hresult : InStep (Main.flushDone p batch .aged health) log :=
            (if_pos h.1).mpr ⟨rfl, h.2⟩
          simpa [Tracks, Main.flushDone, Main.afterFlush, occurred] using hresult
      | closing => trivial
  | windowReset hpc =>
      rename_i c
      cases hp'
      cases hempty : p.batch.isEmpty with
      | true => simp [Tracks, InStep, occurred, hempty, BatchWindow.reset, openingAfter]
      | false => simp [Tracks, InStep, occurred, hempty, BatchWindow.reset, openingAfter]
  | aged hpc hne hexpired hdrain =>
      rename_i c rest drained
      cases hp'
      have hdrained : rest.isEmpty = true := by
        rw [BoundedBatch.isEmpty, (BoundedBatch.drain_eq_some hdrain).2.2.1]
        rfl
      simp [Tracks, occurred, hne, hdrained, opening, openingAfter]
  | notAged hpc _ =>
      cases hp'
      rw [hpc] at h
      cases hempty : p.batch.isEmpty with
      | true => simpa [Tracks, InStep, occurred, hempty] using h
      | false => simpa [Tracks, InStep, occurred, hempty, openingAfter] using h
  | heartbeat hpc =>
      cases hp'
      rw [hpc] at h
      simpa [Tracks, occurred, InStep] using h
  | enteredLoop hpc =>
      cases hp'
      rw [hpc] at h
      simpa [Tracks, occurred, InStep] using h
  | leftLoop =>
      cases hp'
      trivial
  | finalFlush =>
      cases hp'
      trivial
  | closed => cases hp'
  | stopped =>
      cases hp'
      simpa [Tracks, occurred, InStep] using h
  | crashed => cases hp'

theorem logAfter_running {w w' : World Payload Bar} {p p' : Process Bar} (hp : w.loader = some p)
    (hp' : w'.loader = some p') (log : List WindowEvent) (a : Action Payload) :
    logAfter log w a w' = log ++ occurred a p p' := by
  unfold logAfter
  rw [hp, hp']

/-- Every run: the window of the process that runs tracks its batch. -/
theorem Life.tracks {s : Settings Payload Bar} {w : World Payload Bar} {log : List WindowEvent}
    (h : Life s w log) {p : Process Bar} (hp : w.loader = some p) : Tracks p log := by
  induction h generalizing p with
  | init hinit =>
      rw [hinit.2.2.2] at hp
      cases hp
  | @step w w' log a _ hstep ih =>
      cases Main.step_cases hstep with
      | produce =>
          have hprev : w.loader = some p := hp
          rw [logAfter_running hprev hp]
          show Tracks p (log ++ [])
          rw [List.append_nil]
          exact ih hprev
      | startRefused hnone =>
          rw [hnone] at hp
          cases hp
      | startFailed => cases hp
      | started hnone _ hbatch =>
          cases hp
          unfold logAfter
          rw [hnone]
          exact tracks_fresh _ _ (BoundedBatch.new_eq_ok hbatch).1
      | process hprev hs =>
          rw [logAfter_running hprev hp]
          exact tracks_step (ih hprev) hs hp

/-! ### Iterations -/

theorem clock_of_append {log log' : List WindowEvent} (h : Clock (log ++ log')) : Clock log := by
  obtain ⟨hmono, hspan, hsentinel⟩ := h
  rw [readings_append] at hmono hspan hsentinel
  exact ⟨(List.pairwise_append.mp hmono).1,
    fun a ha b hb => hspan a (List.mem_append_left _ ha) b (List.mem_append_left _ hb),
    fun h => hsentinel (List.mem_append_left _ h)⟩

/-- The check of a batch with bars is logged. -/
theorem clock_checked {p p' : Process Bar} {log : List WindowEvent} {c : Readings}
    (hne : p.batch.isEmpty = false)
    (h : Clock (log ++ occurred (.ageCheck c : Action Payload) p p')) :
    Clock (log ++ [.checked c.nano]) := by
  simp only [occurred, hne, Bool.false_eq_true, if_false] at h
  split at h
  · exact @clock_of_append (log ++ [.checked c.nano]) [.emptied] (by simpa using h)
  · exact h

/-- With a sane clock the window is open exactly if there are bars. -/
theorem open_iff_of_inStep {p : Process Bar} {log : List WindowEvent} (hclock : Clock log)
    (h : InStep p log) : p.batchWindow.openedAt ≠ BatchWindow.CLOSED ↔ p.batch.isEmpty = false := by
  unfold InStep at h
  split at h
  · rename_i hempty
    simp [h.1, hempty]
  · rename_i hne
    have hopen : p.batchWindow.openedAt ≠ BatchWindow.CLOSED := fun hclosed =>
      hclock.noSentinel (hclosed ▸ opening_mem_readings h)
    simp [hopen, hne]

theorem opening_of_inStep {p : Process Bar} {log : List WindowEvent} (h : InStep p log) :
    opening log = if p.batch.isEmpty then none else some p.batchWindow.openedAt := by
  unfold InStep at h
  split at h
  · rename_i hempty
    rw [if_pos hempty, h.2]
  · rename_i hne
    rw [if_neg hne, h]

/-- A reading after the opening is at its distance from it. -/
theorem expired_iff {p : Process Bar} {log : List WindowEvent} {maxWait : Duration} {r : Int}
    (hclock : Clock (log ++ [.checked r])) (h : InStep p log) (hne : p.batch.isEmpty = false) :
    p.batchWindow.expired maxWait r = true ↔ maxWait ≤ r - p.batchWindow.openedAt := by
  have hopen := (open_iff_of_inStep (clock_of_append hclock) h).mpr hne
  have hopening : opening log = some p.batchWindow.openedAt := by
    rw [opening_of_inStep h, hne]
    rfl
  have hopened := opening_mem_readings hopening
  obtain ⟨hmono, hspan, -⟩ := hclock
  rw [readings_append] at hmono hspan
  have hread : r ∈ readings [.checked r] := List.mem_singleton_self r
  have hle := (List.pairwise_append.mp hmono).2.2 _ hopened _ hread
  have hlt := hspan _ (List.mem_append_left _ hopened) _ (List.mem_append_right _ hread)
  unfold BatchWindow.expired
  rw [toLong_of_range (by omega)]
  simp [hopen]

/-- After an iteration the window is open exactly if there are bars, since the instant
they count from; and an iteration flushes a partial batch exactly if it is that old. -/
theorem window_in_step {s : Settings Payload Bar} {w : World Payload Bar} {log : List WindowEvent}
    {p : Process Bar} (h : Life s w log) (hp : w.loader = some p) (hclock : Clock log) :
    (p.pc = .loopHead →
      (p.batchWindow.openedAt ≠ BatchWindow.CLOSED ↔ p.batch.isEmpty = false) ∧
        opening log = if p.batch.isEmpty then none else some p.batchWindow.openedAt) ∧
    (∀ r, opening log = some r → ∃ before e after, log = before ++ e :: after ∧
      (e = .entered r ∨ e = .remainder r) ∧ ∀ e ∈ after, ∃ c, e = .checked c) ∧
    ∀ c w' p', (Main.system s).step w (.ageCheck c) = some w' → w'.loader = some p' →
      Clock (logAfter log w (.ageCheck c) w') →
      ((∃ batch, p'.pc = .flushing batch .aged .announce) ↔
        p.batch.isEmpty = false ∧ ∃ r, opening log = some r ∧ s.maxWait ≤ c.nano - r) := by
  have htracks := h.tracks hp
  unfold Tracks at htracks
  refine ⟨?_, fun _ => opening_eq_some_iff.mp, ?_⟩
  · intro hpc
    rw [hpc] at htracks
    exact ⟨open_iff_of_inStep hclock htracks, opening_of_inStep htracks⟩
  · intro c w' p' hstep hp' hclock'
    rw [logAfter_running hp hp'] at hclock'
    have hcases : Main.Step s w (.ageCheck c) w' := Main.step_cases hstep
    cases hcases with
    | process hprev hs =>
        cases hprev.symm.trans hp
        cases hs with
        | aged hpc hne hexpired hdrain =>
            cases hp'
            rw [hpc] at htracks
            have hage := (expired_iff (clock_checked hne hclock') htracks hne).mp hexpired
            refine iff_of_true ⟨_, rfl⟩ ⟨hne, _, ?_, hage⟩
            rw [opening_of_inStep htracks, hne]
            rfl
        | notAged hpc hnot =>
            cases hp'
            rw [hpc] at htracks
            refine iff_of_false ?_ ?_
            · rintro ⟨batch, hbatch⟩
              cases hbatch
            · rintro ⟨hne, r, hr, hage⟩
              rw [opening_of_inStep htracks, hne] at hr
              cases hr
              rcases hnot with hempty | hyoung
              · rw [hne] at hempty
                cases hempty
              · rw [(expired_iff (clock_checked hne hclock') htracks hne).mpr hage] at hyoung
                cases hyoung

/-- Three bars come into an empty batch; two are flushed and one is left. -/
def remainderRun : List (Action (List Nat)) :=
  [.produce Main.samplePartition 0 [1, 2, 3]] ++ Main.pollSteps 1 ++ Main.flushSteps 1 ++
    [.resetWindow (Main.second 2), .ageCheck (Main.second 3), .heartbeat none (Main.second 3)]

theorem remainderRun_opening : ∃ w p log,
    (Main.system Main.sampleSettings).run Main.sampleWorld remainderRun = some w ∧
      w.loader = some p ∧ Life Main.sampleSettings w log ∧ p.pc = .loopHead ∧
      p.batchWindow.openedAt ≠ BatchWindow.CLOSED ∧ opening log = some 2000000000 := by
  obtain ⟨w, p, hrun, hp, hpc, hne⟩ : ∃ w p,
      (Main.system Main.sampleSettings).run Main.sampleWorld remainderRun = some w ∧
        w.loader = some p ∧ p.pc = .loopHead ∧ p.batch.isEmpty = false :=
    ⟨_, _, rfl, rfl, rfl, rfl⟩
  have hlife := (Life.init Main.sampleWorld_initial).of_run hrun
  have hlog : runLog Main.sampleSettings Main.sampleWorld [] remainderRun =
      [.entered 1000000000, .remainder 2000000000, .checked 3000000000] := rfl
  rw [hlog] at hlife
  have hclock : Clock [.entered 1000000000, .remainder 2000000000, .checked 3000000000] := by
    constructor <;> simp [readings, WindowEvent.reading?, BatchWindow.CLOSED]
  exact ⟨w, p, _, hrun, hp, hlife, hpc, ((window_in_step hlife hp hclock).1 hpc).1.mpr hne, rfl⟩

end Lakehouse.Loader
