/-
Stall detection over the sample history of one reporter.

The reporter keeps four fields: since when lag is positive, when a committed
offset last advanced, the offsets of the previous sample, and the state of the
previous heartbeat. The history says the same without them: `Resets` names the
samples at which the stall clock starts again, `lastReset` the latest of them.

* `Clock`, `clock_samples` — the fields are a function of the history.
* `outcome_reports` — what a due sample outside a commit reports.
* `stalled_iff_no_progress` — stalled is positive lag and no reset within the
  threshold, and it is announced once for each stretch of stalled heartbeats.
-/

import Mathlib.Data.Nat.Find
import Lakehouse.Loader.HealthRun

namespace Lakehouse.Loader.LoaderHealthReporter

variable {Bar : Type}

/-- The committed offset a sample reads for a partition. -/
def ConsumerSample.committedOffset (c : ConsumerSample) (tp : TopicPartition) : Nat :=
  (partitionOffsets c tp).committedOffset

/-- The records of the assigned partitions behind their committed offsets. -/
def ConsumerSample.lag (c : ConsumerSample) : Nat :=
  (c.assignment.map fun tp => (partitionOffsets c tp).lagRecords).sum

/-- Some partition of both samples has a larger committed offset in the later one. -/
def ConsumerSample.Advanced (before c : ConsumerSample) : Prop :=
  ∃ tp ∈ before.assignment, tp ∈ c.assignment ∧ before.committedOffset tp < c.committedOffset tp

instance (before c : ConsumerSample) : Decidable (before.Advanced c) :=
  inferInstanceAs (Decidable (∃ tp ∈ before.assignment,
    tp ∈ c.assignment ∧ before.committedOffset tp < c.committedOffset tp))

def Sample.lag (s : Sample Bar) : Nat := s.consumer.lag

/-- The heartbeat payload of the sample carries this state. -/
def Sample.Reports (s : Sample Bar) (state : State) : Prop :=
  ∃ payload ∈ s.outcome.2, field payload "event" = some (.str "heartbeat") ∧
    field payload "state" = some (.str state.value)

/-- The sample prints a `stalled` event. -/
def Sample.AnnouncesStall (s : Sample Bar) : Prop :=
  ∃ payload ∈ s.outcome.2, field payload "event" = some (.str "stalled")

/-- The sample before the `k`-th. -/
def prior (samples : List (Sample Bar)) : Nat → Option (Sample Bar)
  | 0 => none
  | k + 1 => samples[k]?

/-- The stall clock starts again at the `k`-th sample: it has no lag, a committed
offset advanced since the sample before it, or it is the first with lag. -/
def Resets (samples : List (Sample Bar)) (k : Nat) : Prop :=
  ∃ s ∈ samples[k]?, s.lag = 0 ∨
    (∃ p ∈ prior samples k, p.consumer.Advanced s.consumer) ∨
    (0 < s.lag ∧ ∀ p ∈ prior samples k, p.lag = 0)

instance (samples : List (Sample Bar)) : DecidablePred (Resets samples) := fun k =>
  inferInstanceAs (Decidable (∃ s ∈ samples[k]?, s.lag = 0 ∨
    (∃ p ∈ prior samples k, p.consumer.Advanced s.consumer) ∨
    (0 < s.lag ∧ ∀ p ∈ prior samples k, p.lag = 0)))

/-- The latest sample up to the `n`-th at which the stall clock started. -/
def lastReset (samples : List (Sample Bar)) (n : Nat) : Nat := Nat.findGreatest (Resets samples) n

/-! ### One sample -/

/-- The map `updateProgress` rebuilds from the rows. -/
def rowOffsets (rows : List PartitionOffsets) : List (TopicPartition × Nat) :=
  rows.map fun (o : PartitionOffsets) => (⟨o.topic, o.partition⟩, o.committedOffset)

theorem lookup_of_functional {α β : Type} [DecidableEq α] {f : α → β} {l : List (α × β)}
    (hl : ∀ p ∈ l, p.2 = f p.1) (a : α) :
    l.lookup a = if a ∈ l.map Prod.fst then some (f a) else none := by
  induction l with
  | nil => rfl
  | cons p rest ih =>
      obtain ⟨key, value⟩ := p
      have hvalue : value = f key := hl _ List.mem_cons_self
      have hrest := ih fun q hq => hl q (List.mem_cons_of_mem _ hq)
      by_cases hkey : a = key
      · subst hkey
        simp [hvalue]
      · simp only [List.map_cons, List.mem_cons, hkey, false_or, List.lookup_cons,
          beq_false_of_ne hkey, hrest]

/-- The rows of a sample hold the committed offset of each assigned partition. -/
theorem lookup_rowOffsets (c : ConsumerSample) (tp : TopicPartition) :
    (rowOffsets (offsets c)).lookup tp =
      if tp ∈ c.assignment then some (c.committedOffset tp) else none := by
  have hperm : (rowOffsets (offsets c)).Perm
      (c.assignment.map fun tp => (tp, c.committedOffset tp)) := by
    have h := (List.perm_insertionSort PartitionOffsets.Le
      (c.assignment.map (partitionOffsets c))).map
        fun (o : PartitionOffsets) => ((⟨o.topic, o.partition⟩ : TopicPartition), o.committedOffset)
    rw [List.map_map] at h
    exact h
  rw [lookup_of_functional (f := c.committedOffset)]
  · have hmem : tp ∈ (rowOffsets (offsets c)).map Prod.fst ↔ tp ∈ c.assignment := by
      rw [(hperm.map Prod.fst).mem_iff, List.map_map]
      simp [Function.comp_def]
    simp only [hmem]
  · intro p hp
    obtain ⟨tp, _, rfl⟩ := List.mem_map.mp (hperm.mem_iff.mp hp)
    rfl

/-- The offsets kept of a sample, none before the first. -/
def keptOffsets (before : Option ConsumerSample) : List (TopicPartition × Nat) :=
  match before with
  | some c => rowOffsets (offsets c)
  | none => []

/-- What `updateProgress` calls progress is an advance over the sample before. -/
theorem progressed_iff {h : LoaderHealthReporter} {before : Option ConsumerSample}
    (hkept : h.previousCommittedOffsets = keptOffsets before) (c : ConsumerSample) (lag : Nat)
    (now : Instant) :
    (h.updateProgress (offsets c) lag now).2 = true ↔ ∃ p ∈ before, p.Advanced c := by
  have hany : (h.updateProgress (offsets c) lag now).2 = true ↔ ∃ o ∈ offsets c,
      ∃ previous ∈ h.previousCommittedOffsets.lookup ⟨o.topic, o.partition⟩,
        previous < o.committedOffset := by
    unfold updateProgress
    dsimp only
    rw [apply_ite Prod.snd, ite_self, List.any_eq_true]
    refine exists_congr fun o => and_congr_right fun _ => ?_
    cases h.previousCommittedOffsets.lookup ⟨o.topic, o.partition⟩ with
    | none => simp
    | some previous => simp
  rw [hany, hkept]
  cases before with
  | none => simp [keptOffsets]
  | some p =>
      simp only [keptOffsets, lookup_rowOffsets, Option.mem_some_iff, exists_eq_left']
      have hrow : ∀ tp, (⟨(partitionOffsets c tp).topic, (partitionOffsets c tp).partition⟩ :
          TopicPartition) = tp := fun tp => rfl
      constructor
      · rintro ⟨row, hmem, previous, hprevious, hless⟩
        rw [offsets, (List.perm_insertionSort _ _).mem_iff, List.mem_map] at hmem
        obtain ⟨tp, htp, rfl⟩ := hmem
        rw [hrow] at hprevious
        by_cases hbefore : tp ∈ p.assignment
        · rw [if_pos hbefore] at hprevious
          obtain rfl := Option.some.inj hprevious
          exact ⟨tp, hbefore, htp, hless⟩
        · simp [hbefore] at hprevious
      · rintro ⟨tp, hbefore, htp, hless⟩
        refine ⟨partitionOffsets c tp, ?_, p.committedOffset tp, ?_, hless⟩
        · rw [offsets, (List.perm_insertionSort _ _).mem_iff]
          exact List.mem_map_of_mem htp
        · rw [hrow, if_pos hbefore]
          rfl

/-- The state a sample reports, from the clock as the sample leaves it. -/
def Sample.state (s : Sample Bar) : State :=
  let h := (s.reporter.updateProgress (offsets s.consumer) s.lag s.now).1
  inferState (!(offsets s.consumer).isEmpty) h.committing s.lag s.batch.barCount
    s.batch.sourceRecordCount h.positiveLagSince h.lastDurableProgressAt s.now h.stallThreshold

theorem State.value_injective {a b : State} (h : a.value = b.value) : a = b := by
  revert h
  cases a <;> cases b <;> decide

/-- What a due sample leaves in the reporter and prints: both payloads carry the
same fields, the state among them. -/
theorem outcome_of_due {s : Sample Bar} (hdue : s.reporter.due s.now = true) :
    s.outcome.1.tracking =
      { (s.reporter.updateProgress (offsets s.consumer) s.lag s.now).1.tracking with
        previousHeartbeatState := some s.state } ∧
    ∃ fields, s.outcome.2 =
      (if s.state = .stalled ∧ s.reporter.previousHeartbeatState ≠ some .stalled then
        [emit "stalled" "ERROR" fields s.stalledAt] else []) ++
          [emit "heartbeat" "INFO" fields s.emittedAt] ∧
      ∀ event level emittedAt, field (emit event level fields emittedAt) "event" =
          some (.str event) ∧
        field (emit event level fields emittedAt) "state" = some (.str s.state.value) := by
  have hlag : aggregateLag (offsets s.consumer) = s.lag := aggregateLag_offsets s.consumer
  have hprevious : (s.reporter.updateProgress (offsets s.consumer) s.lag s.now).1.previousHeartbeatState
      = s.reporter.previousHeartbeatState := by
    unfold updateProgress
    dsimp only
    split <;> rfl
  rw [← hprevious]
  simp only [Sample.outcome, maybeHeartbeat, hdue, hlag, Bool.not_true, Bool.false_eq_true, if_false]
  exact ⟨rfl, _, rfl, fun event level emittedAt => ⟨rfl, rfl⟩⟩

/-- A due sample prints its heartbeat, and a `stalled` event exactly when it is
stalled and the previous heartbeat was not. -/
theorem outcome_reports {s : Sample Bar} (hdue : s.reporter.due s.now = true) :
    (∀ state, s.Reports state ↔ s.state = state) ∧
    (s.AnnouncesStall ↔ s.state = .stalled ∧ s.reporter.previousHeartbeatState ≠ some .stalled) := by
  obtain ⟨-, fields, hprinted, hfields⟩ := outcome_of_due hdue
  have hheartbeat : emit "heartbeat" "INFO" fields s.emittedAt ∈ s.outcome.2 := by
    rw [hprinted]
    exact List.mem_append_right _ (List.mem_singleton_self _)
  have hevent : ∀ payload ∈ s.outcome.2, field payload "state" = some (.str s.state.value) ∧
      (field payload "event" = some (.str "heartbeat") ∨
        field payload "event" = some (.str "stalled") ∧ s.state = .stalled ∧
          s.reporter.previousHeartbeatState ≠ some .stalled) := by
    intro payload hpayload
    rw [hprinted] at hpayload
    split at hpayload
    · rename_i hnew
      rcases List.mem_cons.mp hpayload with rfl | hpayload
      · exact ⟨(hfields _ _ _).2, .inr ⟨(hfields _ _ _).1, hnew⟩⟩
      · rw [List.mem_singleton.mp hpayload]
        exact ⟨(hfields _ _ _).2, .inl (hfields _ _ _).1⟩
    · rw [List.mem_singleton.mp hpayload]
      exact ⟨(hfields _ _ _).2, .inl (hfields _ _ _).1⟩
  constructor
  · intro state
    constructor
    · rintro ⟨payload, hpayload, _, hstate⟩
      rw [(hevent payload hpayload).1] at hstate
      exact State.value_injective (by simpa using hstate)
    · rintro rfl
      exact ⟨_, hheartbeat, (hfields _ _ _).1, (hfields _ _ _).2⟩
  · constructor
    · rintro ⟨payload, hpayload, hstalled⟩
      rcases (hevent payload hpayload).2 with hother | ⟨_, hnew⟩
      · rw [hother] at hstalled
        simp at hstalled
      · exact hnew
    · intro hnew
      refine ⟨_, ?_, (hfields "stalled" "ERROR" s.stalledAt).1⟩
      rw [hprinted, if_pos hnew]
      exact List.mem_cons_self

/-! ### The clock and the history -/

/-- The reporter's fields after the samples `past`. -/
structure Clock (threshold : Duration) (past : List (Sample Bar)) (h : LoaderHealthReporter) :
    Prop where
  threshold_eq : h.stallThreshold = threshold
  offsets_eq : h.previousCommittedOffsets = keptOffsets (past.getLast?.map Sample.consumer)
  state_eq : h.previousHeartbeatState = past.getLast?.map Sample.state
  since_isSome : h.positiveLagSince.isSome ↔ ∃ last ∈ past.getLast?, 0 < last.lag
  not_later : ∀ t, h.positiveLagSince = some t ∨ h.lastDurableProgressAt = some t →
    ∃ last ∈ past.getLast?, t ≤ last.now
  boundary : ∀ last ∈ past.getLast?, 0 < last.lag →
    ∃ r ∈ past[lastReset past (past.length - 1)]?,
      later h.positiveLagSince h.lastDurableProgressAt = some r.now

theorem Clock.congr {threshold : Duration} {past : List (Sample Bar)} {h h' : LoaderHealthReporter}
    (hc : Clock threshold past h) (heq : h'.tracking = h.tracking) : Clock threshold past h' := by
  simp only [tracking, Tracking.mk.injEq] at heq
  obtain ⟨hoffsets, hsince, hprogress, hstate, hthreshold⟩ := heq
  exact {
    threshold_eq := hthreshold.trans hc.threshold_eq
    offsets_eq := hoffsets.trans hc.offsets_eq
    state_eq := hstate.trans hc.state_eq
    since_isSome := by rw [hsince]; exact hc.since_isSome
    not_later := by rw [hsince, hprogress]; exact hc.not_later
    boundary := by rw [hsince, hprogress]; exact hc.boundary }

theorem clock_new {topic : String} {heartbeatInterval stallThreshold : Duration} {now : Instant}
    {h : LoaderHealthReporter} (hnew : new topic heartbeatInterval stallThreshold now = .ok h) :
    Clock stallThreshold ([] : List (Sample Bar)) h := by
  unfold new at hnew
  split at hnew
  · split at hnew
    · cases hnew
      constructor <;> simp [keptOffsets]
    · simp at hnew
  · simp at hnew

section Prefixes

variable {past after : List (Sample Bar)} {s : Sample Bar}

theorem resets_append {k : Nat} (hk : k < past.length) :
    Resets (past ++ after) k ↔ Resets past k := by
  have hprior : prior (past ++ after) k = prior past k := by
    cases k with
    | zero => rfl
    | succ k => exact List.getElem?_append_left (by omega)
  unfold Resets
  rw [hprior, List.getElem?_append_left hk]

theorem prior_length : prior (past ++ after) past.length = past.getLast? := by
  rw [List.getLast?_eq_getElem?]
  cases hlength : past.length with
  | zero => simp [prior, List.length_eq_zero_iff.mp hlength]
  | succ k => exact List.getElem?_append_left (by omega)

theorem resets_length : Resets (past ++ s :: after) past.length ↔
    s.lag = 0 ∨ (∃ p ∈ past.getLast?, p.consumer.Advanced s.consumer) ∨
      (0 < s.lag ∧ ∀ p ∈ past.getLast?, p.lag = 0) := by
  unfold Resets
  rw [prior_length]
  simp

/-- Later samples do not move the reset of an earlier one. -/
theorem lastReset_append {n : Nat} (hn : n < past.length) :
    lastReset (past ++ after) n = lastReset past n := by
  unfold lastReset
  induction n with
  | zero => rfl
  | succ n ih =>
      rw [Nat.findGreatest_succ, Nat.findGreatest_succ, ih (by omega)]
      simp only [resets_append hn]

end Prefixes

theorem later_now {since : Option Instant} {now : Instant} (h : ∀ t, since = some t → t ≤ now) :
    later since (some now) = some now := by
  cases since with
  | none => rfl
  | some t =>
      simp [later, Int.not_lt.mpr (h t rfl)]

theorem now_later {progress : Option Instant} {now : Instant}
    (h : ∀ t, progress = some t → t ≤ now) : later (some now) progress = some now := by
  cases progress with
  | none => rfl
  | some t =>
      rcases Int.lt_or_eq_of_le (h t rfl) with hlt | rfl
      · simp [later, hlt]
      · simp [later]

/-- What `updateProgress` leaves in the two clock fields. -/
theorem updateProgress_clock (h : LoaderHealthReporter) (rows : List PartitionOffsets) (lag : Nat)
    (now : Instant) :
    let h' := (h.updateProgress rows lag now).1
    h'.stallThreshold = h.stallThreshold ∧ h'.committing = h.committing ∧
      h'.previousCommittedOffsets = rowOffsets rows ∧
      h'.positiveLagSince = (if lag = 0 then none else some (h.positiveLagSince.getD now)) ∧
      h'.lastDurableProgressAt =
        if lag = 0 ∨ (h.updateProgress rows lag now).2 = true then some now
        else h.lastDurableProgressAt := by
  unfold updateProgress
  by_cases hlag : lag = 0
  · simp only [hlag, if_true, true_or, rowOffsets, and_self]
  · simp only [hlag, if_false, false_or, rowOffsets, and_self]

/-- Outside a commit, an initialized reporter is stalled by the stall test alone. -/
theorem inferState_eq_stalled_iff {initialized committing : Bool} {lag bars sources : Nat}
    {since progress : Option Instant} {now : Instant} {threshold : Duration}
    (hquiet : committing = false) :
    inferState initialized committing lag bars sources since progress now threshold = .stalled ↔
      initialized = true ∧ stallExceeded lag since progress now threshold = true := by
  subst hquiet
  unfold inferState
  cases initialized with
  | false => simp
  | true =>
      cases stallExceeded lag since progress now threshold with
      | true => simp
      | false =>
          by_cases hahead : sources < lag
          · simp [hahead]
          · by_cases hheld : 0 < bars ∨ 0 < sources <;> simp [hahead, hheld]

/-- Lag needs an assigned partition. -/
theorem offsets_isEmpty_of_lag {s : Sample Bar} (hpos : 0 < s.lag) :
    (offsets s.consumer).isEmpty = false := by
  rw [List.isEmpty_eq_false_iff, Ne, offsets_eq_nil_iff]
  intro hnil
  simp [Sample.lag, ConsumerSample.lag, hnil] at hpos

section Step

variable {threshold : Duration} {past : List (Sample Bar)} {s : Sample Bar}
  (hc : Clock threshold past s.reporter) (hdue : s.reporter.due s.now = true)
  (htime : ∀ last ∈ past.getLast?, last.now ≤ s.now)

include hc htime

theorem Clock.not_later_now {t : Instant} (ht : s.reporter.positiveLagSince = some t ∨
    s.reporter.lastDurableProgressAt = some t) : t ≤ s.now := by
  obtain ⟨last, hlast, hle⟩ := hc.not_later t ht
  exact Int.le_trans hle (htime last hlast)

/-- After `updateProgress` neither clock field is later than the sample. -/
theorem Clock.updated_le {t : Instant} (ht :
    (s.reporter.updateProgress (offsets s.consumer) s.lag s.now).1.positiveLagSince = some t ∨
    (s.reporter.updateProgress (offsets s.consumer) s.lag s.now).1.lastDurableProgressAt = some t) :
    t ≤ s.now := by
  obtain ⟨_, _, _, hsince, hprogress⟩ :=
    updateProgress_clock s.reporter (offsets s.consumer) s.lag s.now
  rw [hsince, hprogress] at ht
  rcases ht with ht | ht
  · split at ht
    · simp at ht
    · cases hkept : s.reporter.positiveLagSince with
      | none =>
          rw [hkept] at ht
          exact Int.le_of_eq (Option.some.inj ht).symm
      | some since =>
          rw [hkept] at ht
          exact Clock.not_later_now hc htime (.inl (hkept.trans ht))
  · split at ht
    · exact Int.le_of_eq (Option.some.inj ht).symm
    · exact Clock.not_later_now hc htime (.inr ht)

omit hc htime in
theorem lastReset_concat (h : Resets (past ++ [s]) past.length) :
    (past ++ [s])[lastReset (past ++ [s]) past.length]? = some s := by
  have hlast : lastReset (past ++ [s]) past.length = past.length := Nat.findGreatest_eq h
  rw [hlast, List.getElem?_concat_length]

omit hc htime in
/-- Without a reset the clock runs on from where it was. -/
theorem lastReset_concat_of_not (hpast : past ≠ []) (h : ¬ Resets (past ++ [s]) past.length) :
    (past ++ [s])[lastReset (past ++ [s]) past.length]? = past[lastReset past (past.length - 1)]? := by
  obtain ⟨k, hk⟩ := Nat.exists_eq_succ_of_ne_zero (mt List.length_eq_zero_iff.mp hpast)
  have hsame : lastReset (past ++ [s]) past.length = lastReset past (past.length - 1) := by
    rw [hk] at h ⊢
    have hstep : lastReset (past ++ [s]) (k + 1) = lastReset (past ++ [s]) k :=
      Nat.findGreatest_of_not h
    exact hstep.trans (lastReset_append (by omega))
  have hbound : lastReset past (past.length - 1) < past.length :=
    Nat.lt_of_le_of_lt (Nat.findGreatest_le _) (by omega)
  rw [hsame, List.getElem?_append_left hbound]

/-- With lag, the boundary `inferState` compares with is the time of the latest
sample at which the stall clock started. -/
theorem Clock.boundary_step (hpos : 0 < s.lag) :
    ∃ r ∈ (past ++ [s])[lastReset (past ++ [s]) past.length]?,
      later (s.reporter.updateProgress (offsets s.consumer) s.lag s.now).1.positiveLagSince
        (s.reporter.updateProgress (offsets s.consumer) s.lag s.now).1.lastDurableProgressAt =
          some r.now := by
  obtain ⟨_, _, _, hsince, hprogress⟩ :=
    updateProgress_clock s.reporter (offsets s.consumer) s.lag s.now
  have hlag : ¬ s.lag = 0 := by omega
  have hadvanced : (s.reporter.updateProgress (offsets s.consumer) s.lag s.now).2 = true ↔
      ∃ p ∈ past.getLast?, p.consumer.Advanced s.consumer := by
    rw [progressed_iff hc.offsets_eq]
    simp
  simp only [hsince, hprogress, hlag, if_false, false_or]
  by_cases hprogressed : (s.reporter.updateProgress (offsets s.consumer) s.lag s.now).2 = true
  · refine ⟨s, lastReset_concat (resets_length.mpr (.inr (.inl (hadvanced.mp hprogressed)))), ?_⟩
    rw [if_pos hprogressed]
    refine later_now fun t ht => Clock.updated_le hc htime (.inl ?_)
    rw [hsince, if_neg hlag]
    exact ht
  · rw [if_neg hprogressed]
    by_cases hheld : ∃ last ∈ past.getLast?, 0 < last.lag
    · obtain ⟨last, hlast, hlastpos⟩ := hheld
      obtain ⟨since, hkept⟩ := Option.isSome_iff_exists.mp (hc.since_isSome.mpr ⟨last, hlast, hlastpos⟩)
      obtain ⟨r, hr, hboundary⟩ := hc.boundary last hlast hlastpos
      have hpast : past ≠ [] := by
        rintro rfl
        simp at hlast
      have hnot : ¬ Resets (past ++ [s]) past.length := by
        rw [resets_length]
        rintro (hzero | hmoved | ⟨_, hnone⟩)
        · exact hlag hzero
        · exact hprogressed (hadvanced.mpr hmoved)
        · have := hnone last hlast
          omega
      refine ⟨r, ?_, ?_⟩
      · rw [lastReset_concat_of_not hpast hnot]
        exact hr
      · rw [hkept] at hboundary ⊢
        exact hboundary
    · have hnone : s.reporter.positiveLagSince = none := by
        rw [← Option.not_isSome_iff_eq_none, hc.since_isSome]
        exact hheld
      have hfirst : ∀ p ∈ past.getLast?, p.lag = 0 := by
        intro p hp
        by_contra hp0
        exact hheld ⟨p, hp, by omega⟩
      refine ⟨s, lastReset_concat (resets_length.mpr (.inr (.inr ⟨hpos, hfirst⟩))), ?_⟩
      rw [hnone]
      exact now_later fun t ht => Clock.not_later_now hc htime (.inr ht)

/-- A sample moves the clock on, and its state is what the history says. -/
theorem Clock.step (hquiet : s.reporter.committing = false) (hdue : s.reporter.due s.now = true) :
    Clock threshold (past ++ [s]) s.outcome.1 ∧
      (s.state = .stalled ↔ 0 < s.lag ∧
        ∃ r ∈ (past ++ [s])[lastReset (past ++ [s]) past.length]?, threshold ≤ s.now - r.now) := by
  obtain ⟨hthreshold, hcommitting, hoffsets, hsince, hprogress⟩ :=
    updateProgress_clock s.reporter (offsets s.consumer) s.lag s.now
  have htracking := (outcome_of_due hdue).1
  simp only [tracking, Tracking.mk.injEq] at htracking
  obtain ⟨houtOffsets, houtSince, houtProgress, houtState, houtThreshold⟩ := htracking
  have hlast : (past ++ [s]).getLast? = some s := List.getLast?_concat
  refine ⟨?_, ?_⟩
  · constructor
    case threshold_eq => rw [houtThreshold, hthreshold, hc.threshold_eq]
    case offsets_eq => rw [houtOffsets, hoffsets, hlast]; rfl
    case state_eq => rw [houtState, hlast]; rfl
    case since_isSome =>
      rw [houtSince, hsince, hlast]
      by_cases hlag : s.lag = 0
      · simp [hlag]
      · simp [hlag, Nat.pos_of_ne_zero hlag]
    case not_later =>
      intro t ht
      rw [houtSince, houtProgress] at ht
      exact ⟨s, hlast, Clock.updated_le hc htime ht⟩
    case boundary =>
      intro last hmem hpos
      obtain rfl : s = last := by simpa [hlast] using hmem
      rw [houtSince, houtProgress, List.length_append, List.length_singleton, Nat.add_sub_cancel]
      exact Clock.boundary_step hc htime hpos
  · rw [Sample.state, inferState_eq_stalled_iff (hcommitting.trans hquiet), hthreshold, hc.threshold_eq]
    by_cases hpos : 0 < s.lag
    · obtain ⟨r, hr, hboundary⟩ := Clock.boundary_step hc htime hpos
      rw [Option.mem_def] at hr
      simp [stallExceeded, hboundary, hr, hpos, offsets_isEmpty_of_lag hpos]
    · have hzero : s.lag = 0 := by omega
      simp [hzero]

end Step

/-! ### Runs -/

theorem exists_split_of_getElem? {α : Type} {l : List α} {n : Nat} {a : α} (h : l[n]? = some a) :
    ∃ before after, l = before ++ a :: after ∧ before.length = n := by
  obtain ⟨hn, hget⟩ := List.getElem?_eq_some_iff.mp h
  refine ⟨l.take n, l.drop (n + 1), ?_, List.length_take_of_le (Nat.le_of_lt hn)⟩
  rw [← hget, ← List.drop_eq_getElem_cons hn, List.take_append_drop]

/-- Every sample of a run meets a reporter whose clock is the history before it. -/
theorem clock_samples {threshold : Duration} {past : List (Sample Bar)} {h : LoaderHealthReporter}
    (hc : Clock threshold past h) (calls : List (Call Bar))
    (hquiet : ∀ s ∈ samples h calls, s.reporter.committing = false)
    (htimes : (past ++ samples h calls).Pairwise fun a b => a.now ≤ b.now)
    {before after : List (Sample Bar)} {s : Sample Bar}
    (hs : samples h calls = before ++ s :: after) :
    s.reporter.due s.now = true ∧ Clock threshold (past ++ before) s.reporter := by
  induction calls generalizing past h before with
  | nil => simp [samples] at hs
  | cons call calls ih =>
      cases hsample : call.sample? h with
      | none =>
          have hskip : samples h (call :: calls) = samples (call.perform h).1 calls := by
            simp [samples, hsample]
          rw [hskip] at hquiet htimes hs
          exact ih (hc.congr (tracking_perform hsample)) hquiet htimes hs
      | some first =>
          have htake : samples h (call :: calls) = first :: samples first.outcome.1 calls := by
            simp [samples, hsample, (perform_of_sample hsample).2.2]
          rw [htake] at hquiet htimes hs
          obtain ⟨hreporter, hdue, _⟩ := perform_of_sample hsample
          rw [← hreporter] at hc hdue
          cases before with
          | nil =>
              obtain ⟨rfl, _⟩ := List.cons.inj hs
              rw [List.append_nil]
              exact ⟨hdue, hc⟩
          | cons earliest before =>
              obtain ⟨rfl, hrest⟩ := List.cons.inj hs
              have htime : ∀ last ∈ past.getLast?, last.now ≤ first.now := by
                intro last hlast
                exact (List.pairwise_append.mp htimes).2.2 last (List.mem_of_getLast? hlast) first
                  List.mem_cons_self
              have hnext := (Clock.step hc htime (hquiet first List.mem_cons_self) hdue).1
              have hall := ih hnext (fun s hs => hquiet s (List.mem_cons_of_mem _ hs))
                (by simpa using htimes) hrest
              simpa using hall

/-- Stall detection over a whole run of one reporter, whatever else is called
between the heartbeats. A sample with lag is stalled exactly when the stall
threshold has passed since the latest sample at which the clock started, stalls
are announced at the first heartbeat of each stalled stretch, and a failed
sample changes nothing stall detection remembers and prints nothing. -/
theorem stalled_iff_no_progress {topic : String} {heartbeatInterval stallThreshold : Duration}
    {startedAt : Instant} {reporter : LoaderHealthReporter}
    (hnew : new topic heartbeatInterval stallThreshold startedAt = .ok reporter)
    (calls : List (Call Bar))
    (hquiet : ∀ s ∈ samples reporter calls, s.reporter.committing = false)
    (htimes : (samples reporter calls).Pairwise fun a b => a.now ≤ b.now) :
    (∀ n s, (samples reporter calls)[n]? = some s →
      (s.Reports .stalled ↔ 0 < s.lag ∧
        ∃ r ∈ (samples reporter calls)[lastReset (samples reporter calls) n]?,
          stallThreshold ≤ s.now - r.now) ∧
      (s.AnnouncesStall ↔ s.Reports .stalled ∧
        ∀ p ∈ prior (samples reporter calls) n, ¬ p.Reports .stalled)) ∧
    ∀ (h : LoaderHealthReporter) (errorClass : String) (batch : BoundedBatch Bar)
      (now stalledAt emittedAt : Instant),
      (h.maybeHeartbeat (.error errorClass) batch now stalledAt emittedAt).1.tracking = h.tracking ∧
        (h.maybeHeartbeat (.error errorClass) batch now stalledAt emittedAt).2 = [] := by
  refine ⟨?_, fun h errorClass batch now stalledAt emittedAt =>
    maybeHeartbeat_of_no_sample (.inr ⟨errorClass, rfl⟩) batch stalledAt emittedAt⟩
  have hclock : ∀ {before after : List (Sample Bar)} {s : Sample Bar},
      samples reporter calls = before ++ s :: after →
        s.reporter.due s.now = true ∧ Clock stallThreshold before s.reporter :=
    fun hs => @clock_samples _ _ [] _ (clock_new hnew) calls hquiet htimes _ _ _ hs
  intro n s hs
  obtain ⟨before, after, hsplit, rfl⟩ := exists_split_of_getElem? hs
  obtain ⟨hdue, hc⟩ := hclock hsplit
  obtain ⟨hreports, hannounces⟩ := outcome_reports hdue
  have hmem : s ∈ samples reporter calls := by simp [hsplit]
  have htime : ∀ last ∈ before.getLast?, last.now ≤ s.now := by
    intro last hlast
    rw [hsplit] at htimes
    exact (List.pairwise_append.mp htimes).2.2 last (List.mem_of_getLast? hlast) s
      List.mem_cons_self
  have hstate := (Clock.step hc htime (hquiet s hmem) hdue).2
  constructor
  · have hextend : before ++ s :: after = (before ++ [s]) ++ after := by simp
    have hwithin : before.length < (before ++ [s]).length := by simp
    have hreset : lastReset (before ++ [s]) before.length < (before ++ [s]).length :=
      Nat.lt_of_le_of_lt (Nat.findGreatest_le _) hwithin
    rw [hreports, hstate, hsplit, hextend, lastReset_append hwithin,
      List.getElem?_append_left hreset]
  · rw [hannounces, hreports, hc.state_eq, hsplit, prior_length]
    refine and_congr_right fun _ => ?_
    cases hlast : before.getLast? with
    | none => simp
    | some p =>
        obtain ⟨earlier, hearlier⟩ := List.getLast?_eq_some_iff.mp hlast
        have hp : samples reporter calls = earlier ++ p :: (s :: after) := by
          rw [hsplit, hearlier]
          simp
        simp [(outcome_reports (hclock hp).1).1]

/-- Ten records in one partition, none of them committed. -/
def silentSample : ConsumerSample where
  assignment := [⟨"bars", 0⟩]
  committed _ := some 0
  beginningOffsets _ := none
  endOffsets _ := some 10

def silentHeartbeat (now : Instant) : Call Unit :=
  .maybeHeartbeat (.ok silentSample) ⟨1000, [], by decide⟩ now now now

/-- Heartbeats after 0, 15 and 16 minutes, and a failed one between them. -/
def silentRun : List (Call Unit) :=
  [silentHeartbeat 0,
    .maybeHeartbeat (.error "TimeoutException") ⟨1000, [], by decide⟩ (Duration.ofSeconds 300) 0 0,
    silentHeartbeat (Duration.ofSeconds 900), silentHeartbeat (Duration.ofSeconds 960)]

theorem quarterHour_pos : 0 < Duration.ofSeconds 900 := by decide

def silentReporter : LoaderHealthReporter :=
  ⟨"bars", Duration.ofSeconds 60, by decide, Duration.ofSeconds 900, quarterHour_pos, 0, [], none,
    none, none, none, none, none, false, none⟩

/-- The second sample of the run is the first stalled one and announces it; the
third is stalled as well and does not. -/
theorem silentRun_stalled :
    (∃ s ∈ (samples silentReporter silentRun)[1]?, s.Reports .stalled ∧ s.AnnouncesStall) ∧
      ∃ s ∈ (samples silentReporter silentRun)[2]?, s.Reports .stalled ∧ ¬ s.AnnouncesStall := by
  have hnew : new "bars" (Duration.ofSeconds 60) (Duration.ofSeconds 900) 0 = .ok silentReporter := rfl
  have hall := (stalled_iff_no_progress hnew silentRun (by decide) (by decide)).1
  have hfirst := hall 0 _ rfl
  have hsecond := hall 1 _ rfl
  have hthird := hall 2 _ rfl
  have hstalled := hsecond.1.mpr ⟨by decide, _, rfl, by decide⟩
  refine ⟨⟨_, rfl, hstalled, hsecond.2.mpr ⟨hstalled, ?_⟩⟩, ⟨_, rfl, ?_, ?_⟩⟩
  · intro p hp hreports
    cases hp
    obtain ⟨_, r, hr, hlong⟩ := hfirst.1.mp hreports
    cases hr
    exact absurd hlong (by decide)
  · exact hthird.1.mpr ⟨by decide, _, rfl, by decide⟩
  · intro hannounced
    exact (hthird.2.mp hannounced).2 _ rfl hstalled

end Lakehouse.Loader.LoaderHealthReporter
