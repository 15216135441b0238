/-
The reconnect schedule of `ws::run`.

`Ws.Run` interleaves the steps of the task with whatever the rest of the process
does, and logs the attempts and backoffs. What the loop keeps in its counter and
in its backoff can be read off the log: the failures and the backoffs since the
last completed handshake.

* `Ws.Scheduled` — the invariant, one clause for each place in the loop.
* `Ws.Run.scheduled` — every run keeps it.
* `Ws.reconnect_schedule` — when the retries are exhausted, how long each
  backoff lasts, and what the metrics say meanwhile.
-/

import Lakehouse.Extractor.ProducerTask

namespace Lakehouse.Extractor

namespace Ws

/-- What `run` does, as far as its schedule goes. `ended` carries whether the
attempt had completed its handshake. -/
inductive Event where
  | started
  | connected
  | ended (handshake : Bool) (result : Result)
  | backoff (secs : Nat)
deriving DecidableEq

namespace Event

def isConnected : Event → Bool
  | .connected => true
  | _ => false

def isBackoff : Event → Bool
  | .backoff _ => true
  | _ => false

/-- An attempt that failed before its handshake was completed. -/
def isFailedAttempt : Event → Bool
  | .ended false (.error (.transient _)) => true
  | _ => false

def isTransient : Event → Bool
  | .ended _ (.error (.transient _)) => true
  | _ => false

end Event

/-- The events since the last completed handshake, newest first. -/
def sinceHandshake (log : List Event) : List Event :=
  log.reverse.takeWhile fun e => !e.isConnected

/-- Consecutive attempts that failed without completing the handshake. -/
def failuresInARow (log : List Event) : Nat := (sinceHandshake log).countP Event.isFailedAttempt

def backoffs (log : List Event) : Nat := (sinceHandshake log).countP Event.isBackoff

/-- What the other tasks may do between two steps of `run`. -/
structure Environment (w w' : World) : Prop where
  ws : w'.ws = w.ws
  errors : w'.metrics.errors = w.metrics.errors
  status : w'.metrics.connection_status = w.metrics.connection_status

/-- The steps of `stream_frames` and `forward`. -/
inductive StreamStep (cfg : Config) (w w' : World) : Prop where
  | pollShutdown : pollShutdown w = some w' → StreamStep cfg w w'
  | pollRead (event : Option ReadEvent) (now_ms : Int) : pollRead w event now_ms = some w' →
      StreamStep cfg w w'
  | pollTimer (elapsed : Bool) : pollTimer cfg w elapsed = some w' → StreamStep cfg w w'
  | send : send w = some w' → StreamStep cfg w w'
  | close : close w = some w' → StreamStep cfg w w'

/-- The backoff `run` begins, if it does. -/
def backoffBegun (w : World) : List Event :=
  match w.ws.pc with
  | .backingOff => [.backoff w.ws.backoff]
  | _ => []

/-- A run of the task from `start`, with its log. -/
inductive Run (cfg : Config) (start : World) : List Event → World → Prop where
  | start : Run cfg start [] start
  | environment {log w w'} : Run cfg start log w → Environment w w' → Run cfg start log w'
  | startAttempt {log w w'} : Run cfg start log w → startAttempt w = some w' →
      Run cfg start (log ++ [.started]) w'
  | handshake {log w w'} : Run cfg start log w → setup w (.ok ()) = some w' →
      Run cfg start (log ++ [.connected]) w'
  | noHandshake {log w w'} (e : Error) : Run cfg start log w → setup w (.error e) = some w' →
      Run cfg start log w'
  | stream {log w w'} : Run cfg start log w → StreamStep cfg w w' → Run cfg start log w'
  | endAttempt {log w w'} (result : Result) : Run cfg start log w →
      w.ws.pc = .attemptEnded result → endAttempt cfg w = some w' →
      Run cfg start (log ++ [.ended w.ws.connected result] ++ backoffBegun w') w'
  | backOff {log w w'} (elapsed : Bool) : Run cfg start log w → backOff cfg w elapsed = some w' →
      Run cfg start log w'

/-- Before the loop. -/
structure Fresh (w : World) : Prop where
  ws : w.ws = Ws.new
  errors : w.metrics.errors = 0
  status : w.metrics.connection_status = false

/-! ### The log -/

section Log

variable (log : List Event) (e : Event)

theorem sinceHandshake_concat : sinceHandshake (log ++ [e]) =
    if e.isConnected then [] else e :: sinceHandshake log := by
  cases h : e.isConnected <;> simp [sinceHandshake, h]

theorem failuresInARow_concat : failuresInARow (log ++ [e]) =
    if e.isConnected then 0 else failuresInARow log + if e.isFailedAttempt then 1 else 0 := by
  unfold failuresInARow
  rw [sinceHandshake_concat]
  cases e.isConnected
  · simp [List.countP_cons]
  · simp

/-- Only a transient end adds to the failures. -/
theorem failuresInARow_ended (handshake : Bool) {result : Result}
    (h : ∀ msg, result ≠ .error (.transient msg)) :
    failuresInARow (log ++ [.ended handshake result]) = failuresInARow log := by
  have hnot : Event.isFailedAttempt (.ended handshake result) = false := by
    unfold Event.isFailedAttempt
    split
    · rename_i msg heq
      cases heq
      exact absurd rfl (h msg)
    · rfl
  rw [failuresInARow_concat, hnot]
  simp [Event.isConnected]

theorem backoffs_concat : backoffs (log ++ [e]) =
    if e.isConnected then 0 else backoffs log + if e.isBackoff then 1 else 0 := by
  unfold backoffs
  rw [sinceHandshake_concat]
  cases e.isConnected
  · simp [List.countP_cons]
  · simp

end Log

/-- No attempt has ended fatally. -/
def NoFatal (log : List Event) : Prop :=
  ∀ handshake msg, .ended handshake (.error (.fatal msg)) ∉ log

/-- What the log alone says: the length of each backoff, that a dropped
connection is followed by a backoff, and that a fatal end is the last event. -/
structure Lawful (cfg : Config) (log : List Event) : Prop where
  durations : ∀ before secs, before ++ [.backoff secs] <+: log →
    secs = min (2 ^ backoffs before) cfg.backoff_max_secs
  drops : ∀ before msg, before ++ [.ended true (.error (.transient msg))] <+: log →
    ∃ secs, before ++ [.ended true (.error (.transient msg)), .backoff secs] <+: log
  fatal : ∀ before handshake msg, before ++ [.ended handshake (.error (.fatal msg))] <+: log →
    log = before ++ [.ended handshake (.error (.fatal msg))]

section Lawful

variable {cfg : Config} {log : List Event} (hl : Lawful cfg log) (hopen : NoFatal log)

theorem lawful_nil (cfg : Config) : Lawful cfg [] := by
  constructor <;> simp

include hl hopen

theorem Lawful.concat {e : Event} (hbackoff : ∀ secs, e ≠ .backoff secs)
    (hdrop : ∀ msg, e ≠ .ended true (.error (.transient msg))) : Lawful cfg (log ++ [e]) := by
  constructor
  case durations =>
    intro before secs h
    rcases List.prefix_concat_iff.mp h with heq | hold
    · exact absurd (List.append_inj' heq rfl).2 (by simpa using (hbackoff secs).symm)
    · exact hl.durations before secs hold
  case drops =>
    intro before msg h
    rcases List.prefix_concat_iff.mp h with heq | hold
    · exact absurd (List.append_inj' heq rfl).2 (by simpa using (hdrop msg).symm)
    · obtain ⟨secs, hnext⟩ := hl.drops before msg hold
      exact ⟨secs, hnext.trans (List.prefix_append _ _)⟩
  case fatal =>
    intro before handshake msg h
    rcases List.prefix_concat_iff.mp h with heq | hold
    · exact heq.symm
    · exact absurd (hold.subset (by simp)) (hopen handshake msg)

theorem Lawful.transient (handshake : Bool) (msg : String) :
    Lawful cfg (log ++ [.ended handshake (.error (.transient msg))] ++
      [.backoff (min (2 ^ backoffs log) cfg.backoff_max_secs)]) := by
  have hbackoffs : backoffs (log ++ [.ended handshake (.error (.transient msg))]) = backoffs log := by
    simp [backoffs_concat, Event.isConnected, Event.isBackoff]
  constructor
  case durations =>
    intro before secs h
    rcases List.prefix_concat_iff.mp h with heq | hold
    · obtain ⟨rfl, hsecs⟩ := List.append_inj' heq rfl
      rw [hbackoffs]
      simpa using hsecs
    · rcases List.prefix_concat_iff.mp hold with heq | hold
      · exact absurd (List.append_inj' heq rfl).2 (by simp)
      · exact hl.durations before secs hold
  case drops =>
    intro before other h
    rcases List.prefix_concat_iff.mp h with heq | hold
    · exact absurd (List.append_inj' heq rfl).2 (by simp)
    · rcases List.prefix_concat_iff.mp hold with heq | hold
      · obtain ⟨rfl, hend⟩ := List.append_inj' heq rfl
        cases hend
        refine ⟨min (2 ^ backoffs before) cfg.backoff_max_secs, ?_⟩
        rw [List.append_assoc]
        exact List.prefix_refl _
      · obtain ⟨secs, hnext⟩ := hl.drops before other hold
        exact ⟨secs, (hnext.trans (List.prefix_append _ _)).trans (List.prefix_append _ _)⟩
  case fatal =>
    intro before other message h
    rcases List.prefix_concat_iff.mp h with heq | hold
    · exact absurd (List.append_inj' heq rfl).2 (by simp)
    · rcases List.prefix_concat_iff.mp hold with heq | hold
      · exact absurd (List.append_inj' heq rfl).2 (by simp)
      · exact absurd (hold.subset (by simp)) (hopen other message)

end Lawful

/-! ### The loop -/

/-- The text of the error `run` gives up with. -/
def exhausted (msg : String) : Result := .error (.transient ("max retries exhausted: " ++ msg))

/-- Between the head of the loop and a completed handshake. -/
structure Attempting (cfg : Config) (log : List Event) (ws : Ws) : Prop where
  connected : ws.connected = false
  quiet : log.getLast? ≠ some .connected
  attempt : ws.attempt = failuresInARow log + 1
  backoff : ws.backoff = min (2 ^ backoffs log) cfg.backoff_max_secs

/-- From the completed handshake to the end of the attempt. -/
structure Streaming (log : List Event) (ws : Ws) : Prop where
  connected : ws.connected = true
  last : log.getLast? = some .connected

/-- What holds at each place in `run`. -/
def Phase (cfg : Config) (log : List Event) (ws : Ws) : Prop :=
  match ws.pc with
  | .loopHead =>
      log.getLast? ≠ some .connected ∧ ws.attempt = failuresInARow log ∧
        ws.attempt < cfg.max_retries ∧ ws.backoff = min (2 ^ backoffs log) cfg.backoff_max_secs
  | .setup => Attempting cfg log ws
  | .pollShutdown | .pollRead | .pollTimer | .forwarding _ | .closing _ => Streaming log ws
  | .attemptEnded _ => Attempting cfg log ws ∨ Streaming log ws
  | .backingOff =>
      log.getLast? ≠ some .connected ∧ ws.attempt = failuresInARow log ∧
        ws.attempt < cfg.max_retries ∧ 1 ≤ backoffs log ∧
        ws.backoff = min (2 ^ (backoffs log - 1)) cfg.backoff_max_secs
  | .done result =>
      log.getLast? ≠ some .connected ∧ failuresInARow log ≤ cfg.max_retries ∧
        (failuresInARow log = cfg.max_retries ↔ ∃ msg, result = exhausted msg)

/-- The invariant of `run`. -/
structure Scheduled (cfg : Config) (log : List Event) (w : World) : Prop where
  phase : Phase cfg log w.ws
  attempt_le : w.ws.attempt ≤ cfg.max_retries
  backoff_le : w.ws.backoff ≤ cfg.backoff_max_secs
  errors : w.metrics.errors = log.countP Event.isTransient
  status : w.metrics.connection_status = decide (log.getLast? = some .connected)
  lawful : Lawful cfg log
  running : (∀ result, w.ws.pc ≠ .done result) → NoFatal log

theorem Fresh.scheduled {cfg : Config} {w : World} (h : Fresh w) (hretries : 1 ≤ cfg.max_retries)
    (hmax : 1 ≤ cfg.backoff_max_secs) : Scheduled cfg [] w := by
  obtain ⟨hws, herrors, hstatus⟩ := h
  constructor
  case phase =>
    simp [Phase, hws, Ws.new, failuresInARow, backoffs, sinceHandshake]
    omega
  case attempt_le => simp [hws, Ws.new]
  case backoff_le => simpa [hws, Ws.new] using hmax
  case errors => simpa using herrors
  case status => simpa using hstatus
  case lawful => exact lawful_nil cfg
  case running => simp [NoFatal]

/-- At each place in `run` the failures in a row stay within the budget, and reach
it exactly when `run` has given up. -/
theorem Phase.budget {cfg : Config} {log : List Event} {ws : Ws} (h : Phase cfg log ws)
    (hle : ws.attempt ≤ cfg.max_retries) (hretries : 1 ≤ cfg.max_retries) :
    ((∃ msg, ws.pc = .done (exhausted msg)) ↔ failuresInARow log = cfg.max_retries) ∧
      failuresInARow log ≤ cfg.max_retries ∧
      (ws.pc = .backingOff → ws.attempt = failuresInARow log) := by
  have hattempting : Attempting cfg log ws → failuresInARow log < cfg.max_retries := by
    intro ha
    have := ha.attempt
    omega
  have hstreaming : Streaming log ws → failuresInARow log < cfg.max_retries := by
    intro hs
    obtain ⟨before, rfl⟩ := List.getLast?_eq_some_iff.mp hs.last
    simp only [failuresInARow_concat, Event.isConnected, if_true]
    omega
  have hlive : (∀ result, ws.pc ≠ .done result) → failuresInARow log < cfg.max_retries := by
    intro hnot
    unfold Phase at h
    split at h
    case h_1 => omega
    case h_2 => exact hattempting h
    case h_8 => exact h.elim hattempting hstreaming
    case h_9 => omega
    case h_10 result hpc => exact absurd hpc (hnot result)
    all_goals exact hstreaming h
  by_cases hdone : ∃ result, ws.pc = .done result
  · obtain ⟨result, hpc⟩ := hdone
    unfold Phase at h
    rw [hpc] at h
    obtain ⟨_, hbudget, hiff⟩ := h
    refine ⟨?_, hbudget, by simp [hpc]⟩
    rw [hiff, hpc]
    simp
  · simp only [not_exists] at hdone
    have hless := hlive hdone
    refine ⟨⟨?_, by omega⟩, by omega, ?_⟩
    · rintro ⟨msg, hpc⟩
      exact absurd hpc (hdone _)
    · intro hpc
      unfold Phase at h
      rw [hpc] at h
      exact h.2.1

/-- Inside `stream_frames`. -/
def Pc.streaming : Pc → Bool
  | .pollShutdown | .pollRead | .pollTimer | .forwarding _ | .closing _ => true
  | _ => false

/-- A step of `stream_frames` stays in it or ends the attempt, and leaves the
schedule alone. -/
structure Streamed (w w' : World) : Prop where
  before : w.ws.pc.streaming = true
  after : w'.ws.pc.streaming = true ∨ ∃ result, w'.ws.pc = .attemptEnded result
  connected : w'.ws.connected = w.ws.connected
  attempt : w'.ws.attempt = w.ws.attempt
  backoff : w'.ws.backoff = w.ws.backoff
  errors : w'.metrics.errors = w.metrics.errors
  status : w'.metrics.connection_status = w.metrics.connection_status

theorem goto_streamed {w : World} {pc : Pc} (hbefore : w.ws.pc.streaming = true)
    (hafter : pc.streaming = true ∨ ∃ result, pc = .attemptEnded result) :
    Streamed w (goto w pc) :=
  ⟨hbefore, hafter, rfl, rfl, rfl, rfl, rfl⟩

theorem handle_streamed {w : World} (m : Message) (now_ms : Int)
    (hbefore : w.ws.pc.streaming = true) : Streamed w (handle w m now_ms) := by
  unfold handle
  dsimp only
  split
  · exact ⟨hbefore, .inl rfl, rfl, rfl, rfl, rfl, rfl⟩
  · split
    · exact ⟨hbefore, .inr ⟨_, rfl⟩, rfl, rfl, rfl, rfl, rfl⟩
    · exact ⟨hbefore, .inl rfl, rfl, rfl, rfl, rfl, rfl⟩

theorem StreamStep.streamed {cfg : Config} {w w' : World} (h : StreamStep cfg w w') :
    Streamed w w' := by
  cases h with
  | pollShutdown h =>
      unfold Ws.pollShutdown at h
      split at h
      · rename_i hpc
        cases h
        refine goto_streamed (by rw [hpc]; rfl) (.inl ?_)
        split <;> rfl
      · simp at h
  | pollRead event now_ms h =>
      unfold Ws.pollRead at h
      split at h
      · rename_i hpc
        have hbefore : w.ws.pc.streaming = true := by rw [hpc]; rfl
        split at h
        · cases h
          exact goto_streamed hbefore (.inl rfl)
        · cases h
          exact handle_streamed _ _ hbefore
        · cases h
          exact goto_streamed hbefore (.inr ⟨_, rfl⟩)
        · cases h
          exact goto_streamed hbefore (.inr ⟨_, rfl⟩)
      · simp at h
  | pollTimer elapsed h =>
      unfold Ws.pollTimer at h
      split at h
      · rename_i hpc
        cases h
        refine goto_streamed (by rw [hpc]; rfl) (.inl ?_)
        split <;> rfl
      · simp at h
  | send h =>
      unfold Ws.send at h
      split at h
      · rename_i bytes hpc
        have hbefore : w.ws.pc.streaming = true := by rw [hpc]; rfl
        split at h
        · cases h
          exact ⟨hbefore, .inl rfl, rfl, rfl, rfl, rfl, rfl⟩
        · simp at h
        · cases h
          exact ⟨hbefore, .inr ⟨_, rfl⟩, rfl, rfl, rfl, rfl, rfl⟩
      · simp at h
  | close h =>
      unfold Ws.close at h
      split at h
      · rename_i result hpc
        cases h
        exact goto_streamed (by rw [hpc]; rfl) (.inr ⟨_, rfl⟩)
      · simp at h

theorem phase_of_streaming {cfg : Config} {log : List Event} {ws : Ws}
    (h : ws.pc.streaming = true) : Phase cfg log ws ↔ Streaming log ws := by
  unfold Phase
  split <;> simp_all [Pc.streaming]

namespace Scheduled

variable {cfg : Config} {log : List Event} {w w' : World} (hs : Scheduled cfg log w)

include hs

theorem environment (h : Environment w w') : Scheduled cfg log w' := by
  constructor
  case phase => rw [h.ws]; exact hs.phase
  case attempt_le => rw [h.ws]; exact hs.attempt_le
  case backoff_le => rw [h.ws]; exact hs.backoff_le
  case errors => rw [h.errors]; exact hs.errors
  case status => rw [h.status]; exact hs.status
  case lawful => exact hs.lawful
  case running => rw [h.ws]; exact hs.running

theorem startAttempt (h : startAttempt w = some w') :
    Scheduled cfg (log ++ [.started]) w' := by
  unfold Ws.startAttempt at h
  split at h
  · rename_i hpc
    cases h
    have hphase := hs.phase
    simp only [Phase, hpc] at hphase
    obtain ⟨hquiet, hattempt, hless, hbackoff⟩ := hphase
    have hopen : NoFatal log := hs.running (by simp [hpc])
    constructor
    case phase =>
      constructor
      case connected => rfl
      case quiet => simp
      case attempt => simp [failuresInARow_concat, Event.isConnected, Event.isFailedAttempt, hattempt]
      case backoff => simp [backoffs_concat, Event.isConnected, Event.isBackoff, hbackoff]
    case attempt_le => exact hless
    case backoff_le => exact hs.backoff_le
    case errors => simpa [Event.isTransient] using hs.errors
    case status => simpa [hquiet] using hs.status
    case lawful => exact hs.lawful.concat hopen (by simp) (by simp)
    case running =>
      intro _ handshake msg hmem
      exact hopen handshake msg (by simpa using hmem)
  · simp at h

theorem handshake (h : setup w (.ok ()) = some w') : Scheduled cfg (log ++ [.connected]) w' := by
  unfold setup at h
  split at h
  · rename_i hpc
    cases h
    have hopen : NoFatal log := hs.running (by simp [hpc])
    constructor
    case phase => exact ⟨rfl, by simp⟩
    case attempt_le => exact hs.attempt_le
    case backoff_le => exact hs.backoff_le
    case errors => simpa [Event.isTransient, Metrics.connected] using hs.errors
    case status => simp [Metrics.connected]
    case lawful => exact hs.lawful.concat hopen (by simp) (by simp)
    case running =>
      intro _ handshake msg hmem
      exact hopen handshake msg (by simpa using hmem)
  · simp at h

theorem noHandshake {e : Error} (h : setup w (.error e) = some w') : Scheduled cfg log w' := by
  unfold setup at h
  split at h
  · rename_i hpc
    cases h
    have hphase := hs.phase
    simp only [Phase, hpc] at hphase
    exact { hs with
      phase := .inl ⟨hphase.connected, hphase.quiet, hphase.attempt, hphase.backoff⟩
      running := fun _ => hs.running (by simp [hpc]) }
  · simp at h

theorem backOff {elapsed : Bool} (h : backOff cfg w elapsed = some w') : Scheduled cfg log w' := by
  unfold Ws.backOff at h
  split at h
  · rename_i hpc
    have hphase := hs.phase
    simp only [Phase, hpc] at hphase
    obtain ⟨hquiet, hattempt, hless, hpos, hbackoff⟩ := hphase
    split at h
    · cases h
      have hdouble : min (w.ws.backoff * 2) cfg.backoff_max_secs =
          min (2 ^ backoffs log) cfg.backoff_max_secs := by
        obtain ⟨k, hk⟩ := Nat.exists_eq_succ_of_ne_zero (Nat.ne_of_gt hpos)
        rw [hbackoff, hk, Nat.succ_sub_one, Nat.pow_succ]
        omega
      exact { hs with
        phase := ⟨hquiet, hattempt, hless, hdouble⟩
        backoff_le := Nat.min_le_right _ _
        running := fun _ => hs.running (by simp [hpc]) }
    · split at h
      · cases h
        exact { hs with
          phase := ⟨hquiet, by omega, by simp only [exhausted]; simp; omega⟩
          running := fun hnot => absurd rfl (hnot (.ok ())) }
      · simp at h
  · simp at h

theorem stream (h : StreamStep cfg w w') : Scheduled cfg log w' := by
  have hstep := h.streamed
  have hbefore := (phase_of_streaming hstep.before).mp hs.phase
  have hafter : Streaming log w'.ws := ⟨hstep.connected.trans hbefore.connected, hbefore.last⟩
  have hopen : NoFatal log := hs.running (by
    intro result hdone
    have := hstep.before
    simp [hdone, Pc.streaming] at this)
  constructor
  case phase =>
    rcases hstep.after with hstreaming | ⟨result, hended⟩
    · exact (phase_of_streaming hstreaming).mpr hafter
    · unfold Phase
      rw [hended]
      exact .inr hafter
  case attempt_le => rw [hstep.attempt]; exact hs.attempt_le
  case backoff_le => rw [hstep.backoff]; exact hs.backoff_le
  case errors => rw [hstep.errors]; exact hs.errors
  case status => rw [hstep.status]; exact hs.status
  case lawful => exact hs.lawful
  case running => exact fun _ => hopen

omit hs in
/-- The counters after the reset a completed handshake earns. -/
theorem reset_counters (hs : Scheduled cfg log w) (hretries : 1 ≤ cfg.max_retries)
    (hmax : 1 ≤ cfg.backoff_max_secs) {result : Result} (hpc : w.ws.pc = .attemptEnded result) :
    ∃ ws, (if w.ws.connected then { w.ws with backoff := 1, attempt := 0 } else w.ws) = ws ∧
      ws.attempt ≤ cfg.max_retries ∧ ws.backoff = min (2 ^ backoffs log) cfg.backoff_max_secs ∧
      failuresInARow log < cfg.max_retries ∧
      ∀ msg, failuresInARow (log ++ [.ended w.ws.connected (.error (.transient msg))]) =
        ws.attempt := by
  have hphase := hs.phase
  have hle := hs.attempt_le
  simp only [Phase, hpc] at hphase
  rcases hphase with hattempting | hstreaming
  · obtain ⟨hconnected, _, hattempt, hbackoff⟩ := hattempting
    refine ⟨_, rfl, ?_⟩
    simp only [hconnected, Bool.false_eq_true, if_false]
    refine ⟨hle, hbackoff, by omega, ?_⟩
    intro msg
    simp [failuresInARow_concat, Event.isConnected, Event.isFailedAttempt, hattempt]
  · obtain ⟨hconnected, hlast⟩ := hstreaming
    obtain ⟨before, rfl⟩ := List.getLast?_eq_some_iff.mp hlast
    refine ⟨_, rfl, ?_⟩
    simp only [hconnected, if_true]
    refine ⟨Nat.zero_le _, ?_, ?_, ?_⟩
    · simp only [backoffs_concat, Event.isConnected, if_true]
      omega
    · simp only [failuresInARow_concat, Event.isConnected, if_true]
      omega
    · intro msg
      simp only [failuresInARow_concat, Event.isConnected, Event.isFailedAttempt, if_true,
        Bool.false_eq_true, if_false]

/-- `run` returns at the end of an attempt. -/
theorem returned (hopen : NoFatal log) {result final : Result} (hdone : w'.ws.pc = .done final)
    (hattempt : w'.ws.attempt ≤ cfg.max_retries) (hbackoff : w'.ws.backoff ≤ cfg.backoff_max_secs)
    (herrors : w'.metrics.errors =
      w.metrics.errors + if (Event.ended w.ws.connected result).isTransient then 1 else 0)
    (hstatus : w'.metrics.connection_status = false)
    (hdrop : ∀ msg, Event.ended w.ws.connected result ≠ .ended true (.error (.transient msg)))
    (hle : failuresInARow (log ++ [.ended w.ws.connected result]) ≤ cfg.max_retries)
    (hiff : failuresInARow (log ++ [.ended w.ws.connected result]) = cfg.max_retries ↔
      ∃ msg, final = exhausted msg) :
    Scheduled cfg (log ++ [.ended w.ws.connected result] ++ backoffBegun w') w' := by
  have hnone : backoffBegun w' = [] := by simp [backoffBegun, hdone]
  rw [hnone, List.append_nil]
  constructor
  case phase =>
    unfold Phase
    rw [hdone]
    exact ⟨by simp, hle, hiff⟩
  case attempt_le => exact hattempt
  case backoff_le => exact hbackoff
  case errors => rw [herrors, hs.errors, List.countP_append, List.countP_singleton]
  case status => simpa using hstatus
  case lawful => exact hs.lawful.concat hopen (by simp) hdrop
  case running => exact fun hnot => absurd hdone (hnot final)

/-- `run` backs off after a transient end with budget left. -/
theorem backsOff (hopen : NoFatal log) {ws : Ws} {msg : String} (hle : ws.attempt ≤ cfg.max_retries)
    (hleft : ¬ cfg.max_retries ≤ ws.attempt)
    (hbackoff : ws.backoff = min (2 ^ backoffs log) cfg.backoff_max_secs)
    (hfailures : failuresInARow (log ++ [.ended w.ws.connected (.error (.transient msg))]) =
      ws.attempt)
    (hw : w' = goto { w with ws := ws, metrics := (w.metrics.connected false).error } .backingOff) :
    Scheduled cfg (log ++ [.ended w.ws.connected (.error (.transient msg))] ++ backoffBegun w') w' := by
  subst hw
  have hlog : backoffBegun (goto { w with ws := ws, metrics := (w.metrics.connected false).error }
      .backingOff) = [.backoff (min (2 ^ backoffs log) cfg.backoff_max_secs)] := by
    simp [backoffBegun, goto, hbackoff]
  have hcount : backoffs (log ++ [.ended w.ws.connected (.error (.transient msg))] ++
      [.backoff (min (2 ^ backoffs log) cfg.backoff_max_secs)]) = backoffs log + 1 := by
    simp [backoffs_concat, Event.isConnected, Event.isBackoff, -List.append_assoc]
  rw [hlog]
  constructor
  case phase =>
    simp only [Phase, goto]
    refine ⟨by simp, ?_, by omega, by omega, ?_⟩
    · rw [failuresInARow_concat, hfailures]
      simp [Event.isConnected, Event.isFailedAttempt]
    · rw [hcount, Nat.add_sub_cancel]
      exact hbackoff
  case attempt_le => exact hle
  case backoff_le =>
    simp only [goto, hbackoff]
    exact Nat.min_le_right _ _
  case errors =>
    rw [List.countP_append, List.countP_append, ← hs.errors]
    rfl
  case status => simp [goto, Metrics.connected, Metrics.error]
  case lawful => exact hs.lawful.transient hopen w.ws.connected msg
  case running =>
    intro _ handshake other hmem
    exact hopen handshake other (by simpa using hmem)

theorem endAttempt (hretries : 1 ≤ cfg.max_retries) (hmax : 1 ≤ cfg.backoff_max_secs)
    {result : Result} (hpc : w.ws.pc = .attemptEnded result) (h : endAttempt cfg w = some w') :
    Scheduled cfg (log ++ [.ended w.ws.connected result] ++ backoffBegun w') w' := by
  obtain ⟨ws, hws, hle, hbackoff, hless, hfailures⟩ := hs.reset_counters hretries hmax hpc
  have hopen : NoFatal log := hs.running (by simp [hpc])
  have hwithin : ws.backoff ≤ cfg.backoff_max_secs := by omega
  unfold Ws.endAttempt at h
  rw [hpc] at h
  simp only [hws] at h
  cases result with
  | ok outcome =>
      cases h
      have hsame : failuresInARow (log ++ [.ended w.ws.connected (.ok outcome)]) =
          failuresInARow log := failuresInARow_ended log _ (by simp)
      refine hs.returned hopen (rfl : _ = Ws.Pc.done (.ok ())) hle hwithin rfl rfl (by simp) (by omega) ?_
      rw [hsame]
      simp [exhausted]
      omega
  | error e =>
      cases e with
      | fatal msg =>
          cases h
          have hsame : failuresInARow (log ++ [.ended w.ws.connected (.error (.fatal msg))]) =
              failuresInARow log := failuresInARow_ended log _ (by simp)
          refine hs.returned hopen (rfl : _ = Ws.Pc.done (.error (.fatal msg))) hle hwithin rfl rfl
            (by simp) (by omega) ?_
          rw [hsame]
          simp [exhausted]
          omega
      | transient msg =>
          simp only at h
          split at h
          · rename_i hspent
            cases h
            have hfresh : w.ws.connected = false := by
              by_contra hconnected
              simp only [Bool.not_eq_false] at hconnected
              rw [hconnected, if_pos rfl] at hws
              subst hws
              simp only [Nat.le_zero_eq] at hspent
              omega
            refine hs.returned hopen (rfl : _ = Ws.Pc.done (exhausted msg)) hle hwithin rfl rfl ?_ ?_ ?_
            · simp [hfresh]
            · rw [hfailures]
              exact hle
            · rw [hfailures]
              exact ⟨fun _ => ⟨msg, rfl⟩, fun _ => Nat.le_antisymm hle hspent⟩
          · rename_i hleft
            cases h
            exact hs.backsOff hopen hle hleft hbackoff (hfailures msg) rfl

end Scheduled

theorem Run.scheduled {cfg : Config} {start w : World} {log : List Event} (hstart : Fresh start)
    (hretries : 1 ≤ cfg.max_retries) (hmax : 1 ≤ cfg.backoff_max_secs)
    (hrun : Run cfg start log w) : Scheduled cfg log w := by
  induction hrun with
  | start => exact hstart.scheduled hretries hmax
  | environment _ h ih => exact ih.environment h
  | startAttempt _ h ih => exact ih.startAttempt h
  | handshake _ h ih => exact ih.handshake h
  | noHandshake e _ h ih => exact ih.noHandshake h
  | stream _ h ih => exact ih.stream h
  | endAttempt result _ hpc h ih => exact ih.endAttempt hretries hmax hpc h
  | backOff elapsed _ h ih => exact ih.backOff h

/-- The reconnect schedule of `run`, for every order of attempt outcomes: it gives
up exactly when `max_retries` attempts in a row have failed without a handshake;
the counter never holds more than those, so a completed handshake restores the
whole budget and a dropped connection is always followed by a backoff; the `j`-th
backoff since the last handshake lasts `min (2 ^ (j - 1)) backoff_max_secs`;
nothing follows a fatal end; `errors` counts the transient ends; and
`connection_status` is true only from a completed handshake to the end of its
attempt. Neither the `u32` counter nor the doubled duration overflows. -/
theorem reconnect_schedule {cfg : Config} {start w : World} {log : List Event}
    (hstart : Fresh start) (hretries : 1 ≤ cfg.max_retries ∧ cfg.max_retries < 2 ^ 32)
    (hmax : 1 ≤ cfg.backoff_max_secs ∧ cfg.backoff_max_secs < 2 ^ 63)
    (hrun : Run cfg start log w) :
    ((∃ msg, w.ws.pc = .done (exhausted msg)) ↔ failuresInARow log = cfg.max_retries) ∧
    failuresInARow log ≤ cfg.max_retries ∧
    (w.ws.pc = .backingOff → w.ws.attempt = failuresInARow log) ∧
    (∀ before msg, before ++ [.ended true (.error (.transient msg))] <+: log →
      ∃ secs, before ++ [.ended true (.error (.transient msg)), .backoff secs] <+: log) ∧
    (∀ before secs, before ++ [.backoff secs] <+: log →
      secs = min (2 ^ backoffs before) cfg.backoff_max_secs) ∧
    (∀ before handshake msg, before ++ [.ended handshake (.error (.fatal msg))] <+: log →
      log = before ++ [.ended handshake (.error (.fatal msg))]) ∧
    w.metrics.errors = log.countP Event.isTransient ∧
    (w.metrics.connection_status = true → log.getLast? = some .connected) ∧
    w.ws.attempt < 2 ^ 32 ∧ w.ws.backoff * 2 < 2 ^ 64 := by
  have hs := hrun.scheduled hstart hretries.1 hmax.1
  obtain ⟨hexhausted, hle, hcounter⟩ := hs.phase.budget hs.attempt_le hretries.1
  have hattempt := hs.attempt_le
  have hbackoff := hs.backoff_le
  refine ⟨hexhausted, hle, hcounter, hs.lawful.drops, hs.lawful.durations, hs.lawful.fatal,
    hs.errors, ?_, by omega, by omega⟩
  intro hstatus
  rw [hs.status] at hstatus
  exact of_decide_eq_true hstatus

end Ws

/-! ### The task in the whole process -/

variable {cfg : Config} {w w' : World}

theorem Producer.Frame.reconnect (h : Producer.Frame w w') : Ws.Environment w w' :=
  ⟨h.ws, h.errors, h.status⟩

theorem Main.Frame.reconnect (h : Main.Frame w w') : Ws.Environment w w' :=
  ⟨h.ws, congrArg Metrics.errors h.metrics, congrArg Metrics.connection_status h.metrics⟩

/-- The steps of the other tasks leave `run` and its schedule alone. -/
theorem Ws.environment_of_step {a : Action} (hother : a.ofWs = false)
    (h : step cfg w a = some w') : Ws.Environment w w' := by
  obtain ⟨hws, _⟩ | ⟨_, hf⟩ | hf | htorn := step_cases h
  · rw [hws] at hother
    cases hother
  · exact hf.reconnect
  · exact hf.toFrame.reconnect
  · exact htorn.frame.reconnect

/-- A step of the process is a step of `run`, or one that leaves its schedule alone. -/
theorem Ws.Run.process_step {log : List Ws.Event} {start : World}
    (hrun : Ws.Run cfg start log w) {a : Action} (h : step cfg w a = some w') :
    ∃ log', Ws.Run cfg start log' w' := by
  cases a with
  | startAttempt => exact ⟨_, hrun.startAttempt h⟩
  | setup outcome =>
      cases outcome with
      | ok value => exact ⟨_, hrun.handshake h⟩
      | error e => exact ⟨_, hrun.noHandshake e h⟩
  | wsPollShutdown => exact ⟨_, hrun.stream (.pollShutdown h)⟩
  | wsPollRead event now_ms => exact ⟨_, hrun.stream (.pollRead event now_ms h)⟩
  | wsPollTimer elapsed => exact ⟨_, hrun.stream (.pollTimer elapsed h)⟩
  | send => exact ⟨_, hrun.stream (.send h)⟩
  | close => exact ⟨_, hrun.stream (.close h)⟩
  | endAttempt =>
      cases hpc : w.ws.pc with
      | attemptEnded result => exact ⟨_, hrun.endAttempt result hpc h⟩
      | _ => simp [step, Ws.endAttempt, hpc] at h
  | backOff elapsed => exact ⟨_, hrun.backOff elapsed h⟩
  | _ => exact ⟨_, hrun.environment (Ws.environment_of_step rfl h)⟩

/-- In the whole process `run` keeps the schedule it keeps in any environment. -/
theorem exists_ws_run (h : (system cfg).Reachable w) :
    ∃ log, Ws.Run cfg (World.new cfg) log w := by
  induction h with
  | init hinit =>
      obtain rfl := hinit
      exact ⟨[], .start⟩
  | step _ hstep ih =>
      obtain ⟨log, hrun⟩ := ih
      exact hrun.process_step hstep

/-- A connection drops, and the server refuses the three attempts after it. -/
def refusedRun : List Action :=
  [.startAttempt, .setup (.ok ()), .wsPollShutdown, .wsPollRead (some .ended) 1, .endAttempt,
   .backOff true] ++
  (List.replicate 2 [.startAttempt, .setup (.error (.transient "connect: refused")),
    .endAttempt, .backOff true]).flatten ++
  [.startAttempt, .setup (.error (.transient "connect: refused")), .endAttempt]

theorem refusedRun_exhausted : ∃ log w, Ws.Run sampleConfig (World.new sampleConfig) log w ∧
    w.ws.pc = .done (Ws.exhausted "connect: refused") ∧ Ws.failuresInARow log = 3 ∧
    w.metrics.errors = 4 := by
  obtain ⟨w, hrun, hdone, herrors⟩ : ∃ w,
      (system sampleConfig).run (World.new sampleConfig) refusedRun = some w ∧
        w.ws.pc = .done (Ws.exhausted "connect: refused") ∧ w.metrics.errors = 4 :=
    ⟨_, rfl, rfl, rfl⟩
  obtain ⟨log, hlog⟩ := exists_ws_run (.of_run (.init rfl) hrun)
  obtain ⟨hexhausted, _⟩ := Ws.reconnect_schedule ⟨rfl, rfl, rfl⟩ ⟨by decide, by decide⟩
    ⟨by decide, by decide⟩ hlog
  exact ⟨log, w, hlog, hdone, hexhausted.mp ⟨_, hdone⟩, herrors⟩

end Lakehouse.Extractor
