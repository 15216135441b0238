/-
A requested shutdown of the extractor.

The token is seen by the `select!` of `stream_frames` and by the one of the
backoff, not during a handshake and not by `forward`. The producer task sees it
by itself and may drop the channel's receiver first.

* `Ws.Orderly`, `Ws.remaining` — what `run` keeps on its way to `Ok(())` once the
  token is cancelled, and how many steps it still takes at most.
* `shutdown_returns_ok` — as long as no frame meets the dropped receiver, no
  handshake ends in an error frame and no transient error meets an exhausted
  budget, `run` returns `Ok(())`.
* `frameInForwardRun_fatal` — a frame that meets the dropped receiver.
-/

import Lakehouse.Extractor.Reconnect

namespace Lakehouse.Extractor

open Channels (Channel)

namespace Ws

/-- `run` has not returned, and no fatal error is on its way out of it. -/
def Live (ws : Ws) : Prop :=
  match ws.pc with
  | .done _ => False
  | .attemptEnded (.error (.fatal _)) => False
  | _ => True

/-- An attempt has ended in a transient error, and none is left. -/
def Exhausted (cfg : Config) (ws : Ws) : Prop :=
  match ws.pc with
  | .attemptEnded (.error (.transient _)) =>
      cfg.max_retries ≤ if ws.connected then 0 else ws.attempt
  | _ => False

/-- On the way to `Ok(())`, at each place in `run`. -/
def Orderly (cfg : Config) (ws : Ws) : Prop :=
  match ws.pc with
  | .backingOff => ws.attempt < cfg.max_retries
  | .setup => ws.connected = false
  | .closing result | .attemptEnded result => ∀ msg, result ≠ .error (.fatal msg)
  | .done result => result = .ok ()
  | _ => True

/-- The steps `run` takes at most before it returns, once the token is cancelled. -/
def remaining (cfg : Config) (ws : Ws) : Nat :=
  match ws.pc with
  | .done _ => 0
  | .attemptEnded (.ok _) => 1
  | .closing (.ok _) => 2
  | .pollShutdown => 3
  | .forwarding _ => 4
  | .loopHead => if ws.attempt < cfg.max_retries then 4 * (cfg.max_retries - ws.attempt) + 5 else 9
  | .backingOff => 4 * (cfg.max_retries - ws.attempt) + 6
  | .attemptEnded (.error _) =>
      4 * (cfg.max_retries - if ws.connected then 0 else ws.attempt) + 7
  | .setup => 4 * (cfg.max_retries - ws.attempt) + 8
  | .closing (.error _) => 4 * cfg.max_retries + 8
  | .pollTimer => 4 * cfg.max_retries + 9
  | .pollRead => 4 * cfg.max_retries + 10

theorem remaining_le (cfg : Config) (ws : Ws) : remaining cfg ws ≤ 4 * cfg.max_retries + 10 := by
  unfold remaining
  split
  case h_6 =>
    split
    · omega
    · omega
  all_goals omega

end Ws

/-- A step that does not turn a shutdown into an error: no frame meets a dropped
receiver, no handshake ends in an error frame, and no transient error is the last one. -/
def Clear (cfg : Config) (w : World) : Action → Prop
  | .send => w.channel.receiving = true
  | .setup (.error (.fatal _)) => False
  | .endAttempt => ¬ Ws.Exhausted cfg w.ws
  | _ => True

/-- A run all of whose steps are clear. -/
inductive ClearRun (cfg : Config) : World → List Action → World → Prop where
  | nil (w : World) : ClearRun cfg w [] w
  | cons {w next last : World} {a : Action} {actions : List Action} :
      Clear cfg w a → step cfg w a = some next → ClearRun cfg next actions last →
        ClearRun cfg w (a :: actions) last

variable {cfg : Config} {w w' : World}

/-! ### One step -/

namespace Ws

/-- A step keeps `run` on its way to `Ok(())` and brings it closer. -/
def Advances (cfg : Config) (w w' : World) : Prop :=
  Orderly cfg w'.ws ∧ remaining cfg w'.ws < remaining cfg w.ws

theorem startAttempt_advances (h : startAttempt w = some w') : Advances cfg w w' := by
  unfold startAttempt at h
  split at h
  · rename_i hpc
    cases h
    simp only [Advances, Orderly, remaining, hpc, true_and]
    split
    · omega
    · omega
  · simp at h

theorem setup_advances {outcome : Result} (ho : Orderly cfg w.ws)
    (hclear : Clear cfg w (.setup outcome)) (h : setup w outcome = some w') :
    Advances cfg w w' := by
  unfold setup at h
  split at h
  · rename_i hpc
    simp only [Orderly, hpc] at ho
    split at h
    · cases h
      simp only [Advances, Orderly, remaining, hpc, true_and]
      omega
    · rename_i e
      cases h
      cases e with
      | fatal msg => exact hclear.elim
      | transient msg => simp [Advances, Orderly, remaining, goto, hpc, ho]
  · simp at h

theorem pollShutdown_advances (hcancelled : w.cancelled = true) (h : pollShutdown w = some w') :
    Advances cfg w w' := by
  unfold pollShutdown at h
  split at h
  · rename_i hpc
    cases h
    simp [Advances, Orderly, remaining, goto, hpc, hcancelled]
  · simp at h

/-- The stream has ended in an error that is not fatal. -/
theorem ended_advances {v : World} {msg : String} (hpc : w.ws.pc = .pollRead) :
    Advances cfg w (goto v (.attemptEnded (.error (.transient msg)))) := by
  constructor
  · simp [Orderly, goto]
  · simp only [remaining, goto, hpc]
    omega

theorem pollRead_advances {event : Option ReadEvent} {now_ms : Int}
    (h : pollRead w event now_ms = some w') : Advances cfg w w' := by
  unfold pollRead at h
  split at h
  · rename_i hpc
    split at h
    · cases h
      simp [Advances, Orderly, remaining, goto, hpc]
    · cases h
      unfold handle
      dsimp only
      split
      · simp [Advances, Orderly, remaining, goto, hpc]
      · split
        · exact ended_advances hpc
        · simp [Advances, Orderly, remaining, goto, hpc]
    · cases h
      exact ended_advances hpc
    · cases h
      exact ended_advances hpc
  · simp at h

theorem pollTimer_advances {elapsed : Bool} (h : pollTimer cfg w elapsed = some w') :
    Advances cfg w w' := by
  unfold pollTimer at h
  split at h
  · rename_i hpc
    cases h
    cases elapsed
    · simp [Advances, Orderly, remaining, goto, hpc]
    · simp [Advances, Orderly, remaining, goto, hpc]
  · simp at h

theorem send_advances (hclear : Clear cfg w .send) (h : send w = some w') : Advances cfg w w' := by
  unfold send at h
  split at h
  · rename_i bytes hpc
    cases hsend : w.channel.send bytes with
    | sent channel =>
        rw [hsend] at h
        cases h
        simp [Advances, Orderly, remaining, goto, hpc]
    | full => simp [hsend] at h
    | closed =>
        have hreceiving : w.channel.receiving = true := hclear
        rw [Channel.send_closed hsend] at hreceiving
        simp at hreceiving
  · simp at h

theorem close_advances (ho : Orderly cfg w.ws) (h : close w = some w') : Advances cfg w w' := by
  unfold close at h
  split at h
  · rename_i result hpc
    cases h
    simp only [Orderly, hpc] at ho
    cases result with
    | ok value => simp [Advances, Orderly, remaining, goto, hpc]
    | error e =>
        cases e with
        | fatal msg => exact absurd rfl (ho msg)
        | transient msg =>
            simp only [Advances, Orderly, remaining, goto, hpc]
            refine ⟨ho, ?_⟩
            omega
  · simp at h

theorem endAttempt_advances (ho : Orderly cfg w.ws) (hclear : Clear cfg w .endAttempt)
    (h : endAttempt cfg w = some w') : Advances cfg w w' := by
  unfold endAttempt at h
  split at h
  · rename_i result hpc
    simp only [Orderly, hpc] at ho
    cases result with
    | ok value =>
        cases h
        simp [Advances, Orderly, remaining, finish, hpc]
    | error e =>
        cases e with
        | fatal msg => exact absurd rfl (ho msg)
        | transient msg =>
            have hbudget : ¬ Exhausted cfg w.ws := hclear
            simp only [Exhausted, hpc, Nat.not_le] at hbudget
            -- the attempts in a row, after the reset of a completed handshake
            have hattempt : ∀ ws : Ws,
                (if w.ws.connected then { w.ws with backoff := 1, attempt := 0 } else w.ws) = ws →
                  ws.attempt = if w.ws.connected then 0 else w.ws.attempt := by
              rintro ws rfl
              cases w.ws.connected <;> rfl
            generalize
              (if w.ws.connected then { w.ws with backoff := 1, attempt := 0 } else w.ws) = ws
              at h hattempt
            have hattempt := hattempt ws rfl
            rw [← hattempt] at hbudget
            simp only [Nat.not_le.mpr hbudget, if_false] at h
            cases h
            simp [Advances, Orderly, remaining, goto, hpc, ← hattempt, hbudget]
  · simp at h

theorem backOff_advances (ho : Orderly cfg w.ws) {elapsed : Bool}
    (h : backOff cfg w elapsed = some w') : Advances cfg w w' := by
  unfold backOff at h
  split at h
  · rename_i hpc
    simp only [Orderly, hpc] at ho
    split at h
    · cases h
      simp [Advances, Orderly, remaining, hpc, ho]
    · split at h
      · cases h
        simp [Advances, Orderly, remaining, finish, hpc]
      · simp at h
  · simp at h

/-- What holds at each place in `run` whatever the token does. -/
def Placed (cfg : Config) (ws : Ws) : Prop :=
  match ws.pc with
  | .backingOff => ws.attempt < cfg.max_retries
  | .setup => ws.connected = false
  | .closing result => ∀ msg, result ≠ .error (.fatal msg)
  | _ => True

theorem StreamStep.placed (h : StreamStep cfg w w') : Placed cfg w'.ws := by
  cases h with
  | pollShutdown h =>
      unfold Ws.pollShutdown at h
      split at h
      · cases h
        cases hcancelled : w.cancelled <;> simp [goto, Placed]
      · simp at h
  | pollRead event now_ms h =>
      unfold Ws.pollRead at h
      split at h
      · split at h
        · cases h
          trivial
        · cases h
          unfold handle
          dsimp only
          split
          · trivial
          · split
            · trivial
            · trivial
        · cases h
          trivial
        · cases h
          trivial
      · simp at h
  | pollTimer elapsed h =>
      unfold Ws.pollTimer at h
      split at h
      · cases h
        cases elapsed <;> simp [goto, Placed]
      · simp at h
  | send h =>
      unfold Ws.send at h
      split at h
      · split at h
        · cases h
          trivial
        · simp at h
        · cases h
          trivial
      · simp at h
  | close h =>
      unfold Ws.close at h
      split at h
      · cases h
        trivial
      · simp at h

theorem endAttempt_placed (h : endAttempt cfg w = some w') : Placed cfg w'.ws := by
  unfold endAttempt at h
  split at h
  · dsimp only at h
    split at h
    · cases h
      trivial
    · cases h
      trivial
    · generalize (if w.ws.connected then { w.ws with backoff := 1, attempt := 0 } else w.ws) = ws
        at h
      split at h
      · cases h
        trivial
      · rename_i hless
        cases h
        exact Nat.lt_of_not_le hless
  · simp at h

theorem Run.placed {start : World} {log : List Event} (hstart : Fresh start)
    (hrun : Run cfg start log w) : Placed cfg w.ws := by
  induction hrun with
  | start => simp only [hstart.ws, Ws.new, Placed]
  | environment _ h ih => rwa [h.ws]
  | startAttempt _ h ih =>
      unfold Ws.startAttempt at h
      split at h
      · cases h
        rfl
      · simp at h
  | handshake _ h ih =>
      unfold setup at h
      split at h
      · cases h
        trivial
      · simp at h
  | noHandshake e _ h ih =>
      unfold setup at h
      split at h
      · cases h
        trivial
      · simp at h
  | stream _ h ih => exact h.placed
  | endAttempt result _ hpc h ih => exact endAttempt_placed h
  | backOff elapsed _ h ih =>
      unfold Ws.backOff at h
      split at h
      · split at h
        · cases h
          trivial
        · split at h
          · cases h
            trivial
          · simp at h
      · simp at h

/-- Where a shutdown can find `run` before a fatal error. -/
theorem Placed.orderly {ws : Ws} (hp : Placed cfg ws) (hlive : Live ws) : Orderly cfg ws := by
  unfold Placed at hp
  unfold Live at hlive
  unfold Orderly
  cases hpc : ws.pc with
  | attemptEnded result =>
      simp only [hpc] at hlive
      intro msg hfatal
      subst hfatal
      exact hlive
  | done result => simp only [hpc] at hlive
  | backingOff | setup | closing => simpa only [hpc] using hp
  | _ => trivial

end Ws

/-! ### Runs -/

theorem ws_step_advances (hcancelled : w.cancelled = true)
    (ho : Ws.Orderly cfg w.ws) {a : Action} (hclear : Clear cfg w a) (hws : a.ofWs = true)
    (h : step cfg w a = some w') : Ws.Advances cfg w w' := by
  cases a with
  | startAttempt => exact Ws.startAttempt_advances h
  | setup outcome => exact Ws.setup_advances ho hclear h
  | wsPollShutdown => exact Ws.pollShutdown_advances hcancelled h
  | wsPollRead event now_ms => exact Ws.pollRead_advances h
  | wsPollTimer elapsed => exact Ws.pollTimer_advances h
  | send => exact Ws.send_advances hclear h
  | close => exact Ws.close_advances ho h
  | endAttempt => exact Ws.endAttempt_advances ho hclear h
  | backOff elapsed => exact Ws.backOff_advances ho h
  | _ => simp [Action.ofWs] at hws

/-- `run` waits for room in the channel. -/
def Ws.Blocked (w : World) : Prop :=
  ∃ bytes, w.ws.pc = .forwarding bytes ∧ w.channel.send bytes = .full

/-- Once the token is cancelled, `run` can go on unless the channel is full. -/
theorem exists_ws_step (cfg : Config) (hcancelled : w.cancelled = true)
    (hlive : ∀ result, w.ws.pc ≠ .done result) :
    Ws.Blocked w ∨ ∃ a, Action.ofWs a = true ∧ (step cfg w a).isSome := by
  cases hpc : w.ws.pc with
  | loopHead => exact .inr ⟨.startAttempt, rfl, by simp [step, Ws.startAttempt, hpc]⟩
  | setup => exact .inr ⟨.setup (.ok ()), rfl, by simp [step, Ws.setup, hpc]⟩
  | pollShutdown => exact .inr ⟨.wsPollShutdown, rfl, by simp [step, Ws.pollShutdown, hpc]⟩
  | pollRead => exact .inr ⟨.wsPollRead none 0, rfl, by simp [step, Ws.pollRead, hpc]⟩
  | pollTimer => exact .inr ⟨.wsPollTimer true, rfl, by simp [step, Ws.pollTimer, hpc]⟩
  | forwarding bytes =>
      cases hsend : w.channel.send bytes with
      | full => exact .inl ⟨bytes, hpc, hsend⟩
      | sent channel => exact .inr ⟨.send, rfl, by simp [step, Ws.send, hpc, hsend]⟩
      | closed => exact .inr ⟨.send, rfl, by simp [step, Ws.send, hpc, hsend]⟩
  | closing result => exact .inr ⟨.close, rfl, by simp [step, Ws.close, hpc]⟩
  | attemptEnded result =>
      refine .inr ⟨.endAttempt, rfl, ?_⟩
      simp only [step, Ws.endAttempt, hpc]
      cases result with
      | ok value => rfl
      | error e =>
          cases e with
          | fatal msg => rfl
          | transient msg =>
              dsimp only
              split
              · split <;> rfl
              · split <;> rfl
  | backingOff => exact .inr ⟨.backOff false, rfl, by simp [step, Ws.backOff, hpc, hcancelled]⟩
  | done result => exact absurd hpc (hlive result)

theorem ClearRun.orderly {last : World} {actions : List Action}
    (hrun : ClearRun cfg w actions last) (hcancelled : w.cancelled = true)
    (ho : Ws.Orderly cfg w.ws) :
    last.cancelled = true ∧ Ws.Orderly cfg last.ws ∧
      actions.countP Action.ofWs + Ws.remaining cfg last.ws ≤ Ws.remaining cfg w.ws := by
  induction hrun with
  | nil w => simp [hcancelled, ho]
  | @cons w next last a actions hclear hstep _ ih =>
      have hnext := cancelled_step hstep hcancelled
      rw [List.countP_cons]
      by_cases hws : a.ofWs = true
      · obtain ⟨honext, hless⟩ := ws_step_advances hcancelled ho hclear hws hstep
        obtain ⟨hlast, holast, hcount⟩ := ih hnext honext
        refine ⟨hlast, holast, ?_⟩
        rw [if_pos hws]
        omega
      · have hsame := (Ws.environment_of_step (Bool.eq_false_iff.mpr hws) hstep).ws
        obtain ⟨hlast, holast, hcount⟩ := ih hnext (hsame ▸ ho)
        rw [hsame] at hcount
        refine ⟨hlast, holast, ?_⟩
        rw [if_neg hws]
        omega

theorem ClearRun.reachable {last : World} {actions : List Action}
    (hrun : ClearRun cfg w actions last) (hreach : (system cfg).Reachable w) :
    (system cfg).Reachable last := by
  induction hrun with
  | nil w => exact hreach
  | cons _ hstep _ ih => exact ih (hreach.step hstep)

/-- A shutdown requested while `run` has no fatal error, in a run all of whose later
steps are clear: `run` returns nothing but `Ok(())`, so `main` exits with nothing
else, and `run` does return: it takes at most `4 * max_retries + 10` more steps and
can always take one, unless it waits for room in the channel. -/
theorem shutdown_returns_ok (hreach : (system cfg).Reachable w) (hcancelled : w.cancelled = true)
    (hlive : Ws.Live w.ws) {last : World} {actions : List Action}
    (hrun : ClearRun cfg w actions last) :
    (∀ result, last.ws.pc = .done result → result = .ok ()) ∧
    (∀ result, last.main = .exited (.ok result) → result = .ok ()) ∧
    actions.countP Action.ofWs ≤ 4 * cfg.max_retries + 10 ∧
    ((∀ result, last.ws.pc ≠ .done result) →
      Ws.Blocked last ∨ ∃ a, Action.ofWs a = true ∧ (step cfg last a).isSome) := by
  obtain ⟨log, hlog⟩ := exists_ws_run hreach
  have ho := (hlog.placed ⟨rfl, rfl, rfl⟩).orderly hlive
  obtain ⟨hlast, holast, hcount⟩ := hrun.orderly hcancelled ho
  have hdone : ∀ result, last.ws.pc = .done result → result = .ok () := by
    intro result hpc
    simpa [Ws.Orderly, hpc] using holast
  refine ⟨hdone, ?_, ?_, exists_ws_step cfg hlast⟩
  · intro result hmain
    exact hdone result ((reachable_coherent (hrun.reachable hreach)).returned result (by
      rw [hmain]
      rfl))
  · have hbound := Ws.remaining_le cfg w.ws
    omega

/-- A frame is in `forward` when the signal arrives. -/
def frameInForward : List Action :=
  [.startAttempt, .setup (.ok ()), .wsPollShutdown,
   .wsPollRead (some (.message (.binary [1]))) 1, .signal]

/-- `forward` hands the frame over before the producer task stops. -/
def forwardFirst : List Action :=
  [.send, .prodPollShutdown, .prodPollShutdown, .wsPollShutdown, .close, .endAttempt,
   .emitterStop, .teardown (.ok ()), .teardown (.ok ()), .teardown (.ok ()), .teardown (.ok ()),
   .teardown (.ok ()), .teardown (.ok ())]

theorem forwardFirst_clear : ∃ w last,
    (system sampleConfig).run (World.new sampleConfig) frameInForward = some w ∧
      w.cancelled = true ∧ Ws.Live w.ws ∧
      ClearRun sampleConfig w forwardFirst last ∧ last.main = .exited (.ok (.ok ())) :=
  ⟨_, _, rfl, rfl, trivial, .cons rfl rfl <| .cons trivial rfl <| .cons trivial rfl <|
    .cons trivial rfl <| .cons trivial rfl <| .cons id rfl <| .cons trivial rfl <|
    .cons trivial rfl <| .cons trivial rfl <| .cons trivial rfl <| .cons trivial rfl <|
    .cons trivial rfl <| .cons trivial rfl <| .nil _, rfl⟩

theorem forwardFirst_ok : ∃ w last, (system sampleConfig).Reachable w ∧ w.cancelled = true ∧
    ClearRun sampleConfig w forwardFirst last ∧ last.main = .exited (.ok (.ok ())) ∧
    (∀ result, last.ws.pc = .done result → result = .ok ()) ∧
    forwardFirst.countP Action.ofWs ≤ 4 * sampleConfig.max_retries + 10 := by
  obtain ⟨w, last, hrun, hcancelled, hlive, hclear, hmain⟩ := forwardFirst_clear
  have hreach : (system sampleConfig).Reachable w := .of_run (.init rfl) hrun
  obtain ⟨hdone, _, hcount, _⟩ :=
    shutdown_returns_ok hreach hcancelled hlive hclear
  exact ⟨w, last, hreach, hcancelled, hclear, hmain, hdone, hcount⟩

/-- The producer task stops first, and the frame meets the dropped receiver. -/
def producerFirst : List Action :=
  [.prodPollShutdown, .prodPollShutdown, .send, .endAttempt, .emitterStop,
   .teardown (.ok ()), .teardown (.ok ()), .teardown (.ok ()), .teardown (.ok ()),
   .teardown (.ok ()), .teardown (.ok ())]

/-- The shutdown was requested before any error, and the process exits with one. -/
theorem frameInForwardRun_fatal : ∃ w last, (system sampleConfig).Reachable w ∧
    w.cancelled = true ∧ Ws.Live w.ws ∧
    (system sampleConfig).run w producerFirst = some last ∧
    last.ws.pc = .done (.error (.fatal "producer channel closed")) ∧
    last.main = .exited (.ok (.error (.fatal "producer channel closed"))) := by
  obtain ⟨w, hrun, hcancelled, hlive, last, hlast, hdone, hmain⟩ : ∃ w,
      (system sampleConfig).run (World.new sampleConfig) frameInForward = some w ∧
        w.cancelled = true ∧ Ws.Live w.ws ∧ ∃ last,
          (system sampleConfig).run w producerFirst = some last ∧
            last.ws.pc = .done (.error (.fatal "producer channel closed")) ∧
              last.main = .exited (.ok (.error (.fatal "producer channel closed"))) :=
    ⟨_, rfl, rfl, trivial, _, rfl, rfl, rfl⟩
  exact ⟨w, last, .of_run (.init rfl) hrun, hcancelled, hlive, hlast, hdone, hmain⟩

end Lakehouse.Extractor
