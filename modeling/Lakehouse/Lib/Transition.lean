/-
Transition systems with a partial, executable step function.

A `System` gives its initial states as a predicate and its steps as a function
`State → Action → Option State`: `none` means the action is not enabled. Runs
are lists of actions, so a concrete run can be replayed by evaluation, and the
reachable states come with their own induction rules:

* `Reachable.of_run`, `Reachable.exists_run` — the reachable states are exactly
  the ends of runs from an initial state.
* `Inductive.reachable` — an inductive predicate holds in every reachable state.
* `Inductive.reachable_of` — the relative form: the step lemma may use an
  invariant that is already known.
* `holds_at_end_iff` — a property that steps set and clear holds at the end of a
  run by its start or by the step that last set it.
-/

import Mathlib.Data.Option.Basic

namespace Transition

universe u v

/-- Initial states and a partial step function. -/
structure System (State : Type u) (Action : Type v) where
  init : State → Prop
  step : State → Action → Option State

variable {State : Type u} {Action : Type v} {S : System State Action}

namespace System

/-- Replay a list of actions; `none` as soon as one of them is not enabled. -/
def run (S : System State Action) : State → List Action → Option State
  | s, [] => some s
  | s, a :: rest => (S.step s a).bind fun next => S.run next rest

@[simp] theorem run_nil (s : State) : S.run s [] = some s := rfl

@[simp] theorem run_cons (s : State) (a : Action) (rest : List Action) :
    S.run s (a :: rest) = (S.step s a).bind fun next => S.run next rest := rfl

theorem run_append (s : State) (first second : List Action) :
    S.run s (first ++ second) = (S.run s first).bind fun middle => S.run middle second := by
  induction first generalizing s with
  | nil => rfl
  | cons a rest ih =>
      simp only [List.cons_append, run_cons]
      cases S.step s a with
      | none => rfl
      | some next => exact ih next

/-- The states reached from an initial state by enabled actions. -/
inductive Reachable (S : System State Action) : State → Prop where
  | init {s : State} : S.init s → Reachable S s
  | step {s next : State} {a : Action} :
      Reachable S s → S.step s a = some next → Reachable S next

/-- Following a run from a reachable state stays reachable. -/
theorem Reachable.of_run {s last : State} {actions : List Action} (h : S.Reachable s)
    (hrun : S.run s actions = some last) : S.Reachable last := by
  induction actions generalizing s with
  | nil =>
      cases hrun
      exact h
  | cons a rest ih =>
      cases hstep : S.step s a with
      | none => simp [hstep] at hrun
      | some next =>
          rw [run_cons, hstep] at hrun
          exact ih (h.step hstep) hrun

/-- Every reachable state is the end of a run from an initial state. -/
theorem Reachable.exists_run {last : State} (h : S.Reachable last) :
    ∃ s actions, S.init s ∧ S.run s actions = some last := by
  induction h with
  | init hinit => exact ⟨_, [], hinit, rfl⟩
  | @step s next a _ hstep ih =>
      obtain ⟨first, actions, hinit, hrun⟩ := ih
      refine ⟨first, actions ++ [a], hinit, ?_⟩
      rw [run_append, hrun]
      simp [hstep]

/-- `P` holds initially and every enabled action preserves it. -/
structure Inductive (S : System State Action) (P : State → Prop) : Prop where
  init : ∀ s, S.init s → P s
  step : ∀ s a next, P s → S.step s a = some next → P next

/-- An inductive predicate holds in every reachable state. -/
theorem Inductive.reachable {P : State → Prop} (h : S.Inductive P) {s : State}
    (hs : S.Reachable s) : P s := by
  induction hs with
  | init hinit => exact h.init _ hinit
  | step _ hstep ih => exact h.step _ _ _ ih hstep

/-- Relative induction: the step lemma may assume an invariant `Q` already
proved of the reachable states. -/
theorem Inductive.reachable_of {P Q : State → Prop} (known : ∀ s, S.Reachable s → Q s)
    (init : ∀ s, S.init s → P s)
    (step : ∀ s a next, Q s → P s → S.step s a = some next → P next) {s : State}
    (hs : S.Reachable s) : P s := by
  induction hs with
  | init hinit => exact init _ hinit
  | step hprev hstep ih => exact step _ _ _ (known _ hprev) ih hstep

/-! ### Properties that steps set and clear -/

/-- No step of the run clears. -/
def Avoids (S : System State Action) (Clears : State → Action → Prop) :
    State → List Action → Prop
  | _, [] => True
  | s, a :: rest => ¬ Clears s a ∧ ∀ next, S.step s a = some next → S.Avoids Clears next rest

/-- A step of the run sets, and no step after it clears. -/
def EndsSet (S : System State Action) (Sets Clears : State → Action → Prop) :
    State → List Action → Prop
  | _, [] => False
  | s, a :: rest => ∃ next, S.step s a = some next ∧
      ((Sets s a ∧ S.Avoids Clears next rest) ∨ S.EndsSet Sets Clears next rest)

/-- When every step says what it does to `Q`, a run says it too: `Q` held at the
start and was never cleared, or was set and not cleared afterwards. -/
theorem holds_at_end_iff {Q : State → Prop} {Sets Clears : State → Action → Prop}
    (hstep : ∀ s a next, S.Reachable s → S.step s a = some next →
      (Q next ↔ (Q s ∧ ¬ Clears s a) ∨ Sets s a))
    {s last : State} {actions : List Action} (h : S.Reachable s)
    (hrun : S.run s actions = some last) :
    Q last ↔ (Q s ∧ S.Avoids Clears s actions) ∨ S.EndsSet Sets Clears s actions := by
  induction actions generalizing s with
  | nil =>
      cases hrun
      simp [Avoids, EndsSet]
  | cons a rest ih =>
      rw [run_cons] at hrun
      obtain ⟨next, hnext, hrest⟩ := Option.bind_eq_some_iff.mp hrun
      have hend := ih (h.step hnext) hrest
      rw [hend, hstep s a next h hnext]
      simp only [Avoids, EndsSet, hnext, Option.some.injEq, forall_eq', exists_eq_left']
      rw [or_and_right, and_assoc, or_assoc]

end System

end Transition
