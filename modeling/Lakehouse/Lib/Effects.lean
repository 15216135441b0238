/-
Computations over a state that survives a failure.

`Call σ ε α` reads and changes a state `σ` and ends with a value or an error;
what it changed before an error stays changed. `Succeeds x s a t` says that `x`
started in `s` ends with `a` in `t`, and the simp lemmas take it apart along
the structure of `x`. `Ends x s Q` speaks of failures too.
-/

namespace Effects

universe u

abbrev Call (σ ε : Type u) (α : Type u) : Type u := ExceptT ε (StateM σ) α

variable {σ ε α β : Type u}

/-- Run from a state. -/
def Call.exec (x : Call σ ε α) (s : σ) : Except ε α × σ := StateT.run (ExceptT.run x) s

/-- An operation given by its result in each state. -/
def Call.of (f : σ → Except ε α × σ) : Call σ ε α := ExceptT.mk f

def Succeeds (x : Call σ ε α) (s : σ) (a : α) (t : σ) : Prop := x.exec s = (.ok a, t)

variable {s t : σ} {a : α} {b : β}

@[simp] theorem succeeds_of {f : σ → Except ε α × σ} :
    Succeeds (Call.of f) s a t ↔ f s = (.ok a, t) := Iff.rfl

@[simp] theorem succeeds_pure {x : α} : Succeeds (pure x : Call σ ε α) s a t ↔ x = a ∧ s = t := by
  show (Except.ok x, s) = (Except.ok a, t) ↔ _
  simp

@[simp] theorem succeeds_throw {e : ε} : Succeeds (throw e : Call σ ε α) s a t ↔ False := by
  show (Except.error e, s) = (Except.ok a, t) ↔ _
  simp

/-- A sequence succeeds when both halves do. -/
@[simp] theorem succeeds_bind {x : Call σ ε α} {f : α → Call σ ε β} :
    Succeeds (x >>= f) s b t ↔ ∃ a m, Succeeds x s a m ∧ Succeeds (f a) m b t := by
  have hbind : (x >>= f).exec s = ExceptT.bindCont f (x.exec s).1 (x.exec s).2 := rfl
  unfold Succeeds
  rw [hbind]
  cases hx : x.exec s with
  | mk result middle =>
      cases result with
      | error e =>
          constructor
          · intro h
            cases h
          · rintro ⟨value, m, hvalue, _⟩
            cases hvalue
      | ok value =>
          constructor
          · exact fun h => ⟨value, middle, rfl, h⟩
          · rintro ⟨_, _, hvalue, hf⟩
            cases hvalue
            exact hf

@[simp] theorem succeeds_map {x : Call σ ε α} {f : α → β} :
    Succeeds (f <$> x) s b t ↔ ∃ a, Succeeds x s a t ∧ f a = b := by
  rw [map_eq_pure_bind, succeeds_bind]
  simp only [succeeds_pure]
  constructor
  · rintro ⟨value, _, hx, hvalue, rfl⟩
    exact ⟨value, hx, hvalue⟩
  · rintro ⟨value, hx, hvalue⟩
    exact ⟨value, t, hx, hvalue, rfl⟩

@[simp] theorem succeeds_ite {c : Prop} [Decidable c] {x y : Call σ ε α} :
    Succeeds (if c then x else y) s a t ↔ if c then Succeeds x s a t else Succeeds y s a t := by
  split <;> rfl

/-! ### Whatever it ends with -/

/-- Started in `s`, `x` ends with a result and in a state that satisfy `Q`. -/
def Ends (x : Call σ ε α) (s : σ) (Q : Except ε α → σ → Prop) : Prop := Q (x.exec s).1 (x.exec s).2

@[simp] theorem ends_of {f : σ → Except ε α × σ} {Q : Except ε α → σ → Prop} :
    Ends (Call.of f) s Q ↔ Q (f s).1 (f s).2 := Iff.rfl

@[simp] theorem ends_pure {Q : Except ε α → σ → Prop} :
    Ends (pure a : Call σ ε α) s Q ↔ Q (.ok a) s := Iff.rfl

/-- A sequence goes on from a value, and ends with an error. -/
theorem ends_bind {x : Call σ ε α} {f : α → Call σ ε β} {Q : Except ε β → σ → Prop} :
    Ends (x >>= f) s Q ↔ Ends x s fun result t =>
      match result with
      | .ok a => Ends (f a) t Q
      | .error e => Q (.error e) t := by
  have hbind : (x >>= f).exec s = ExceptT.bindCont f (x.exec s).1 (x.exec s).2 := rfl
  unfold Ends
  rw [hbind]
  cases (x.exec s).1 with
  | error e => exact Iff.rfl
  | ok a => exact Iff.rfl

/-- However it ends, `I` still holds. -/
def Keeps (I : σ → Prop) (x : Call σ ε α) : Prop := ∀ s, I s → Ends x s fun _ t => I t

theorem keeps_pure (I : σ → Prop) (a : α) : Keeps I (pure a : Call σ ε α) := fun _ h => h

theorem keeps_bind {I : σ → Prop} {x : Call σ ε α} {f : α → Call σ ε β} (hx : Keeps I x)
    (hf : ∀ a, Keeps I (f a)) : Keeps I (x >>= f) := by
  intro s hs
  rw [ends_bind]
  have hmiddle : I (x.exec s).2 := hx s hs
  unfold Ends
  cases (x.exec s).1 with
  | error e => exact hmiddle
  | ok a => exact hf a _ hmiddle

end Effects
