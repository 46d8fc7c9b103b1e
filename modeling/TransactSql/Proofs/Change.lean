/-
TransactSql.Proofs.Change — what a failure leaves behind.

A change is atomic if it leaves the state as it was whenever it fails
(`Atomic`). It is so if all that can fail stands before all that changes
the state: readings may stand before an atomic change
(`Atomic.reading_bind`), and what cannot fail (`Total`) behind one
(`Atomic.bind`). A loop that only reads is one reading (`mapM_reading`).

`run_bind_ok` takes a change that has answered apart into the answers of
its steps. `answer` is all that an atomic change says (`Atomic.run_eq`):
its answer and the state after that, or its failure.
-/
import TransactSql.Change

namespace TransactSql

/-- Of two results it can be decided whether they are equal, so a fixed one can be computed in a
proof. -/
instance decidableEqResult {ε σ α : Type} [DecidableEq ε] [DecidableEq σ] [DecidableEq α] :
    DecidableEq (EStateM.Result ε σ α)
  | .ok a s, .ok b t => decidable_of_iff (a = b ∧ s = t) (by simp)
  | .error e s, .error f t => decidable_of_iff (e = f ∧ s = t) (by simp)
  | .ok _ _, .error _ _ => isFalse nofun
  | .error _ _, .ok _ _ => isFalse nofun

namespace Change

variable {σ α β : Type} {p : Change σ α} {f : α → Change σ β}

/-! ## Steps -/

theorem run_bind_ok {s after : σ} {b : β} :
    (p >>= f).run s = .ok b after ↔
      ∃ a between, p.run s = .ok a between ∧ (f a).run between = .ok b after := by
  rw [EStateM.run_bind]
  cases p.run s with
  | error e between => simp
  | ok a between =>
    refine ⟨fun h => ⟨a, between, rfl, h⟩, ?_⟩
    rintro ⟨_, _, ⟨⟩, h⟩
    exact h

theorem run_reading_bind_ok {read : σ → Except Error α} {s after : σ} {b : β} :
    (reading read >>= f).run s = .ok b after ↔
      ∃ a, read s = .ok a ∧ (f a).run s = .ok b after := by
  rw [EStateM.run_bind, run_reading]
  cases read s <;> simp

theorem run_bind_pure_ok {g : α → β} {s after : σ} {b : β} :
    (p >>= fun a => pure (g a)).run s = .ok b after ↔
      ∃ a, p.run s = .ok a after ∧ b = g a := by
  rw [EStateM.run_bind]
  cases p.run s with
  | error e between => simp
  | ok a between =>
    refine ⟨?_, ?_⟩
    · rintro ⟨⟩
      exact ⟨a, rfl, rfl⟩
    · rintro ⟨_, ⟨⟩, rfl⟩
      rfl

/-- To read for one item after the other is to read once, for all of them. -/
theorem mapM_reading (read : β → σ → Except Error α) (items : List β) :
    (items.mapM fun item => reading (read item)) =
      reading fun s => items.mapM fun item => read item s := by
  induction items with
  | nil => rfl
  | cons item items ih =>
    funext s
    rw [List.mapM_cons, ih]
    show ((reading (read item) >>= _ : Change σ (List α))).run s = (reading _).run s
    rw [EStateM.run_bind, run_reading, run_reading, List.mapM_cons]
    cases read item s with
    | error e => rfl
    | ok a =>
      dsimp only
      rw [EStateM.run_bind, run_reading]
      cases items.mapM fun item => read item s <;> rfl

/-! ## Answers -/

/-- The answer of a change and the state after it. What a failure leaves behind is not told. -/
def answer (p : Change σ α) (s : σ) : Except Error (α × σ) :=
  match p.run s with
  | .ok a after => .ok (a, after)
  | .error e _ => .error e

theorem answer_eq_ok {s after : σ} {a : α} :
    p.answer s = .ok (a, after) ↔ p.run s = .ok a after := by
  unfold answer
  cases p.run s <;> simp

theorem answer_bind (p : Change σ α) (f : α → Change σ β) (s : σ) :
    answer (p >>= f) s = p.answer s >>= fun first => (f first.1).answer first.2 := by
  rw [answer, EStateM.run_bind, answer]
  cases p.run s <;> rfl

theorem answer_reading (read : σ → Except Error α) (s : σ) :
    (reading read).answer s = (read s).map fun a => (a, s) := by
  rw [answer, run_reading]
  cases read s <;> rfl

/-! ## Failures -/

/-- The state that a change ends in, whether it fails or not. -/
def stateAfter (p : Change σ α) (s : σ) : σ :=
  match p.run s with
  | .ok _ after => after
  | .error _ after => after

/-- A failure leaves the state as it was. -/
def Atomic (p : Change σ α) : Prop := ∀ s e after, p.run s = .error e after → after = s

/-- The change never fails. -/
def Total (p : Change σ α) : Prop := ∀ s, ∃ a after, p.run s = .ok a after

/-- The state after an atomic change is that of its answer, or else it is the one before. -/
theorem Atomic.stateAfter_cases (h : Atomic p) (s : σ) :
    p.stateAfter s = s ∨ ∃ a, p.run s = .ok a (p.stateAfter s) := by
  unfold stateAfter
  cases hrun : p.run s with
  | ok a after => exact .inr ⟨a, rfl⟩
  | error e after => exact .inl (h s e after hrun)

/-- What an atomic change does is told by its answer. -/
theorem Atomic.run_eq (h : Atomic p) (s : σ) :
    p.run s = match p.answer s with
      | .ok (a, after) => .ok a after
      | .error e => .error e s := by
  unfold answer
  cases hrun : p.run s with
  | ok a after => rfl
  | error e after => rw [h s e after hrun]

theorem total_pure (a : α) : Total (pure a : Change σ α) := fun s => ⟨a, s, rfl⟩

theorem total_modify (g : σ → σ) : Total (modify g : Change σ PUnit) := fun s => ⟨_, g s, rfl⟩

theorem Total.bind (hp : Total p) (hf : ∀ a, Total (f a)) : Total (p >>= f) := by
  intro s
  obtain ⟨a, between, hrun⟩ := hp s
  obtain ⟨b, after, hrest⟩ := hf a between
  exact ⟨b, after, run_bind_ok.mpr ⟨a, between, hrun, hrest⟩⟩

theorem Total.atomic (h : Total p) : Atomic p := by
  intro s e after hfails
  obtain ⟨a, other, hrun⟩ := h s
  cases hrun.symm.trans hfails

/-- Before an atomic change the state may be read, and that may fail. -/
theorem Atomic.reading_bind {read : σ → Except Error α} (hf : ∀ a, Atomic (f a)) :
    Atomic (reading read >>= f) := by
  intro s e after hfails
  rw [EStateM.run_bind, run_reading] at hfails
  cases hread : read s with
  | error e' =>
    rw [hread] at hfails
    cases hfails
    rfl
  | ok a =>
    rw [hread] at hfails
    exact hf a s e after hfails

/-- Behind an atomic change comes what cannot fail. -/
theorem Atomic.bind (hp : Atomic p) (hf : ∀ a, Total (f a)) : Atomic (p >>= f) := by
  intro s e after hfails
  rw [EStateM.run_bind] at hfails
  cases hrun : p.run s with
  | error e' between =>
    rw [hrun] at hfails
    cases hfails
    exact hp s e after hrun
  | ok a between =>
    rw [hrun] at hfails
    obtain ⟨b, end', hrest⟩ := hf a between
    cases hrest.symm.trans hfails

end Change
end TransactSql
