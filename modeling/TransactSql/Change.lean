/-
TransactSql.Change — changes of a state that may fail.

A `Change` goes from one state to another and answers, or fails. A
failure takes nothing back: what was changed before it stays changed. So
a change that fails leaves its state alone only if it does nothing to the
state before it can fail, which is a matter of the order of its steps.
-/
import TransactSql.Error

namespace TransactSql

/-- A computation that may change a state and may fail. The state that it ends in is there in
either case. -/
abbrev Change (σ : Type) := EStateM Error σ

namespace Change

variable {σ α : Type}

/-- Computes something from the state, which stays as it is. -/
def reading (f : σ → Except Error α) : Change σ α := do
  match f (← get) with
  | .ok a => pure a
  | .error e => throw e

theorem run_reading (f : σ → Except Error α) (s : σ) :
    (reading f).run s =
      match f s with
      | .ok a => .ok a s
      | .error e => .error e s := by
  unfold reading
  rw [EStateM.run_bind, EStateM.run_get]
  dsimp only
  split <;> rfl

end Change
end TransactSql
