/-
TransactSql.Proofs.Execution.Finishing — every execution comes to an end.

An execution can be called again and again, and between two calls others
may do with the server what they like. So nothing is assumed of the
servers that the calls find: `found n` is the one that call number `n`
finds, and `call` is what that call does.

An outcome takes at least one token of the text (`remaining_next_lt`), and
a call without an outcome ends the execution (`ended_of_no_outcome`). So
the calls answer outcomes, not more of them than there are tokens, then
perhaps a failure, and from then on nothing, and they leave the server
alone (`ends_once`).
-/
import TransactSql.Proofs.Execution.Fetching

namespace TransactSql.Execution

/-- The call of this number, counted from zero. -/
def call (e : Execution) (found : Nat → Server) : Nat → Step
  | 0 => e.next (found 0)
  | n + 1 => (e.next (found 0)).execution.call (fun i => found (i + 1)) n

variable {e : Execution}

/-- The call answers an outcome. -/
def Step.HasOutcome (s : Step) : Prop := ∃ outcome, s.item = some (.ok outcome)

/-- What has ended answers nothing and changes nothing, however often it is called. -/
theorem call_of_finished (h : e.finished = true) (found : Nat → Server) (n : Nat) :
    e.call found n = ⟨none, e, found n⟩ := by
  induction n generalizing found with
  | zero => exact next_of_finished h
  | succ n ih => rw [call, next_of_finished h, ih]

theorem remaining_lt_of_hasOutcome {server : Server} (h : (e.next server).HasOutcome) :
    (e.next server).execution.cursor.remaining < e.cursor.remaining := by
  obtain ⟨outcome, hitem⟩ := h
  have hnext : e.next server =
      ⟨some (.ok outcome), (e.next server).execution, (e.next server).server⟩ := by
    rw [← hitem]
  exact remaining_next_lt hnext

/-- There is a first call without an outcome. Not more calls come before it than there are tokens to
be read. It does not change the server, and after it nothing happens any more. -/
theorem exists_last_call (e : Execution) (found : Nat → Server) :
    ∃ last ≤ e.cursor.remaining, (∀ n < last, (e.call found n).HasOutcome) ∧
      ¬(e.call found last).HasOutcome ∧ (e.call found last).server = found last ∧
      ∀ n, last < n → e.call found n = ⟨none, (e.call found last).execution, found n⟩ := by
  induction hr : e.cursor.remaining using Nat.strongRecOn generalizing e found with
  | ind remaining ih =>
    by_cases houtcome : (e.next (found 0)).HasOutcome
    · have hless := hr ▸ remaining_lt_of_hasOutcome houtcome
      obtain ⟨last, hle, hbefore, hlast, hserver, hafter⟩ :=
        ih _ hless (e.next (found 0)).execution (fun n => found (n + 1)) rfl
      refine ⟨last + 1, Nat.lt_of_le_of_lt hle hless, fun n hn => ?_, hlast, hserver,
        fun n hn => ?_⟩
      · cases n with
        | zero => exact houtcome
        | succ n => exact hbefore n (Nat.lt_of_succ_lt_succ hn)
      · cases n with
        | zero => exact absurd hn (Nat.not_lt_zero _)
        | succ n => exact hafter n (Nat.lt_of_succ_lt_succ hn)
    · obtain ⟨hfinished, hserver⟩ := ended_of_no_outcome (not_exists.mp houtcome)
      refine ⟨0, Nat.zero_le _, fun n hn => absurd hn (Nat.not_lt_zero n), houtcome, hserver,
        fun n hn => ?_⟩
      cases n with
      | zero => exact absurd hn (Nat.lt_irrefl 0)
      | succ n => exact call_of_finished hfinished (fun i => found (i + 1)) n

/-- An execution ends, and it fails at most once. Whatever servers its calls find, they first answer
outcomes, not more than the text has significant tokens. The next call answers a failure or nothing,
and changes nothing; and so it goes on, all further calls answer nothing, and neither the execution
nor the server is changed by them. -/
theorem ends_once (text : String) (parameters : Bindings) (found : Nat → Server) :
    let e := ofText text parameters
    ∃ last ≤ ((Lexer.ofText text).tokens.1.filter fun t => !t.isTrivia).length,
      (∀ n < last, ∃ outcome, (e.call found n).item = some (.ok outcome)) ∧
      ((e.call found last).item = none ∨
        ∃ failure, (e.call found last).item = some (.error failure)) ∧
      (e.call found last).server = found last ∧
      ∀ n, last < n → (e.call found n).item = none ∧ (e.call found n).server = found n ∧
        (e.call found n).execution = (e.call found last).execution := by
  intro e
  obtain ⟨last, hle, hbefore, hlast, hserver, hafter⟩ := exists_last_call e found
  refine ⟨last, hle, hbefore, ?_, hserver, fun n hn => ?_⟩
  · rcases hitem : (e.call found last).item with _ | failure | outcome
    · exact .inl rfl
    · exact .inr ⟨failure, rfl⟩
    · exact absurd ⟨outcome, hitem⟩ hlast
  · rw [hafter n hn]
    exact ⟨rfl, rfl, rfl⟩

end TransactSql.Execution
