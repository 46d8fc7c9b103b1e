/-
TransactSql.Proofs.Execution.Fetching — reading comes before running.

A call of `next` reads its text up to the end of the next statement, and
then runs that statement. What it reads depends on the execution and on
the version of the server, never on the tables (`fetch`,
`next_eq_perform`). So the statements that an execution runs are known
one by one, and with them the names under which it looks for tables
(`names`).
-/
import TransactSql.Proofs.Execution.Calls
import TransactSql.Proofs.Statement.Frame

namespace TransactSql

/-- What a call of `next` finds in a text. -/
inductive Fetched where
  /-- There is no statement to run, and this is what the call answers. -/
  | answer (item : Option (Except Error Outcome)) (later : Execution)
  /-- A statement, with the execution behind it. -/
  | ready (statement : Statement) (later : Execution)

namespace Fetched

/-- What becomes of it on a server. -/
def perform (server : Server) : Fetched → Execution.Step
  | answer item later => ⟨item, later, server⟩
  | ready statement later =>
    match statement.perform.answer server.catalog with
    | .error failure => ⟨some (.error failure), later.finish later.cursor, server⟩
    | .ok (outcome, catalog) =>
      ⟨some (.ok outcome), { later with rowCount := outcome.rowCount },
        { server with catalog := catalog }⟩

/-- The names that are passed to the catalog. -/
def tables : Fetched → List String
  | answer _ _ => []
  | ready statement _ => statement.tables

end Fetched

namespace Execution

/-- Reads the text up to the end of the next statement. -/
def fetch (e : Execution) (version : String) : Fetched :=
  if e.finished then .answer none e
  else
    match _h : e.cursor.next with
    | (.error failure, cursor) => .answer (some (.error failure)) (e.finish cursor)
    | (.ok none, cursor) => .answer none (e.finish cursor)
    | (.ok (some token), cursor) =>
      if token.kind == .terminator then fetch { e with cursor := cursor } version
      else if token.isKeyword .SET then
        match _h' : Statement.readOption.run cursor with
        | (.error failure, later) => .answer (some (.error failure)) (e.finish later)
        | (.ok (), later) => fetch { e with cursor := later, rowCount := 0 } version
      else
        match (Statement.read ⟨e.parameters, version, e.rowCount⟩ token).run cursor with
        | (.error failure, later) => .answer (some (.error failure)) (e.finish later)
        | (.ok statement, later) => .ready statement { e with cursor := later }
termination_by e.cursor.remaining
decreasing_by
  · exact remaining_lt_of_next _h
  · exact remaining_lt_of_next_of_run _h _h'

/-- A call reads, and then it runs what it has read. -/
theorem next_eq_perform (e : Execution) (server : Server) :
    e.next server = (e.fetch server.configuration.version).perform server := by
  fun_induction fetch e server.configuration.version with
  | case1 e hfinished => exact next_of_finished hfinished
  | case2 e hfinished failure cursor hnext =>
    exact next_of_fault (Bool.not_eq_true _ ▸ hfinished) hnext
  | case3 e hfinished cursor hnext => exact next_of_end (Bool.not_eq_true _ ▸ hfinished) hnext
  | case4 e hfinished token cursor hnext hterminator ih =>
    rw [next_of_token (Bool.not_eq_true _ ▸ hfinished) hnext, handle, if_pos hterminator, ih]
  | case5 e hfinished token cursor hnext hterminator hset failure later hread =>
    rw [next_of_token (Bool.not_eq_true _ ▸ hfinished) hnext, handle, if_neg hterminator,
      if_pos hset, hread]
    rfl
  | case6 e hfinished token cursor hnext hterminator hset later hread ih =>
    rw [next_of_token (Bool.not_eq_true _ ▸ hfinished) hnext, handle, if_neg hterminator,
      if_pos hset, hread]
    exact ih
  | case7 e hfinished token cursor hnext hterminator hset failure later hread =>
    rw [next_of_token (Bool.not_eq_true _ ▸ hfinished) hnext, handle, if_neg hterminator,
      if_neg hset, runStatement_eq, scope, hread]
    rfl
  | case8 e hfinished token cursor hnext hterminator hset statement later hread =>
    rw [next_of_token (Bool.not_eq_true _ ▸ hfinished) hnext, handle, if_neg hterminator,
      if_neg hset, runStatement_eq, scope, hread]
    rfl

/-! ## The end -/

variable {e : Execution} {server : Server}

/-- A call without an outcome ends the execution and changes no table. -/
theorem ended_of_no_outcome (h : ∀ outcome, (e.next server).item ≠ some (.ok outcome)) :
    (e.next server).execution.finished = true ∧ (e.next server).server = server := by
  refine ⟨?_, ?_⟩
  · fun_induction next e server with
    | case1 e hfinished => exact hfinished
    | case2 => rfl
    | case3 => rfl
    | case4 _ _ _ _ _ _ ih => exact ih h
    | case5 => rfl
    | case6 _ _ _ _ _ _ _ _ _ ih => exact ih h
    | case7 e hfinished token cursor =>
      rw [runStatement_eq] at h ⊢
      split
      · rfl
      · split
        · rfl
        · rename_i hread _ _ _ hrun
          rw [hread] at h
          dsimp only at h
          rw [hrun] at h
          exact absurd rfl (h _)
  · rcases e.next_cases server with hsame | ⟨_, _, _, _, _, outcome, _, -, -, -, hitem, -⟩
    · exact hsame.1
    · exact absurd hitem (h outcome)

theorem server_run_of_finished (h : e.finished = true) (server : Server) :
    (e.run server).server = server := by
  rw [run_eq, next_of_finished h]

/-- A run to the end may begin with a call. -/
theorem server_run_next (e : Execution) (server : Server) :
    ((e.next server).execution.run (e.next server).server).server = (e.run server).server := by
  rw [run_eq e server]
  by_cases h : ∃ outcome, (e.next server).item = some (.ok outcome)
  · obtain ⟨outcome, hitem⟩ := h
    generalize e.next server = step at hitem
    obtain ⟨item, later, after⟩ := step
    obtain rfl : item = some (.ok outcome) := hitem
    rfl
  · obtain ⟨hfinished, hsame⟩ := ended_of_no_outcome (not_exists.mp h)
    rw [server_run_of_finished hfinished]
    generalize e.next server = step at h hsame
    obtain ⟨_ | failure | outcome, later, after⟩ := step
    · rfl
    · rfl
    · exact absurd ⟨outcome, rfl⟩ h

/-- Where there is nothing left to answer, a run changes nothing. -/
theorem server_run_of_exhausted (h : (e.next server).item = none) :
    (e.run server).server = server := by
  have hnone : ∀ outcome, (e.next server).item ≠ some (.ok outcome) := by
    intro outcome
    rw [h]
    exact nofun
  obtain ⟨hfinished, hsame⟩ := ended_of_no_outcome hnone
  rw [← server_run_next, server_run_of_finished hfinished, hsame]

/-! ## Names -/

/-- The names that an execution passes to the catalog until it has come to its end. -/
def names (e : Execution) (server : Server) : List String :=
  (e.fetch server.configuration.version).tables ++
    match _h : e.next server with
    | ⟨some (.ok _), later, after⟩ => later.names after
    | _ => []
termination_by e.cursor.remaining
decreasing_by exact remaining_next_lt _h

theorem names_of_finished (h : e.finished = true) (server : Server) : e.names server = [] := by
  rw [names, fetch, if_pos h]
  split
  · rename_i hnext
    rw [next_of_finished h] at hnext
    cases hnext
  · rfl

/-- The names are those of the next call, and those of all calls after it. -/
theorem names_eq (e : Execution) (server : Server) :
    e.names server = (e.fetch server.configuration.version).tables ++
      (e.next server).execution.names (e.next server).server := by
  rw [names]
  congr 1
  split
  · rename_i hnext
    rw [hnext]
  · rename_i hnot
    have hnone : ∀ outcome, (e.next server).item ≠ some (.ok outcome) := fun outcome hitem =>
      hnot outcome _ _ (by rw [← hitem])
    rw [names_of_finished (ended_of_no_outcome hnone).1]

end Execution
end TransactSql
