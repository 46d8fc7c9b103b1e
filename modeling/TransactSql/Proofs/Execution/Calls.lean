/-
TransactSql.Proofs.Execution.Calls — what a call of `next` does.

A call takes the next token and handles it; there is one equation for
each way that can go (`next_of_token` and the ones before it).
`next_cases` sums up what a call can do to the server:
nothing, or what a statement does that has been read and run.

`calls` makes so many calls, and `run_eq` is a run to the end, call by
call.
-/
import TransactSql.Execution
import TransactSql.Proofs.Statement.Performing

namespace TransactSql.Execution

/-! ## One call, case by case -/

variable {e : Execution} {server : Server} {cursor : Cursor} {failure : Error} {t : Token}

/-- What a call does with a token that it has taken. -/
def handle (e : Execution) (server : Server) (t : Token) (cursor : Cursor) : Step :=
  if t.kind == .terminator then next { e with cursor := cursor } server
  else if t.isKeyword .SET then
    match Statement.readOption.run cursor with
    | (.error failure, later) => ⟨some (.error failure), e.finish later, server⟩
    | (.ok (), later) => next { e with cursor := later, rowCount := 0 } server
  else runStatement e server t cursor

theorem next_of_finished (h : e.finished = true) : e.next server = ⟨none, e, server⟩ := by
  rw [next, if_pos h]

theorem next_eq (h : e.finished = false) (server : Server) :
    e.next server =
      match e.cursor.next with
      | (.error failure, cursor) => ⟨some (.error failure), e.finish cursor, server⟩
      | (.ok none, cursor) => ⟨none, e.finish cursor, server⟩
      | (.ok (some t), cursor) => handle e server t cursor := by
  rw [next, if_neg (by simp [h])]
  split
  · rename_i heq
    rw [heq]
  · rename_i heq
    rw [heq]
  · rename_i heq
    rw [heq]
    unfold handle
    dsimp only
    congr 2
    split <;> rename_i heq <;> rw [heq]

theorem next_of_fault (h : e.finished = false) (hnext : e.cursor.next = (.error failure, cursor)) :
    e.next server = ⟨some (.error failure), e.finish cursor, server⟩ := by
  rw [next_eq h, hnext]

theorem next_of_end (h : e.finished = false) (hnext : e.cursor.next = (.ok none, cursor)) :
    e.next server = ⟨none, e.finish cursor, server⟩ := by
  rw [next_eq h, hnext]

theorem next_of_token (h : e.finished = false) (hnext : e.cursor.next = (.ok (some t), cursor)) :
    e.next server = handle e server t cursor := by
  rw [next_eq h, hnext]

/-- A statement that fails leaves the server as it was. -/
theorem runStatement_eq (e : Execution) (server : Server) (t : Token) (cursor : Cursor) :
    runStatement e server t cursor =
      match (Statement.read (e.scope server) t).run cursor with
      | (.error failure, later) => ⟨some (.error failure), e.finish later, server⟩
      | (.ok statement, later) =>
        match statement.perform.answer server.catalog with
        | .error failure => ⟨some (.error failure), e.finish later, server⟩
        | .ok (outcome, catalog) =>
          ⟨some (.ok outcome), { e with cursor := later, rowCount := outcome.rowCount },
            { server with catalog := catalog }⟩ := by
  unfold runStatement
  rcases (Statement.read (e.scope server) t).run cursor with ⟨failure | statement, later⟩
  · rfl
  · dsimp only
    rw [statement.atomic_perform.run_eq]
    cases statement.perform.answer server.catalog <;> rfl

/-! ## What a call can do -/

/-- The call has not failed. -/
def Step.Succeeds (s : Step) : Prop := ∀ failure, s.item ≠ some (.error failure)

/-- A call leaves the server alone, or it answers the outcome of a statement that it has read and
run. -/
theorem next_cases (e : Execution) (server : Server) :
    ((e.next server).server = server ∧ ∀ outcome, (e.next server).item ≠ some (.ok outcome)) ∨
      ∃ (scope : Scope) (token : Token) (cursor later : Cursor) (statement : Statement)
        (outcome : Outcome) (catalog : Catalog), scope.parameters = e.parameters ∧
        (Statement.read scope token).run cursor = (.ok statement, later) ∧
        statement.perform.run server.catalog = .ok outcome catalog ∧
        (e.next server).item = some (.ok outcome) ∧
        (e.next server).server = { server with catalog := catalog } := by
  fun_induction next e server with
  | case1 => exact .inl ⟨rfl, by simp⟩
  | case2 => exact .inl ⟨rfl, by simp⟩
  | case3 => exact .inl ⟨rfl, by simp⟩
  | case4 _ _ _ _ _ _ ih => exact ih
  | case5 => exact .inl ⟨rfl, by simp⟩
  | case6 _ _ _ _ _ _ _ _ _ ih => exact ih
  | case7 e hfinished token cursor hnext hterminator hset =>
    rw [runStatement_eq]
    split
    · exact .inl ⟨rfl, by simp⟩
    · rename_i statement later hread
      split
      · exact .inl ⟨rfl, by simp⟩
      · rename_i outcome catalog hanswer
        exact .inr ⟨e.scope server, token, cursor, later, statement, outcome, catalog, rfl, hread,
          Change.answer_eq_ok.mp hanswer, rfl, rfl⟩

theorem parameters_next (e : Execution) (server : Server) :
    (e.next server).execution.parameters = e.parameters := by
  fun_induction next e server with
  | case1 => rfl
  | case2 => rfl
  | case3 => rfl
  | case4 _ _ _ _ _ _ ih => exact ih
  | case5 => rfl
  | case6 _ _ _ _ _ _ _ _ _ ih => exact ih
  | case7 =>
    unfold runStatement
    split
    · rfl
    · split <;> rfl

/-! ## All calls -/

/-- What so many calls answer, one after the other, and the server after them. -/
def calls (e : Execution) (server : Server) : Nat → List (Option (Except Error Outcome)) × Server
  | 0 => ([], server)
  | n + 1 =>
    let step := e.next server
    let later := step.execution.calls step.server n
    (step.item :: later.1, later.2)

theorem run_eq (e : Execution) (server : Server) :
    e.run server =
      match e.next server with
      | ⟨none, _, after⟩ => ⟨[], none, after⟩
      | ⟨some (.error failure), _, after⟩ => ⟨[], some failure, after⟩
      | ⟨some (.ok outcome), later, after⟩ =>
        { run later after with outcomes := outcome :: (run later after).outcomes } := by
  rw [run]
  split <;> rename_i heq <;> rw [heq]

end TransactSql.Execution
