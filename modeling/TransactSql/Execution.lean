/-
TransactSql.Execution — command texts, run statement by statement.

An `Execution` is a command text on its way. `next` reads and runs one
statement and answers its outcome. Semicolons between statements and the
setting of session options have no outcome and are passed over. The first
failure ends the execution; the statements before it keep their effects,
and after it nothing is read or changed any more. Several executions may
take turns on one server.

`run` runs an execution to its end. It ends, because every outcome takes
at least one token: `remaining_next_lt`.
-/
import TransactSql.Server
import TransactSql.Statement.Grammar

namespace TransactSql

/-- A command text, part of which has been run. -/
structure Execution where
  cursor : Cursor
  parameters : Bindings
  /-- The rows that the last statement returned or changed. -/
  rowCount : Int32
  /-- Nothing is run any more. -/
  finished : Bool

namespace Execution

/-- A command text of which nothing has been run. -/
def ofText (text : String) (parameters : Bindings) : Execution :=
  ⟨Cursor.ofText text, parameters, 0, false⟩

/-- What the next statement can refer to. -/
def scope (e : Execution) (server : Server) : Scope :=
  ⟨e.parameters, server.configuration.version, e.rowCount⟩

/-- The execution at its end. -/
def finish (e : Execution) (cursor : Cursor) : Execution :=
  { e with cursor := cursor, finished := true }

/-- What a call of `next` answers: an outcome, a failure, or nothing at the end of the text. -/
structure Step where
  item : Option (Except Error Outcome)
  execution : Execution
  server : Server

/-- Runs the statement that begins with a token. The cursor stands behind that token. -/
def runStatement (e : Execution) (server : Server) (token : Token) (cursor : Cursor) : Step :=
  match (Statement.read (e.scope server) token).run cursor with
  | (.error failure, cursor) => ⟨some (.error failure), e.finish cursor, server⟩
  | (.ok statement, cursor) =>
    match statement.perform.run server.catalog with
    | .error failure catalog =>
      ⟨some (.error failure), e.finish cursor, { server with catalog := catalog }⟩
    | .ok outcome catalog =>
      ⟨some (.ok outcome), { e with cursor := cursor, rowCount := outcome.rowCount },
        { server with catalog := catalog }⟩

/-- A token that is read leaves fewer tokens behind. -/
theorem remaining_lt_of_next {c c' : Cursor} {token : Token}
    (h : c.next = (.ok (some token), c')) : c'.remaining < c.remaining := by
  have taken := Cursor.remaining_next c
  have positive := Cursor.remaining_pos_of_next h
  rw [h] at taken
  exact taken ▸ Nat.sub_lt positive Nat.one_pos

/-- What a reader leaves behind a token is less than what stood before the token. -/
theorem remaining_lt_of_next_of_run {α : Type} {c c' c'' : Cursor} {token : Token}
    {answer : Except Error α} {p : Parse α} (h : c.next = (.ok (some token), c'))
    (h' : p.run c' = (answer, c'')) : c''.remaining < c.remaining := by
  have later := p.remaining_run_le c'
  rw [h'] at later
  exact Nat.lt_of_le_of_lt later (remaining_lt_of_next h)

/-- Runs the next statement. -/
def next (e : Execution) (server : Server) : Step :=
  if e.finished then ⟨none, e, server⟩
  else
    match _h : e.cursor.next with
    | (.error failure, cursor) => ⟨some (.error failure), e.finish cursor, server⟩
    | (.ok none, cursor) => ⟨none, e.finish cursor, server⟩
    | (.ok (some token), cursor) =>
      if token.kind == .terminator then next { e with cursor := cursor } server
      else if token.isKeyword .SET then
        match _h' : Statement.readOption.run cursor with
        | (.error failure, later) => ⟨some (.error failure), e.finish later, server⟩
        | (.ok (), later) => next { e with cursor := later, rowCount := 0 } server
      else runStatement e server token cursor
termination_by e.cursor.remaining
decreasing_by
  · exact remaining_lt_of_next _h
  · exact remaining_lt_of_next_of_run _h _h'

theorem remaining_runStatement_le (e : Execution) (server : Server) (token : Token)
    (cursor : Cursor) : (runStatement e server token cursor).execution.cursor.remaining ≤
      cursor.remaining := by
  have read := (Statement.read (e.scope server) token).remaining_run_le cursor
  unfold runStatement
  split
  · next heq => rw [heq] at read; exact read
  · next heq =>
    rw [heq] at read
    split
    · exact read
    · exact read

/-- An outcome takes at least one token. -/
theorem remaining_next_lt {e later : Execution} {server after : Server} {outcome : Outcome}
    (h : e.next server = ⟨some (.ok outcome), later, after⟩) :
    later.cursor.remaining < e.cursor.remaining := by
  fun_induction next e server with
  | case1 => cases h
  | case2 => cases h
  | case3 => cases h
  | case4 e _ token cursor taken _ ih => exact Nat.lt_trans (ih h) (remaining_lt_of_next taken)
  | case5 => cases h
  | case6 e _ token cursor taken _ _ later read ih =>
    exact Nat.lt_trans (ih h) (remaining_lt_of_next_of_run taken read)
  | case7 e _ token cursor taken =>
    have statement := remaining_runStatement_le e server token cursor
    rw [h] at statement
    exact Nat.lt_of_le_of_lt statement (remaining_lt_of_next taken)

/-- A run of all statements: their outcomes, the failure that ended it, if one did, and the server
after it. -/
structure Run where
  outcomes : List Outcome
  failure : Option Error
  server : Server

/-- Runs all statements that are left. -/
def run (e : Execution) (server : Server) : Run :=
  match _h : e.next server with
  | ⟨none, _, after⟩ => ⟨[], none, after⟩
  | ⟨some (.error failure), _, after⟩ => ⟨[], some failure, after⟩
  | ⟨some (.ok outcome), later, after⟩ =>
    let rest := run later after
    { rest with outcomes := outcome :: rest.outcomes }
termination_by e.cursor.remaining
decreasing_by exact remaining_next_lt _h

/-- The outcomes of a run without failure. -/
def Run.result (r : Run) : Except Error (List Outcome) :=
  match r.failure with
  | some failure => .error failure
  | none => .ok r.outcomes

end Execution

/-- Runs a command text to its end. -/
def Server.execute (server : Server) (text : String) (parameters : Bindings) : Execution.Run :=
  (Execution.ofText text parameters).run server

end TransactSql
