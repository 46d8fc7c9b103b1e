/-
TransactSql.Proofs.Execution.Ending — blanks at the end of a batch.

Blanks behind a text change neither what its calls answer nor what they
do to the server, whether its statements succeed or fail
(`execute_append_blanks`). That holds of every text but those that end
inside a quotation or a comment, or in a minus sign where a token should
begin. The lexer refuses such a minus sign, and a statement before it
meets the refusal while it looks for its own end, so it has no effect;
behind the minus sign, a blank makes an operator of it, and only the
statement after it fails (`execute_append_blank_ne`).
-/
import TransactSql.Proofs.Execution.Calls
import TransactSql.Proofs.Lexer.Ending

namespace TransactSql.Execution

open Lexer

/-- An execution does not see the blanks at the end of its text. -/
theorem ofText_append_blanks {text blanks : String} (hopen : ¬EndsOpen text)
    (hminus : ¬EndsInMinus text) (hblanks : ∀ c ∈ blanks.toList, isSpace c = true)
    (parameters : Bindings) : ofText (text ++ blanks) parameters = ofText text parameters := by
  rw [ofText, ofText, cursor_append_blanks hopen hminus hblanks]

/-- Blanks behind a text that ends neither inside a quotation, a bracketed name or a block comment,
nor in a minus sign with which a token would begin, change nothing: all calls answer the same and
leave the same server behind. -/
theorem execute_append_blanks {text blanks : String} (hopen : ¬EndsOpen text)
    (hminus : ¬EndsInMinus text) (hblanks : ∀ c ∈ blanks.toList, isSpace c = true)
    (server : Server) (parameters : Bindings) :
    server.execute (text ++ blanks) parameters = server.execute text parameters ∧
      ∀ n, (ofText (text ++ blanks) parameters).calls server n =
        (ofText text parameters).calls server n := by
  have hsame := ofText_append_blanks hopen hminus hblanks parameters
  refine ⟨?_, fun n => by rw [hsame]⟩
  rw [Server.execute, Server.execute, hsame]

/-- A row is inserted, and the last character is refused, with blanks behind it and without. -/
theorem execute_append_blanks_of_unknown_character :
    let server := ((Server.create {}).execute "CREATE TABLE t (a int)" Bindings.none).server
    let text := "INSERT t VALUES (1) SELECT 2 - -- minus\n?"
    server.execute (text ++ " \t\r\n") Bindings.none = server.execute text Bindings.none ∧
      ∀ n, (ofText (text ++ " \t\r\n") Bindings.none).calls server n =
        (ofText text Bindings.none).calls server n := by
  intro server text
  have hblanks : ∀ c ∈ " \t\r\n".toList, isSpace c = true := List.all_eq_true.mp (by decide)
  exact execute_append_blanks (by decide +kernel) (by decide +kernel) hblanks server _

/-- The row is inserted if a blank stands behind the minus sign, and is not if nothing does. -/
theorem execute_append_blank_ne :
    let server := ((Server.create {}).execute "CREATE TABLE t (a int)" Bindings.none).server
    let text := "INSERT t VALUES (1) -"
    let alone := server.execute text Bindings.none
    let before := server.execute (text ++ " ") Bindings.none
    ¬EndsOpen text ∧ (∀ c ∈ " ".toList, isSpace c = true) ∧
      alone.failure = some (.incorrectSyntax "-") ∧ before.failure = some (.incorrectSyntax "-") ∧
      alone.outcomes = [] ∧ before.outcomes = [.nonQuery (some 1)] ∧
      (alone.server.catalog.tables.get? "t").map Table.rows = some [] ∧
      (before.server.catalog.tables.get? "t").map Table.rows = some [[.int 1]] := by
  intro server text alone before
  have hblank : ∀ c ∈ " ".toList, isSpace c = true := List.all_eq_true.mp (by decide)
  refine ⟨by decide +kernel, hblank, ?_⟩
  decide +kernel

end TransactSql.Execution
