/-
TransactSql.Proofs.Client.Counting — the number of changed rows is that of
the rows that were added.

What a client is told after the execution of a command is compared with
the tables before and after it. If the command executes no `INSERT`, the
number is -1. Otherwise it is the number of rows that the tables of the
server have gained, or the largest 32-bit integer if they have gained
more (`counts_stored_rows`).
-/
import TransactSql.Proofs.Client.Navigation
import TransactSql.Proofs.Execution.Counting
import TransactSql.Proofs.Store.Histories

namespace TransactSql

namespace Session

variable {s : Session} {server other : ServerHandle} {catalog : Catalog}

/-- Entries of another server do not matter to what is found. -/
theorem lookup_filter_ne (catalogs : List (ServerHandle × Catalog)) (hother : other ≠ server) :
    (catalogs.filter fun entry => entry.1 ≠ server).lookup other = catalogs.lookup other := by
  induction catalogs with
  | nil => rfl
  | cons entry rest ih =>
    by_cases hentry : entry.1 = server
    · have hskipped : (other == entry.1) = false := beq_false_of_ne (hentry ▸ hother)
      rw [List.filter_cons_of_neg (by simp [hentry]), List.lookup_cons, hskipped]
      exact ih
    · rw [List.filter_cons_of_pos (by simp [hentry]), List.lookup_cons, List.lookup_cons, ih]

theorem catalog_withCatalog_self : (s.withCatalog server catalog).catalog server = catalog := by
  simp [Session.catalog, withCatalog]

theorem catalog_withCatalog_of_ne (hother : other ≠ server) :
    (s.withCatalog server catalog).catalog other = s.catalog other := by
  rw [Session.catalog, withCatalog, List.lookup_cons, beq_false_of_ne hother]
  exact congrArg (·.getD Catalog.empty) (lookup_filter_ne s.catalogs hother)

/-- A server is given tables that can come about, and the tables of the others stay. -/
theorem reachable_withCatalog (hstate : ∀ server, (s.catalog server).Reachable)
    (hcatalog : catalog.Reachable) (other : ServerHandle) :
    ((s.withCatalog server catalog).catalog other).Reachable := by
  by_cases hother : other = server
  · rw [hother, catalog_withCatalog_self]
    exact hcatalog
  · rw [catalog_withCatalog_of_ne hother]
    exact hstate other

end Session

namespace Outcome

variable {outcomes : List Outcome} {counts : List Nat}

/-- The number that is reported is -1 without a count, and otherwise the sum of the counts, cut. -/
theorem toInt_reported_totalChanged (h : outcomes.filterMap changed? = counts.map Numeral.saturate) :
    (reported (totalChanged outcomes)).toInt =
      if counts = [] then -1 else min 2147483647 (counts.sum : Int) := by
  rw [totalChanged_eq h]
  split
  · rfl
  · exact (Numeral.toInt_saturate counts.sum).trans (Int.min_comm _ _)

/-- A sum of counts is never mistaken for a missing one. -/
theorem reported_totalChanged_eq_iff
    (h : outcomes.filterMap changed? = counts.map Numeral.saturate) :
    reported (totalChanged outcomes) = -1 ↔ counts = [] := by
  have hminus : (-1 : Int32).toInt = -1 := by decide
  rw [← Int32.toInt_inj, hminus, toInt_reported_totalChanged h]
  split
  · simp [*]
  · simp only [*, iff_false]
    omega

theorem toInt_reported_of_ne (h : outcomes.filterMap changed? = counts.map Numeral.saturate)
    (hne : reported (totalChanged outcomes) ≠ -1) :
    (reported (totalChanged outcomes)).toInt = min 2147483647 (counts.sum : Int) := by
  rw [toInt_reported_totalChanged h,
    if_neg fun hnone => hne ((reported_totalChanged_eq_iff h).mpr hnone)]

end Outcome

/-- No statement inserts rows exactly if none of them is an `INSERT`. -/
theorem Statement.filterMap_inserted?_eq_nil_iff {statements : List Statement} :
    statements.filterMap inserted? = [] ↔
      ∀ table columns rows, insert table columns rows ∉ statements := by
  rw [List.filterMap_eq_nil_iff]
  constructor
  · intro hnone table columns rows hmem
    cases hnone _ hmem
  · intro hnone statement hmem
    cases statement with
    | insert table columns rows => exact absurd hmem (hnone table columns rows)
    | _ => rfl

namespace Command

variable {command : Command} {s : Session} {n : Int32}

/-- A call that executes a command runs its text, and answers what the run results in. -/
theorem execute_eq_ok {call : Call} {outcomes : List Outcome}
    (h : (command.execute s call).1 = .ok outcomes) :
    ∃ connection bindings, command.prepare s call = .ok (connection, bindings) ∧
      let run := (s.server connection.server).execute command.text bindings
      run.failure = none ∧ run.outcomes = outcomes ∧
        (command.execute s call).2 = s.withCatalog connection.server run.server.catalog := by
  unfold execute at h ⊢
  cases hprepare : command.prepare s call with
  | error failure => rw [hprepare] at h; cases h
  | ok prepared =>
    obtain ⟨connection, bindings⟩ := prepared
    rw [hprepare] at h
    refine ⟨connection, bindings, rfl, ?_⟩
    dsimp only [Execution.Run.result] at h ⊢
    split at h
    · cases h
    · rename_i hnone
      exact ⟨hnone, Except.ok.inj h, rfl⟩

/-- The number that a call answers is that of the outcomes of the command. -/
theorem executeNonQuery_eq_ok (h : (command.executeNonQuery s).1 = .ok n) :
    ∃ outcomes, (command.execute s .executeNonQuery).1 = .ok outcomes ∧
      Outcome.reported (Outcome.totalChanged outcomes) = n := by
  have hquery : (command.executeNonQuery s).1 = (command.execute s .executeNonQuery).1.map
      fun outcomes => Outcome.reported (Outcome.totalChanged outcomes) := rfl
  rw [hquery] at h
  cases hexecute : (command.execute s .executeNonQuery).1 with
  | error failure =>
    rw [hexecute] at h
    cases h
  | ok outcomes =>
    rw [hexecute] at h
    exact ⟨outcomes, rfl, Except.ok.inj h⟩

/-- A reader of the same command has the same number. -/
theorem affected_executeReader {call : Call} {outcomes : List Outcome}
    (h : (command.execute s call).1 = .ok outcomes) :
    (command.executeReader s).1.map (·.affected) =
      .ok (Outcome.reported (Outcome.totalChanged outcomes)) := by
  have hreader : (command.executeReader s).1 =
      (command.execute s .executeReader).1.map Reader.ofOutcomes := rfl
  rw [hreader, execute_of_ok h .executeReader, h]
  rfl

/-- Where a command is executed on a server whose tables have come about in any way: it tells -1
exactly if it executes no `INSERT`, and otherwise the number of rows by which the tables of the
server have grown, up to the largest 32-bit integer. If it is executed for a reader instead, the
reader tells the same number. The tables that are left are again some that can come about. -/
theorem counts_stored_rows (hstate : ∀ server, (s.catalog server).Reachable)
    (h : (command.executeNonQuery s).1 = .ok n) :
    ∃ connection bindings, command.prepare s .executeNonQuery = .ok (connection, bindings) ∧
      let executed := (Execution.ofText command.text bindings).statements
        (s.server connection.server)
      let before := (s.catalog connection.server).storedRows
      let after := ((command.executeNonQuery s).2.catalog connection.server).storedRows
      (n = -1 ↔ ∀ table columns rows, .insert table columns rows ∉ executed) ∧
      (n ≠ -1 → n.toInt = min 2147483647 ((after : Int) - before)) ∧
      (command.executeReader s).1.map (·.affected) = .ok n ∧
      ∀ server, ((command.executeNonQuery s).2.catalog server).Reachable := by
  obtain ⟨outcomes, hexecute, rfl⟩ := executeNonQuery_eq_ok h
  obtain ⟨connection, bindings, hprepare, hsucceeds, rfl, hsession⟩ := execute_eq_ok hexecute
  have hreachable := hstate connection.server
  obtain ⟨counts, hcounts, hreports, hgrown⟩ : ∃ counts, counts =
      ((Execution.ofText command.text bindings).statements
        (s.server connection.server)).filterMap Statement.inserted? ∧ _ :=
    ⟨_, rfl, Execution.counts_run hreachable.sound hsucceeds⟩
  have hlater : (command.executeNonQuery s).2 = s.withCatalog connection.server
      ((s.server connection.server).execute command.text bindings).server.catalog := hsession
  have hstored : ((command.executeNonQuery s).2.catalog connection.server).storedRows =
      (s.catalog connection.server).storedRows + counts.sum := by
    rw [hlater, Session.catalog_withCatalog_self, hcounts]
    exact hgrown
  refine ⟨connection, bindings, hprepare, ?_, fun hcounted => ?_,
    affected_executeReader hexecute, ?_⟩
  · rw [Outcome.reported_totalChanged_eq_iff (hcounts ▸ hreports), hcounts]
    exact Statement.filterMap_inserted?_eq_nil_iff
  · rw [Outcome.toInt_reported_of_ne (hcounts ▸ hreports) hcounted, hstored]
    omega
  · rw [hlater]
    exact Session.reachable_withCatalog hstate (Execution.reachable_run hreachable)

/-- A table has one row already, and two statements insert three more, one of them under another
spelling. -/
theorem counts_stored_rows_of_three :
    let server : ServerHandle := ⟨0, {}⟩
    let connection : Connection := ⟨1, server⟩
    let requests : List CatalogRequest :=
      [.create ⟨"T", [⟨"a", .int, false⟩], []⟩, .insert "T" none [[.int 7]]]
    let s : Session := { Session.empty with
      opened := [connection], catalogs := [(server, Catalog.empty.performAll requests)] }
    let command := Command.onConnection
      "INSERT t VALUES (1), (2) SELECT a FROM t CREATE TABLE u (b int) INSERT T (A) VALUES ('3')"
      connection
    (∀ server, (s.catalog server).Reachable) ∧ (command.executeNonQuery s).1 = .ok 3 ∧
      (s.catalog server).storedRows = 1 ∧
      ((command.executeNonQuery s).2.catalog server).storedRows = 4 ∧
      (command.executeReader s).1.map (·.affected) = .ok 3 := by
  intro server connection requests s command
  have hstate : ∀ server, (s.catalog server).Reachable := by
    intro other
    by_cases hserver : other = server
    · subst hserver
      exact ⟨requests, by simp [s, Session.catalog]⟩
    · refine ⟨[], ?_⟩
      rw [Session.catalog, List.lookup_cons, beq_false_of_ne hserver]
      rfl
  have hexecute : (command.executeNonQuery s).1 = .ok 3 := by decide +kernel
  obtain ⟨_, _, -, -, -, hreader, -⟩ := counts_stored_rows hstate hexecute
  exact ⟨hstate, hexecute, by decide +kernel, by decide +kernel, hreader⟩

end Command
end TransactSql
