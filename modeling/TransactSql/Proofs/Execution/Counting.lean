/-
TransactSql.Proofs.Execution.Counting — the number of rows that a text
inserts.

Every `INSERT` that a text executes reports how many rows it inserted, as
far as a 32-bit integer can tell, and no other statement reports a
number. The sum of the reports stops at the largest 32-bit integer, and
so does each of them; in the end that comes to the same as if the exact
numbers were added up and only the sum were cut (`totalChanged_eq`).

The exact sum is also what the tables have gained. `statements` are the
statements that a text executes; one of them adds the rows that it
inserts to those that are stored (`Statement.storedRows_run`), and a run
adds those of all of them (`counts_run`).
-/
import Mathlib.Algebra.Ring.Nat
import TransactSql.Proofs.Execution.Fetching
import TransactSql.Proofs.Statement.Effects
import TransactSql.Proofs.Store.Histories

namespace TransactSql

/-! ## Reports -/

open Numeral in
/-- Numbers that are cut and added give the sum that is cut. -/
theorem Outcome.saturatingAdd_saturate (m n : Nat) :
    saturatingAdd (saturate m) (saturate n) = saturate (m + n) := by
  rw [saturatingAdd, toInt_saturate, toInt_saturate, saturate]
  congr 1
  omega

open Numeral in
theorem Outcome.foldl_saturatingAdd (first : Nat) (counts : List Nat) :
    (counts.map saturate).foldl saturatingAdd (saturate first) = saturate (first + counts.sum) := by
  induction counts generalizing first with
  | nil => rfl
  | cons count counts ih =>
    rw [List.map_cons, List.foldl_cons, saturatingAdd_saturate, ih, List.sum_cons, Nat.add_assoc]

/-- Reports add up to the sum of what is reported, and without any there is no sum. -/
theorem Outcome.totalChanged_eq {outcomes : List Outcome} {counts : List Nat}
    (h : outcomes.filterMap changed? = counts.map Numeral.saturate) :
    totalChanged outcomes = if counts = [] then none else some (Numeral.saturate counts.sum) := by
  rw [totalChanged, h]
  cases counts with
  | nil => rfl
  | cons first counts =>
    exact congrArg some (foldl_saturatingAdd first counts)

/-! ## Rows in tables -/

/-- The number of rows in all tables together. -/
def Catalog.storedRows (catalog : Catalog) : Nat :=
  (catalog.tables.toList.map fun entry => entry.2.rows.length).sum

namespace Statement

/-- The number of rows that the statement inserts, if it is an `INSERT`. -/
def inserted? : Statement → Option Nat
  | insert _ _ rows => some rows.length
  | _ => none

variable {catalog after : Catalog} {statement : Statement} {outcome : Outcome}

/-- An `INSERT` reports its rows and adds them to the tables. Other statements do neither. -/
theorem storedRows_run (h : catalog.Sound)
    (hrun : statement.perform.run catalog = .ok outcome after) :
    after.Sound ∧ outcome.changed? = statement.inserted?.map Numeral.saturate ∧
      after.storedRows = catalog.storedRows + statement.inserted?.getD 0 := by
  cases statement with
  | select query =>
    obtain ⟨set, -, rfl, rfl⟩ := select_eq_ok.mp hrun
    exact ⟨h, rfl, rfl⟩
  | createTable name columns =>
    obtain ⟨table, htable, hcreate, rfl⟩ := createTable_eq_ok.mp hrun
    obtain ⟨rfl, -⟩ := Table.create_eq_ok htable
    obtain ⟨hsound, -, hperm⟩ := Catalog.create_eq_ok h hcreate
    refine ⟨hsound, rfl, ?_⟩
    rw [Catalog.storedRows, (hperm.map _).sum_nat]
    simp [Catalog.storedRows, inserted?]
  | insert name names rows =>
    obtain ⟨count, hinsert, rfl⟩ := insert_eq_ok.mp hrun
    obtain ⟨table, table', others, htable, hsound, hbefore, hafter⟩ :=
      Catalog.insert_eq_ok h hinsert
    obtain ⟨-, prepared, -, -, rfl, rfl, hlength⟩ := Table.insert_eq_ok htable
    refine ⟨hsound, congrArg (fun n => some (Numeral.saturate n)) hlength, ?_⟩
    rw [Catalog.storedRows, Catalog.storedRows, (hbefore.map _).sum_nat, (hafter.map _).sum_nat]
    simp only [List.map_cons, List.sum_cons, Table.append, List.length_append, hlength, inserted?,
      Option.getD_some]
    omega

/-- A statement does to a catalog what some request does, or nothing. -/
theorem reachable_run (h : catalog.Reachable)
    (hrun : statement.perform.run catalog = .ok outcome after) : after.Reachable := by
  cases statement with
  | select query =>
    obtain ⟨set, -, rfl, rfl⟩ := select_eq_ok.mp hrun
    exact h
  | createTable name columns =>
    obtain ⟨table, -, hcreate, rfl⟩ := createTable_eq_ok.mp hrun
    have hperform := h.perform (.create table)
    rwa [Catalog.perform, Change.stateAfter, hcreate] at hperform
  | insert name names rows =>
    obtain ⟨count, hinsert, rfl⟩ := insert_eq_ok.mp hrun
    have hperform := h.perform (.insert name names rows)
    rwa [Catalog.perform, Change.stateAfter, hinsert] at hperform

end Statement

/-! ## Runs -/

/-- The statement that is found, if there is one. -/
def Fetched.statement? : Fetched → Option Statement
  | answer _ _ => none
  | ready statement _ => some statement

namespace Execution

/-- The statements that an execution runs until it has come to its end. Where it ends with the
failure of a statement, this one is the last of them. -/
def statements (e : Execution) (server : Server) : List Statement :=
  (e.fetch server.configuration.version).statement?.toList ++
    match _h : e.next server with
    | ⟨some (.ok _), later, after⟩ => later.statements after
    | _ => []
termination_by e.cursor.remaining
decreasing_by exact remaining_next_lt _h

variable {e : Execution} {server : Server}

/-- Without a statement to run there is no outcome. -/
theorem ne_outcome_of_fetch {version : String} {item : Option (Except Error Outcome)}
    {later : Execution} (h : e.fetch version = .answer item later) (outcome : Outcome) :
    item ≠ some (.ok outcome) := by
  fun_induction fetch e version with
  | case1 | case2 | case3 | case5 | case7 =>
    cases h
    intro hitem
    cases hitem
  | case4 _ _ _ _ _ _ ih => exact ih h
  | case6 _ _ _ _ _ _ _ _ _ ih => exact ih h
  | case8 => cases h

/-- Where a call has an outcome, it has run a statement, and the others come behind it. -/
theorem statements_of_outcome {outcome : Outcome} {later : Execution} {after : Server}
    (h : e.next server = ⟨some (.ok outcome), later, after⟩) :
    ∃ statement catalog, statement.perform.run server.catalog = .ok outcome catalog ∧
      after = { server with catalog := catalog } ∧
      e.statements server = statement :: later.statements after := by
  have hperform := e.next_eq_perform server
  rw [statements]
  cases hfetch : e.fetch server.configuration.version with
  | answer item last =>
    rw [hfetch, h] at hperform
    exact absurd (congrArg Step.item hperform).symm (ne_outcome_of_fetch hfetch outcome)
  | ready statement last =>
    rw [hfetch, h, Fetched.perform] at hperform
    split at hperform
    · cases hperform
    · rename_i hrun
      cases hperform
      refine ⟨statement, _, Change.answer_eq_ok.mp hrun, rfl, ?_⟩
      split
      · rename_i hnext
        cases h.symm.trans hnext
        rfl
      · rename_i hother
        exact absurd h (hother _ _ _)

/-- Where a call has nothing to answer, there was no statement left. -/
theorem statements_of_end {later : Execution} {after : Server}
    (h : e.next server = ⟨none, later, after⟩) : e.statements server = [] ∧ after = server := by
  have hperform := e.next_eq_perform server
  rw [statements]
  cases hfetch : e.fetch server.configuration.version with
  | answer item last =>
    rw [hfetch, h] at hperform
    cases hperform
    refine ⟨?_, rfl⟩
    split
    · rename_i hnext
      cases h.symm.trans hnext
    · rfl
  | ready statement last =>
    rw [hfetch, h, Fetched.perform] at hperform
    split at hperform <;> cases hperform

/-- The reports of a run that succeeds are those of the rows that its statements insert, and the
tables have gained all of these rows. -/
theorem counts_run (h : server.catalog.Sound) (hsucceeds : (e.run server).failure = none) :
    let counts := (e.statements server).filterMap Statement.inserted?
    (e.run server).outcomes.filterMap Outcome.changed? = counts.map Numeral.saturate ∧
      (e.run server).server.catalog.storedRows = server.catalog.storedRows + counts.sum := by
  induction hn : e.cursor.remaining using Nat.strongRecOn generalizing e server with
  | ind n ih =>
    rw [run_eq] at hsucceeds ⊢
    rcases hnext : e.next server with ⟨_ | failure | outcome, later, after⟩
    · obtain ⟨hnone, rfl⟩ := statements_of_end hnext
      rw [hnone]
      exact ⟨rfl, rfl⟩
    · rw [hnext] at hsucceeds
      cases hsucceeds
    · rw [hnext] at hsucceeds
      obtain ⟨statement, catalog, hrun, rfl, hstatements⟩ := statements_of_outcome hnext
      obtain ⟨hsound, hreported, hrows⟩ := Statement.storedRows_run h hrun
      obtain ⟨hreports, hstored⟩ := ih _ (hn ▸ remaining_next_lt hnext) hsound hsucceeds rfl
      rw [hstatements]
      cases hinserted : statement.inserted? with
      | none =>
        rw [hinserted] at hreported hrows
        rw [List.filterMap_cons_none hinserted, List.filterMap_cons_none hreported]
        exact ⟨hreports, hstored.trans (by rw [hrows]; rfl)⟩
      | some count =>
        rw [hinserted] at hreported hrows
        rw [List.filterMap_cons_some hinserted, List.filterMap_cons_some hreported]
        refine ⟨congrArg (Numeral.saturate count :: ·) hreports, hstored.trans ?_⟩
        rw [hrows, List.sum_cons]
        exact Nat.add_assoc _ _ _

/-- What a run leaves behind can come about. -/
theorem reachable_run (h : server.catalog.Reachable) : (e.run server).server.catalog.Reachable := by
  induction hn : e.cursor.remaining using Nat.strongRecOn generalizing e server with
  | ind n ih =>
    rw [← server_run_next]
    rcases e.next_cases server with ⟨hsame, hnone⟩ | ⟨scope, token, cursor, later, statement, outcome,
      catalog, -, -, hrun, hitem, hserver⟩
    · rw [server_run_of_finished (ended_of_no_outcome hnone).1, hsame]
      exact h
    · have hnext : e.next server =
          ⟨some (.ok outcome), (e.next server).execution, (e.next server).server⟩ := by
        rw [← hitem]
      refine ih _ (hn ▸ remaining_next_lt hnext) ?_ rfl
      rw [hserver]
      exact Statement.reachable_run h hrun

end Execution
end TransactSql
