/-
TransactSql.Proofs.Statement.Effects — what statements do to a catalog.

The outcome of a statement tells what has become of the catalog
(`Outcome.Tells`): rows leave it as it was, no number means a new table,
and a number is that of the rows that were appended to a table.
`tells_of_run` proves it of every statement that is read from a text.

Where the values of the rows are well-formed, a statement also keeps the
tables consistent (`consistent_of_run`). They are, because a text can
only say well-formed values, and every operation on them answers
well-formed values again (`Expression.isWellFormed_eval`).
-/
import TransactSql.Proofs.Expression.Leaves
import TransactSql.Proofs.Statement.Performing

namespace TransactSql

open Parse

/-! ## The values that a scope supplies -/

theorem Value.isWellFormed_number (number : Number) : number.toValue.isWellFormed = true := by
  cases number <;> rfl

theorem Scope.mem_of_parameter {scope : Scope} {name : String} {v : Value}
    (h : scope.parameter name = .ok v) : ∃ entry ∈ scope.parameters.toList, entry.2 = v := by
  unfold Scope.parameter at h
  split at h
  · next hfound =>
    cases h
    exact CollatedMap.exists_mem_of_get? hfound
  · cases h

theorem Scope.systemVariable_cases {scope : Scope} {name : String} {v : Value}
    (h : scope.systemVariable name = .ok v) :
    v = .nvarchar scope.version ∨ v = .int scope.rowCount := by
  unfold Scope.systemVariable at h
  dsimp only at h
  split at h
  · cases h
    exact .inl rfl
  · split at h <;> cases h
    exact .inr rfl

/-- Well-formed parameters are all that a scope needs to supply well-formed values. -/
theorem Scope.supplies_wellFormed {scope : Scope}
    (h : ∀ entry ∈ scope.parameters.toList, entry.2.isWellFormed = true) :
    scope.Supplies fun v => v.isWellFormed = true := by
  refine ⟨Value.isWellFormed_number, fun _ => rfl, fun _ => rfl, rfl, fun name v hv => ?_,
    fun name v hv => ?_⟩
  · obtain ⟨entry, hentry, rfl⟩ := Scope.mem_of_parameter hv
    exact h entry hentry
  · rcases Scope.systemVariable_cases hv with rfl | rfl <;> rfl

/-! ## Statements that are read -/

namespace Statement

/-- A statement that inserts rows has some, and all their values have a property. -/
def Supplied (values : Value → Prop) : Statement → Prop
  | insert _ _ rows => rows ≠ [] ∧ ∀ row ∈ rows, ∀ v ∈ row, values v
  | _ => True

/-- A statement that selects does so by a query that has a property. -/
def Selects (queries : Query → Prop) : Statement → Prop
  | select query => queries query
  | _ => True

variable {tokens : Token → Prop} {values : Value → Prop}

theorem yieldsFrom_readRow {expression : Parse Expression}
    (h : (readValue expression).YieldsFrom tokens values) :
    (readRow expression).YieldsFrom tokens fun row => ∀ v ∈ row, values v := by
  refine (yieldsFrom_expect _).bind fun _ _ =>
    (yieldsFrom_commaSeparated h).bind fun row hrow => ?_
  exact (yieldsFrom_expect _).bind fun _ _ => yieldsFrom_pure hrow.2

/-- What the values of expressions have in common holds of the rows of a statement, and what
queries have in common of its query. -/
theorem yieldsFrom_read {scope : Scope} {queries : Query → Prop}
    (hquery : (Query.read scope maxNesting).YieldsFrom tokens queries)
    (hvalue : (readValue (Expression.read scope maxNesting)).YieldsFrom tokens values)
    (token : Token) :
    (read scope token).YieldsFrom tokens fun statement =>
      statement.Supplied values ∧ statement.Selects queries := by
  unfold read
  split
  · exact hquery.bind fun query hselects => yieldsFrom_pure ⟨trivial, hselects⟩
  · refine stopsBefore_refuseOtherKinds.bindFrom fun _ => ?_
    refine stopsBefore_qualifiedName.bindFrom fun _ => ?_
    refine (yieldsFrom_expect _).bind fun _ _ => stopsBefore_readColumns.bindFrom fun _ => ?_
    exact (yieldsFrom_expect _).bind fun _ _ => yieldsFrom_pure ⟨trivial, trivial⟩
  · refine (yieldsFrom_consume _).bind fun _ _ => stopsBefore_qualifiedName.bindFrom fun _ => ?_
    refine stopsBefore_readColumnList?.bindFrom fun _ =>
      stopsBefore_refuseOtherSources.bindFrom fun _ => ?_
    exact (yieldsFrom_commaSeparated (yieldsFrom_readRow hvalue)).bind fun rows hrows =>
      yieldsFrom_pure ⟨hrows, trivial⟩
  · exact yieldsFrom_ite (yieldsFrom_fail _ _) (yieldsFrom_fail _ _)
  · exact yieldsFrom_fail _ _

theorem yields_read {scope : Scope}
    (h : (readValue (Expression.read scope maxNesting)).Yields values) (token : Token) :
    (read scope token).Yields (Supplied values) := by
  have hquery : (Query.read scope maxNesting).YieldsFrom (fun _ => True) fun _ => True :=
    (Query.stopsBefore_read scope maxNesting).yieldsFrom
  exact ((yieldsFrom_read hquery h.yieldsFrom token).mono fun _ => And.left).yields

/-- In a scope with well-formed parameters all values are well-formed. -/
theorem yields_wellFormed {scope : Scope}
    (h : ∀ entry ∈ scope.parameters.toList, entry.2.isWellFormed = true) (token : Token) :
    (read scope token).Yields (Supplied fun v => v.isWellFormed = true) := by
  have hrow : ∀ name v, Lookup.noRow name = .ok v → v.isWellFormed = true := nofun
  refine yields_read ?_ token
  refine (Expression.yields_read (Scope.supplies_wellFormed h) maxNesting).bind fun e he => ?_
  exact yields_ofExcept fun v hv => Expression.isWellFormed_eval he.literals hrow hv

end Statement

/-! ## Statements that are run -/

/-- What the outcome tells about the catalog before the statement and the one after it. -/
def Outcome.Tells (before after : Catalog) : Outcome → Prop
  | rowSet _ => after = before
  | nonQuery none => before.AddsTable after
  | nonQuery (some changed) =>
    ∃ count, 1 ≤ count ∧ changed = Numeral.saturate count ∧ before.AppendsRows count after

theorem Numeral.toInt_saturate (n : Nat) : (saturate n).toInt = min (n : Int) 2147483647 := by
  have hlower : -2 ^ 31 ≤ (min n 2147483647 : Int) := by omega
  have hupper : (min n 2147483647 : Int) < 2 ^ 31 := by omega
  exact Int32.toInt_ofInt_of_le hlower hupper

/-- The number that is reported tells a new table from new rows, and how many rows they are. -/
theorem Outcome.Tells.reported {before after : Catalog} {changed : Option Int32}
    (h : (nonQuery changed).Tells before after) :
    (Outcome.reported changed = -1 → before.AddsTable after) ∧
      (Outcome.reported changed ≠ -1 → 1 ≤ (Outcome.reported changed).toInt ∧
        ∃ count : Nat, before.AppendsRows count after ∧
          (Outcome.reported changed).toInt = min (count : Int) 2147483647) := by
  cases changed with
  | none => exact ⟨fun _ => h, fun hreported => absurd rfl hreported⟩
  | some n =>
    obtain ⟨count, hcount, rfl, happends⟩ := h
    have hint : (Outcome.reported (some (Numeral.saturate count))).toInt =
        min (count : Int) 2147483647 := Numeral.toInt_saturate count
    refine ⟨fun hreported => ?_, fun _ => ⟨by omega, count, happends, hint⟩⟩
    rw [hreported] at hint
    have hminus : (-1 : Int32).toInt = -1 := by decide
    omega

namespace Statement

variable {catalog after : Catalog} {statement : Statement} {outcome : Outcome}

theorem tells_of_run (h : catalog.Sound) {values : Value → Prop}
    (hstatement : statement.Supplied values) (hrun : statement.perform.run catalog = .ok outcome after) :
    after.Sound ∧ outcome.Tells catalog after := by
  cases statement with
  | select query =>
    obtain ⟨set, -, rfl, rfl⟩ := select_eq_ok.mp hrun
    exact ⟨h, rfl⟩
  | createTable name columns =>
    obtain ⟨table, htable, hcreate, rfl⟩ := createTable_eq_ok.mp hrun
    obtain ⟨hsound, hdiffers, hperm⟩ := Catalog.create_eq_ok h hcreate
    obtain ⟨rfl, -⟩ := Table.create_eq_ok htable
    exact ⟨hsound, _, rfl, hdiffers, hperm⟩
  | insert name names rows =>
    obtain ⟨count, hinsert, rfl⟩ := insert_eq_ok.mp hrun
    obtain ⟨table, table', others, htable, hsound, hbefore, hafter⟩ :=
      Catalog.insert_eq_ok h hinsert
    obtain ⟨-, prepared, -, -, rfl, rfl, hlength⟩ := Table.insert_eq_ok htable
    refine ⟨hsound, prepared.length, ?_, rfl, table, prepared, others, rfl, hbefore, hafter⟩
    rw [hlength]
    exact List.length_pos_iff.mpr hstatement.1

/-- A statement keeps the tables consistent. -/
theorem consistent_of_run (h : catalog.Sound)
    (htables : ∀ entry ∈ catalog.tables.toList, entry.2.Consistent)
    (hstatement : statement.Supplied fun v => v.isWellFormed = true)
    (hrun : statement.perform.run catalog = .ok outcome after) :
    ∀ entry ∈ after.tables.toList, entry.2.Consistent := by
  cases statement with
  | select query =>
    obtain ⟨set, -, rfl, rfl⟩ := select_eq_ok.mp hrun
    exact htables
  | createTable name columns =>
    obtain ⟨table, htable, hcreate, rfl⟩ := createTable_eq_ok.mp hrun
    obtain ⟨-, -, hperm⟩ := Catalog.create_eq_ok h hcreate
    intro entry hentry
    rcases List.mem_cons.mp (hperm.mem_iff.mp hentry) with rfl | hentry
    · exact Table.Consistent.create htable
    · exact htables entry hentry
  | insert name names rows =>
    obtain ⟨count, hinsert, rfl⟩ := insert_eq_ok.mp hrun
    obtain ⟨table, table', others, htable, -, hbefore, hafter⟩ := Catalog.insert_eq_ok h hinsert
    intro entry hentry
    rcases List.mem_cons.mp (hafter.mem_iff.mp hentry) with rfl | hentry
    · have hold := htables _ (hbefore.mem_iff.mpr List.mem_cons_self)
      exact hold.insert htable hstatement.2
    · exact htables entry (hbefore.mem_iff.mpr (List.mem_cons_of_mem _ hentry))

end Statement
end TransactSql
