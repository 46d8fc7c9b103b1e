/-
TransactSql.Proofs.Statement.Performing — a statement succeeds as a whole.

All that can fail in a statement comes before it changes the catalog, or
it is the change of the catalog itself, which succeeds as a whole
(`Statement.atomic_perform`). So a statement is described by its answer,
of which there is one equation for each sort of statement.
-/
import TransactSql.Proofs.Store.Catalogs
import TransactSql.Statement.Basic

namespace TransactSql.Statement

/-- A statement that fails leaves the catalog as it was. -/
theorem atomic_perform (statement : Statement) : Change.Atomic statement.perform := by
  cases statement with
  | select query => exact .reading_bind fun set => (Change.total_pure _).atomic
  | createTable name columns =>
    refine .reading_bind fun table => ?_
    exact (Catalog.atomic_create table).bind fun _ => Change.total_pure _
  | insert table columns rows =>
    exact (Catalog.atomic_insert table columns rows).bind fun count => Change.total_pure _

/-! ## Success -/

variable {catalog after : Catalog} {outcome : Outcome}

theorem select_eq_ok {query : Query} :
    (select query).perform.run catalog = .ok outcome after ↔
      ∃ set, query.run catalog = .ok set ∧ outcome = .rowSet set ∧ after = catalog := by
  refine Change.run_reading_bind_ok.trans (exists_congr fun set => and_congr_right fun _ => ?_)
  rw [EStateM.run_pure, EStateM.Result.ok.injEq, eq_comm, @eq_comm _ catalog]

theorem createTable_eq_ok {name : String} {columns : List Column} :
    (createTable name columns).perform.run catalog = .ok outcome after ↔
      ∃ table, Table.create name columns = .ok table ∧
        (Catalog.create table).run catalog = .ok () after ∧ outcome = .nonQuery none := by
  refine Change.run_reading_bind_ok.trans (exists_congr fun table => and_congr_right fun _ => ?_)
  exact Change.run_bind_pure_ok.trans ⟨fun ⟨(), hcreate⟩ => hcreate, fun hcreate => ⟨(), hcreate⟩⟩

theorem insert_eq_ok {table : String} {columns : Option (List String)} {rows : List Row} :
    (insert table columns rows).perform.run catalog = .ok outcome after ↔
      ∃ count, (Catalog.insert table columns rows).run catalog = .ok count after ∧
        outcome = .nonQuery (some (Numeral.saturate count)) :=
  Change.run_bind_pure_ok

/-! ## Answers -/

theorem answer_select (query : Query) (catalog : Catalog) :
    (select query).perform.answer catalog =
      (query.run catalog).map fun set => (.rowSet set, catalog) := by
  rw [perform, Change.answer_bind, Change.answer_reading]
  cases query.run catalog <;> rfl

theorem answer_createTable (name : String) (columns : List Column) (catalog : Catalog) :
    (createTable name columns).perform.answer catalog = (do
      let table ← Table.create name columns
      let created ← (Catalog.create table).answer catalog
      return (.nonQuery none, created.2)) := by
  rw [perform, Change.answer_bind, Change.answer_reading]
  cases Table.create name columns with
  | error failure => rfl
  | ok table => exact Change.answer_bind _ _ catalog

theorem answer_insert (table : String) (columns : Option (List String)) (rows : List Row)
    (catalog : Catalog) :
    (insert table columns rows).perform.answer catalog = (do
      let inserted ← (Catalog.insert table columns rows).answer catalog
      return (.nonQuery (some (Numeral.saturate inserted.1)), inserted.2)) :=
  Change.answer_bind _ _ catalog

end TransactSql.Statement
