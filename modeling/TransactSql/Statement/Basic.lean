/-
TransactSql.Statement.Basic — statements and their effects.

A statement is performed on a catalog, which it may change. It has an
outcome, or it fails.
-/
import TransactSql.Query.Basic

namespace TransactSql

/-- A statement, without anything left to be looked up outside the catalog. -/
inductive Statement where
  | select (query : Query)
  | createTable (name : String) (columns : List Column)
  | insert (table : String) (columns : Option (List String)) (rows : List Row)

namespace Statement

/-- What the statement does to the catalog, and its outcome. -/
def perform : Statement → Change Catalog Outcome
  | select query => do
    let set ← Change.reading query.run
    return .rowSet set
  | createTable name columns => do
    let table ← Change.reading fun _ => Table.create name columns
    Catalog.create table
    return .nonQuery none
  | insert table columns rows => do
    let count ← Catalog.insert table columns rows
    return .nonQuery (some (Numeral.saturate count))

end Statement
end TransactSql
