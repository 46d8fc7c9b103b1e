/-
TransactSql.Query.Basic — queries and their results.

A query selects from a source: a table, a derived table, which is a query
itself, or nothing, which counts as one row without columns. It walks
through the rows of the source in order, keeps those that its condition
is true of and makes an output row of each. With a limit it stops as soon
as it has made so many rows; the rows behind are not looked at.
-/
import TransactSql.Catalog.Basic
import TransactSql.Outcome
import TransactSql.Predicate.Basic

namespace TransactSql

/-- An entry of a select list. -/
inductive SelectItem where
  /-- All columns of the source. -/
  | wildcard
  | expression (expression : Expression)

/-- A selection from the rows of some source. -/
structure Select where
  /-- The greatest number of rows to make. -/
  limit : Option Nat
  items : List SelectItem
  filter : Option Predicate

/-- What a query selects from. -/
inductive Source where
  /-- One row without columns. -/
  | unit
  | table (name : QualifiedName) (tableAlias : Option String)
  | derived (select : Select) (source : Source) (tableAlias : String)

/-- A selection with its source. -/
structure Query where
  select : Select
  source : Source

namespace SelectItem

def isWildcard : SelectItem → Bool
  | wildcard => true
  | expression _ => false

/-- The names of the output columns that the entry makes. -/
def columnNames (source : List String) : SelectItem → List String
  | wildcard => source
  | expression e => [e.name]

/-- The values that the entry makes of a row. -/
def project (set : RowSet) (row : Row) : SelectItem → Except Error Row
  | wildcard => .ok row
  | expression e => do
    let v ← e.eval (set.lookup row)
    .ok [v]

end SelectItem

namespace Select

/-- The names of the output columns. -/
def columnNames (s : Select) (source : List String) : List String :=
  s.items.flatMap (·.columnNames source)

/-- The condition is true of a row; without a condition every row is kept. -/
def keeps (s : Select) (set : RowSet) (row : Row) : Except Error Bool :=
  match s.filter with
  | none => .ok true
  | some filter => filter.eval (set.lookup row)

/-- The output row that is made of a row. -/
def project (s : Select) (set : RowSet) (row : Row) : Except Error Row := do
  let parts ← s.items.mapM (·.project set row)
  .ok parts.flatten

/-- The output rows that are made of some rows, up to a limit. -/
def collect (s : Select) (set : RowSet) : (limit : Option Nat) → List Row →
    Except Error (List Row)
  | some 0, _ | _, [] => .ok []
  | limit, row :: rest => do
    if ← s.keeps set row then
      let output ← s.project set row
      let more ← collect s set (limit.map (· - 1)) rest
      .ok (output :: more)
    else collect s set limit rest

/-- The result of the selection from a source. -/
def run (s : Select) (source : RowSet) : Except Error RowSet := do
  let rows ← s.collect source s.limit source.rows
  .ok ⟨s.columnNames source.columns, rows⟩

end Select

namespace Source

/-- Every column has a name; otherwise the failure names the place of the first that has none. -/
def checkNames (tableAlias : String) (set : RowSet) : Except Error RowSet :=
  match set.columns.findIdx? (·.isEmpty) with
  | some place => .error (.noColumnName (place + 1) tableAlias)
  | none => .ok set

/-- The rows of a source. -/
def load (catalog : Catalog) : Source → Except Error RowSet
  | unit => .ok ⟨[], [[]]⟩
  | table name _ =>
    match catalog.read? name.last with
    | some found => .ok ⟨found.columnNames, found.rows⟩
    | none => .error (.invalidObjectName name.toText)
  | derived select source tableAlias => do
    let rows ← source.load catalog
    let set ← select.run rows
    checkNames tableAlias set

end Source

namespace Query

/-- The result of a query. -/
def run (q : Query) (catalog : Catalog) : Except Error RowSet := do
  let source ← q.source.load catalog
  q.select.run source

end Query
end TransactSql
