/-
TransactSql.Outcome — the results of statements.

A query results in a `RowSet`, any other statement in the number of rows
that it changed, if such a number makes sense. `reported` is the number
that stands for none.
-/
import TransactSql.QualifiedName
import TransactSql.Table

namespace TransactSql

/-- Named columns and the rows under them. A computed column may have an empty name. -/
structure RowSet where
  columns : List String
  rows : List Row
deriving DecidableEq

namespace RowSet

/-- The place of the first column of this name. -/
def columnIndex? (set : RowSet) (name : String) : Option Nat :=
  Collation.indexOf? set.columns name

/-- The first value of the first row. -/
def scalar? (set : RowSet) : Option Value :=
  set.rows.head?.bind List.head?

/-- What column references stand for in a row under these columns. -/
def lookup (set : RowSet) (row : Row) : QualifiedName → Except Error Value := fun name =>
  match (set.columnIndex? name.last).bind (row[·]?) with
  | some value => .ok value
  | none => .error (.invalidColumnName name.last)

end RowSet

/-- The result of a statement. -/
inductive Outcome where
  | rowSet (set : RowSet)
  /-- A statement without rows, and how many it changed. -/
  | nonQuery (changed : Option Int32)
deriving DecidableEq

namespace Outcome

/-- The number of rows that the statement changed. -/
def changed? : Outcome → Option Int32
  | rowSet _ => none
  | nonQuery changed => changed

def rowSet? : Outcome → Option RowSet
  | rowSet set => some set
  | nonQuery _ => none

/-- The number of rows that the next statement sees. -/
def rowCount : Outcome → Int32
  | rowSet set => Numeral.saturate set.rows.length
  | nonQuery changed => changed.getD 0

/-- A number of changed rows as it is reported; it is -1 if there is none. -/
def reported (changed : Option Int32) : Int32 := changed.getD (-1)

/-- The sum of two 32-bit integers, kept within their range. -/
def saturatingAdd (left right : Int32) : Int32 :=
  Int32.ofInt (max (-2147483648) (min 2147483647 (left.toInt + right.toInt)))

/-- The number of rows that some statements changed together. -/
def totalChanged (outcomes : List Outcome) : Option Int32 :=
  match outcomes.filterMap changed? with
  | [] => none
  | first :: rest => some (rest.foldl saturatingAdd first)

end Outcome
end TransactSql
