/-
TransactSql.Table — tables and the rows inserted into them.

A table has columns of different names and rows with a value for each
column. `insert` takes rows for some of the columns or for all. It
converts every value to the type of its column, fills the columns that
are not mentioned with NULL, and refuses a NULL where the column allows
none. Every row is prepared before the first one is stored.
-/
import TransactSql.Change
import TransactSql.Collation.Basic
import TransactSql.Value.Basic

namespace TransactSql

/-- A column of a table. -/
structure Column where
  name : String
  type : DataType
  nullable : Bool
deriving DecidableEq

/-- The definition of a column. -/
def Column.toText (column : Column) : String :=
  column.name ++ " " ++ column.type.name ++ (if column.nullable then "" else " NOT NULL")

/-- The values of a row, in the order of the columns. -/
abbrev Row := List Value

/-- A table with its rows, in the order in which they were inserted. -/
structure Table where
  name : String
  columns : List Column
  rows : List Row
deriving DecidableEq

namespace Table

/-! ## Columns -/

/-- The first column whose name has been used before. -/
def duplicate? (used : List String) : List Column → Option Column
  | [] => none
  | column :: rest =>
    if used.any fun name => Collation.sameName name column.name then some column
    else duplicate? (column.name :: used) rest

/-- A table with some rows in place; the rows are not looked at. -/
def withRows (name : String) (columns : List Column) (rows : List Row) : Except Error Table :=
  match duplicate? [] columns with
  | some column => .error (.duplicateColumn name column.name)
  | none => .ok ⟨name, columns, rows⟩

/-- A table without rows. -/
def create (name : String) (columns : List Column) : Except Error Table :=
  withRows name columns []

def columnNames (t : Table) : List String := t.columns.map (·.name)

/-- A column with its place in the table. -/
abbrev Target := Column × Nat

/-- The column of this name. -/
def target? (t : Table) (name : String) : Option Target :=
  t.columns.zipIdx.find? fun target => Collation.sameName target.1.name name

/-- The place of the column of this name. -/
def columnOrdinal? (t : Table) (name : String) : Option Nat :=
  (t.target? name).map (·.2)

/-! ## Inserting -/

/-- The columns of these names; no column may be named twice, or be among the places `used`. -/
def namedTargets (t : Table) (used : List Nat) : List String → Except Error (List Target)
  | [] => .ok []
  | name :: rest =>
    match t.target? name with
    | none => .error (.invalidColumnName name)
    | some target =>
      if used.contains target.2 then .error (.duplicateInsertColumn target.1.name)
      else do
        let more ← t.namedTargets (target.2 :: used) rest
        .ok (target :: more)

/-- The columns that rows are inserted into: the named ones, or all of them. -/
def targets (t : Table) : Option (List String) → Except Error (List Target)
  | none => .ok t.columns.zipIdx
  | some names => t.namedTargets [] names

/-- The failure if a row has not as many values as there are target columns. -/
def countMismatch (named : Bool) (values targets : Nat) : Error :=
  if named then
    if values < targets then .insertMoreColumnsThanValues else .insertFewerColumnsThanValues
  else .columnCountMismatch

/-- Converts the values of a row, each to the type of its target column. -/
def convertValues : List Target → Row → Except Error (List (Nat × Value))
  | target :: targets, value :: values => do
    let converted ← value.convert target.1.type
    let more ← convertValues targets values
    .ok ((target.2, converted) :: more)
  | _, _ => .ok []

/-- The row with these values at their places, and NULL at all others. -/
def place (t : Table) (values : List (Nat × Value)) : Row :=
  t.columns.zipIdx.map fun target => (values.lookup target.2).getD (.null target.1.type)

/-- The first column that does not allow NULL and gets one. -/
def violated? (t : Table) (row : Row) : Option Column :=
  ((t.columns.zip row).find? fun cell => !cell.1.nullable && cell.2.isNull).map (·.1)

/-- The row to store for some values. -/
def prepare (t : Table) (named : Bool) (targets : List Target) (values : Row) :
    Except Error Row :=
  if values.length = targets.length then do
    let converted ← convertValues targets values
    let row := t.place converted
    match t.violated? row with
    | some column => .error (.notNullViolation t.name column.name)
    | none => .ok row
  else .error (countMismatch named values.length targets.length)

/-- Puts rows behind those that are stored. -/
def append (t : Table) (rows : List Row) : Table := { t with rows := t.rows ++ rows }

/-- Inserts rows and answers how many they are. -/
def insert (columns : Option (List String)) (rows : List Row) : Change Table Nat := do
  let targets ← Change.reading (·.targets columns)
  let prepared ← rows.mapM fun values =>
    Change.reading (·.prepare columns.isSome targets values)
  modify (·.append prepared)
  return prepared.length

end Table
end TransactSql
