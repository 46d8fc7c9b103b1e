/-
TransactSql.Catalog.Basic — the tables of a server.

Tables are found by their names, which are compared without regard to
case. A name that no table has been created under may still be that of
the system table of types, which can be read but not inserted into.
-/
import TransactSql.Catalog.SystemTypes
import TransactSql.Collation.Map

namespace TransactSql

/-- The tables that have been created. -/
structure Catalog where
  tables : CollatedMap Table

namespace Catalog

def empty : Catalog := ⟨CollatedMap.empty Collation.caseInsensitive⟩

/-- Adds a new table. -/
def create (table : Table) : Change Catalog Unit := do
  let catalog ← get
  if catalog.tables.contains table.name then throw (.objectAlreadyExists table.name)
  set (⟨catalog.tables.insert table.name table⟩ : Catalog)

/-- Puts a table in the place of the one of this name. -/
def replace (catalog : Catalog) (name : String) (table : Table) : Catalog :=
  ⟨catalog.tables.modify name fun _ => table⟩

/-- Changes the table of this name in its place. What a failure leaves of the table stays there. -/
def update {α : Type} (name : String) (change : Change Table α) : Change Catalog α :=
  fun catalog =>
    match catalog.tables.get? name with
    | none => .error (.invalidObjectName name) catalog
    | some table =>
      match change.run table with
      | .ok answer table => .ok answer (catalog.replace name table)
      | .error failure table => .error failure (catalog.replace name table)

/-- Inserts rows into a table and answers how many they are. -/
def insert (name : String) (columns : Option (List String)) (rows : List Row) :
    Change Catalog Nat :=
  update name (Table.insert columns rows)

/-- The name is that of the system table. -/
def isSystemTable (name : String) : Bool :=
  Collation.sameName name SystemType.tableName

/-- The table of this name. A created table hides the system table. -/
def read? (catalog : Catalog) (name : String) : Option Table :=
  match catalog.tables.get? name with
  | some table => some table
  | none => if isSystemTable name then some SystemType.table else none

/-- A table of this name has been created. -/
def contains (catalog : Catalog) (name : String) : Bool :=
  catalog.tables.contains name

/-- The names of all created tables, in the order of the collation. -/
def tableNames (catalog : Catalog) : List String :=
  (catalog.tables.toList.map (·.1)).mergeSort fun left right =>
    (Collation.caseInsensitive.compare left right).isLE

/-- All created tables, in the order of their names. -/
def sortedTables (catalog : Catalog) : List Table :=
  catalog.tableNames.filterMap catalog.tables.get?

end Catalog
end TransactSql
