/-
TransactSql.Client.Reader — going through the row sets of a command.

A reader stands before the first row of the first row set. `read` moves
it to the next row of the set, `nextResult` to the start of the next set,
whatever is left of the one before. On a row, its values can be read, as
they are or as a type that the caller asks for. Such a type has to be the
one of the value: nothing is converted.
-/
import TransactSql.Outcome

namespace TransactSql

/-! ## Values for a caller -/

/-- The type that values of a column type are read as. -/
def HostType.ofDataType : DataType → HostType
  | .int => .int32
  | .bigint => .int64
  | .float => .double
  | .varchar | .nvarchar => .string

namespace Value

/-- Reads a value as a type, which picks what it holds from a scalar. -/
def readAs {α : Type} (target : HostType) (pick : Scalar → Option α) (v : Value) :
    Except Error α :=
  match v.scalar with
  | none => .error .nullValue
  | some scalar =>
    match pick scalar with
    | some a => .ok a
    | none => .error (.invalidCast (HostType.ofDataType v.type) target)

def readInt32 : Value → Except Error Int32 :=
  readAs .int32 fun
    | .int value => some value
    | _ => none

def readInt64 : Value → Except Error Int64 :=
  readAs .int64 fun
    | .bigint value => some value
    | _ => none

def readDouble : Value → Except Error Binary64 :=
  readAs .double fun
    | .float value => some value
    | _ => none

def readString : Value → Except Error String :=
  readAs .string fun
    | .text value => some value
    | _ => none

/-- Reads a value that may be NULL. -/
def readNullable {α : Type} (read : Value → Except Error α) (v : Value) :
    Except Error (Option α) :=
  if v.isNull then .ok none else (read v).map some

end Value

/-! ## The reader -/

/-- A place in a sequence of row sets. -/
structure Reader where
  /-- The row set in which the reader stands. -/
  current : Option RowSet
  /-- The row sets behind it. -/
  pending : List RowSet
  /-- The place of the row that is read next. -/
  nextRow : Nat
  /-- The place of the row on which the reader stands. -/
  row : Option Nat
  /-- The number of rows that the command changed, as it is reported. -/
  affected : Int32

namespace Reader

/-- The reader before the first row of the first of some row sets. -/
def startOf (sets : List RowSet) (affected : Int32) : Reader where
  current := sets.head?
  pending := sets.tail
  nextRow := 0
  row := none
  affected := affected

/-- The reader of the outcomes of a command. -/
def ofOutcomes (outcomes : List Outcome) : Reader :=
  startOf (outcomes.filterMap Outcome.rowSet?) (Outcome.reported (Outcome.totalChanged outcomes))

/-- The reader without row sets. -/
def empty : Reader := startOf [] (Outcome.reported none)

/-- Moves to the next row, and tells whether there is one. -/
def read (r : Reader) : Bool × Reader :=
  match r.current with
  | none => (false, r)
  | some set =>
    if r.nextRow < set.rows.length then
      (true, { r with row := some r.nextRow, nextRow := r.nextRow + 1 })
    else (false, { r with row := none })

/-- Moves to the next row set, and tells whether there is one. -/
def nextResult (r : Reader) : Bool × Reader :=
  let next := startOf r.pending r.affected
  (next.current.isSome, next)

def columns (r : Reader) : List String := (r.current.map (·.columns)).getD []

def fieldCount (r : Reader) : Nat := r.columns.length

/-- The current row set has rows. -/
def hasRows (r : Reader) : Bool := r.current.any fun set => !set.rows.isEmpty

/-- The name of a column. -/
def fieldName (r : Reader) (ordinal : Nat) : Except Error String :=
  match r.columns[ordinal]? with
  | some name => .ok name
  | none => .error (.ordinalOutOfRange ordinal)

/-- The place of a column. -/
def fieldOrdinal (r : Reader) (name : String) : Except Error Nat :=
  match r.current.bind (·.columnIndex? name) with
  | some ordinal => .ok ordinal
  | none => .error (.columnNotFound name)

/-- The row on which the reader stands. -/
def currentRow? (r : Reader) : Option Row :=
  match r.current, r.row with
  | some set, some i => set.rows[i]?
  | _, _ => none

/-- The value of a column on the current row. -/
def value (r : Reader) (ordinal : Nat) : Except Error Value :=
  match r.currentRow? with
  | none => .error .noData
  | some row =>
    match row[ordinal]? with
    | some v => .ok v
    | none => .error (.ordinalOutOfRange ordinal)

/-- The value of the column of this name on the current row. -/
def valueNamed (r : Reader) (name : String) : Except Error Value := do
  let ordinal ← r.fieldOrdinal name
  r.value ordinal

/-- The value of a column on the current row is NULL. -/
def isNull (r : Reader) (ordinal : Nat) : Except Error Bool :=
  (r.value ordinal).map Value.isNull

end Reader
end TransactSql
