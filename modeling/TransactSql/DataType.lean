/-
TransactSql.DataType — the column types and how they combine.

There are three numeric types, int, bigint and float, and two types of
text, varchar and nvarchar. Within a family the wider type is the common
one for arithmetic. Numbers and texts have no common type, but they can
be compared: the text is then converted to the type of the number.
-/
namespace TransactSql

/-- The type of a column or a value. -/
inductive DataType where
  | int
  | bigint
  | float
  | varchar
  | nvarchar
deriving DecidableEq

namespace DataType

/-- The name that messages use. -/
def name : DataType → String
  | int => "int"
  | bigint => "bigint"
  | float => "float"
  | varchar => "varchar"
  | nvarchar => "nvarchar"

/-- The type names that a column definition may use, in lower case. -/
def spellings : List (String × DataType) := [
  ("int", int), ("integer", int), ("bigint", bigint), ("float", float), ("real", float),
  ("varchar", varchar), ("char", varchar), ("text", varchar),
  ("nvarchar", nvarchar), ("nchar", nvarchar), ("ntext", nvarchar), ("sysname", nvarchar)]

/-- The type of this name; the case of ASCII letters does not matter. -/
def ofName? (name : String) : Option DataType :=
  (spellings.find? fun spelling => spelling.1 == name.map Char.toLower).map (·.2)

def isNumeric : DataType → Bool
  | int | bigint | float => true
  | varchar | nvarchar => false

def isInteger : DataType → Bool
  | int | bigint => true
  | float | varchar | nvarchar => false

def isText : DataType → Bool
  | varchar | nvarchar => true
  | int | bigint | float => false

/-- The place of a type within its family, the narrowest first. -/
def width : DataType → Nat
  | int | varchar => 0
  | bigint | nvarchar => 1
  | float => 2

/-- The type that both operands of an arithmetic operation are converted to: the wider one, if
they are of one family. -/
def common? (left right : DataType) : Option DataType :=
  if left = right then some left
  else if (left.isNumeric && right.isNumeric) || (left.isText && right.isText) then
    some (if right.width ≤ left.width then left else right)
  else none

/-- The type that both operands of a comparison are converted to. -/
def comparison (left right : DataType) : DataType :=
  match common? left right with
  | some type => type
  | none => if left.isNumeric then left else right

end DataType
end TransactSql
