/-
TransactSql.BuiltIn — the names of the built-in functions.

The case of a name does not matter. Every built-in function takes one
argument; `TransactSql.Value.BuiltIn` computes its value.
-/
import TransactSql.Collation.Basic

namespace TransactSql

/-- A built-in function. -/
inductive BuiltIn where
  /-- The absolute value of a number. -/
  | abs
  /-- The size of a value in bytes. -/
  | datalength
deriving DecidableEq

namespace BuiltIn

/-- All built-in functions, in alphabetical order. -/
def all : List BuiltIn := [abs, datalength]

/-- The name that messages use. -/
def name : BuiltIn → String
  | abs => "abs"
  | datalength => "datalength"

/-- The number of arguments. -/
def arity : BuiltIn → Nat
  | abs | datalength => 1

/-- The function of this name. -/
def ofName? (name : String) : Option BuiltIn :=
  all.find? fun function => Collation.sameName function.name name

end BuiltIn
end TransactSql
