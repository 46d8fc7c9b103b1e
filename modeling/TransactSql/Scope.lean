/-
TransactSql.Scope — the values that a statement can refer to.

Besides the columns of its tables a statement sees the parameters that it
is run with, and two system variables: the version of the server and the
number of rows of the statement before it.
-/
import TransactSql.Collation.Map
import TransactSql.Value.Basic

namespace TransactSql

/-- The values of the parameters, by their names without the `@`. -/
abbrev Bindings := CollatedMap Value

/-- No parameters. -/
def Bindings.none : Bindings := CollatedMap.empty Collation.caseInsensitive

/-- What a statement can refer to. -/
structure Scope where
  parameters : Bindings
  version : String
  /-- The rows that the statement before returned or changed. -/
  rowCount : Int32

namespace Scope

/-- The value of a parameter. -/
def parameter (scope : Scope) (name : String) : Except Error Value :=
  match scope.parameters.get? name with
  | some value => .ok value
  | none => .error (.mustDeclareScalarVariable name)

/-- The value of a system variable. -/
def systemVariable (scope : Scope) (name : String) : Except Error Value :=
  let equals := scope.parameters.collation.equals
  if equals name "VERSION" then .ok (.nvarchar scope.version)
  else if equals name "ROWCOUNT" then .ok (.int scope.rowCount)
  else .error (.unsupported (.systemVariable name))

end Scope
end TransactSql
