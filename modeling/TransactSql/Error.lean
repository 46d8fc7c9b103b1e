/-
TransactSql.Error — everything that can go wrong, and what is said then.

An `Error` is a cause with what is needed to describe it. `message` is
the text that a user sees, `number` the number under which a server
reports the failure, if it has one, and `group` the broad kind of it.
-/
import TransactSql.BuiltIn
import TransactSql.Keyword
import TransactSql.Operator

namespace TransactSql

/-- Something that the grammar knows and that is not run. -/
inductive Feature where
  /-- A statement that begins with this word. -/
  | statement (keyword : Keyword)
  /-- `SELECT DISTINCT` or `SELECT ALL`. -/
  | selectQuantifier
  | orderBy
  | groupBy
  | having
  /-- An operator between two queries. -/
  | setOperator (keyword : Keyword)
  /-- A second table in the `FROM` clause. -/
  | join
  /-- The creation of anything but a table. -/
  | create (kind : String)
  | columnConstraint
  /-- Inserted rows that are not written out, with the words that stand for them. -/
  | insertSource (words : String)
  /-- A session option, in capitals. -/
  | option (name : String)
  | systemVariable (name : String)
deriving DecidableEq

/-- How messages name the feature. -/
def Feature.description : Feature → String
  | statement keyword => s!"The {keyword.text} statement"
  | selectQuantifier => "SELECT DISTINCT or ALL"
  | orderBy => "The ORDER BY clause"
  | groupBy => "The GROUP BY clause"
  | having => "The HAVING clause"
  | setOperator keyword => keyword.text
  | join => "Joining multiple sources"
  | create kind => s!"CREATE {kind}"
  | columnConstraint => "Column constraints"
  | insertSource words => s!"INSERT ... {words}"
  | option name => s!"SET {name}"
  | systemVariable name => s!"@@{name}"

/-- A call that needs an open connection. -/
inductive Call where
  | executeNonQuery
  | executeReader
  | executeScalar
  | beginTransaction
deriving DecidableEq

def Call.name : Call → String
  | executeNonQuery => "ExecuteNonQuery"
  | executeReader => "ExecuteReader"
  | executeScalar => "ExecuteScalar"
  | beginTransaction => "BeginTransaction"

/-- A type that a caller can read a value as. -/
inductive HostType where
  | int32
  | int64
  | double
  | string
deriving DecidableEq

def HostType.name : HostType → String
  | int32 => "System.Int32"
  | int64 => "System.Int64"
  | double => "System.Double"
  | string => "System.String"

/-- The cause of a failure. -/
inductive Error where
  /-- A token that cannot stand where it stands. -/
  | incorrectSyntax (near : String)
  | incorrectSyntaxNearKeyword (keyword : Keyword)
  /-- A character that begins no token. -/
  | unexpectedCharacter (character : Char) (index : Nat)
  | missingEndCommentMark
  /-- A quotation without an end, with what it quotes. -/
  | unclosedQuotation (text : String)
  | invalidObjectName (name : String)
  | invalidColumnName (name : String)
  | mustDeclareScalarVariable (name : String)
  | unknownFunction (name : String)
  /-- The type of a column, counted from one, is unknown. -/
  | unknownDataType (ordinal : Nat) (name : String)
  | mustSpecifyTable
  /-- A column of a derived table, counted from one, has no name. -/
  | noColumnName (ordinal : Nat) (tableAlias : String)
  | nestedTooDeeply
  | topRequiresInteger
  | topNegative
  | topColumnReference (name : String)
  | objectAlreadyExists (name : String)
  | duplicateColumn (table column : String)
  | notNullViolation (table column : String)
  | insertMoreColumnsThanValues
  | insertFewerColumnsThanValues
  | duplicateInsertColumn (name : String)
  | columnCountMismatch
  | noCommonType (operator : ArithmeticOperator) (left right : DataType)
  | incompatibleOperands (left right : DataType) (operator : ArithmeticOperator)
  | invalidArgumentType (type : DataType) (function : BuiltIn)
  /-- A value of this type has no negative. -/
  | invalidOperandType (type : DataType)
  | wrongArgumentCount (function : BuiltIn)
  | conversionFailed (value : String) (source target : DataType)
  | arithmeticOverflow (type : DataType)
  | divideByZero
  | unsupported (feature : Feature)
  | connectionClosed (call : Call)
  | connectionNotInitialized (call : Call)
  | transactionMismatch
  | transactionCompleted
  /-- A reader does not stand on a row. -/
  | noData
  | ordinalOutOfRange (ordinal : Nat)
  | columnNotFound (name : String)
  | nullValue
  | invalidCast (source target : HostType)
deriving DecidableEq

namespace Error

/-- The description of the failure. -/
def message : Error → String
  | incorrectSyntax near => s!"Incorrect syntax near '{near}'."
  | incorrectSyntaxNearKeyword keyword =>
    s!"Incorrect syntax near the keyword '{keyword.text}'."
  | unexpectedCharacter character index =>
    s!"Incorrect syntax near '{character}' at index {index}."
  | missingEndCommentMark => "Missing end comment mark '*/'."
  | unclosedQuotation text =>
    s!"Unclosed quotation mark after the character string '{text}'."
  | invalidObjectName name => s!"Invalid object name '{name}'."
  | invalidColumnName name => s!"Invalid column name '{name}'."
  | mustDeclareScalarVariable name => s!"Must declare the scalar variable \"@{name}\"."
  | unknownFunction name => s!"'{name}' is not a recognized built-in function name."
  | unknownDataType ordinal name =>
    s!"Column, parameter, or variable #{ordinal}: Cannot find data type {name}."
  | mustSpecifyTable => "Must specify table to select from."
  | noColumnName ordinal tableAlias =>
    s!"No column name was specified for column {ordinal} of '{tableAlias}'."
  | nestedTooDeeply =>
    "Some part of your SQL statement is nested too deeply. Rewrite the query or break it up " ++
      "into smaller queries."
  | topRequiresInteger =>
    "The number of rows provided for a TOP or FETCH clauses row count parameter must be an " ++
      "integer."
  | topNegative => "A TOP N or FETCH rows count value may not be negative."
  | topColumnReference name =>
    s!"The reference to column \"{name}\" is not allowed in an argument to a TOP, OFFSET, or " ++
      "FETCH clause. Only references to columns at an outer scope or standalone expressions " ++
      "and subqueries are allowed here."
  | objectAlreadyExists name => s!"There is already an object named '{name}' in the database."
  | duplicateColumn table column =>
    s!"Column names in each table must be unique. Column name '{column}' in table '{table}' " ++
      "is specified more than once."
  | notNullViolation table column =>
    s!"Cannot insert the value NULL into column '{column}', table '{table}'; column does not " ++
      "allow nulls. INSERT fails."
  | insertMoreColumnsThanValues =>
    "There are more columns in the INSERT statement than values specified in the VALUES " ++
      "clause. The number of values in the VALUES clause must match the number of columns " ++
      "specified in the INSERT statement."
  | insertFewerColumnsThanValues =>
    "There are fewer columns in the INSERT statement than values specified in the VALUES " ++
      "clause. The number of values in the VALUES clause must match the number of columns " ++
      "specified in the INSERT statement."
  | duplicateInsertColumn name =>
    s!"The column name '{name}' is specified more than once in the SET clause or column list " ++
      "of an INSERT. A column cannot be assigned more than one value in the same clause. " ++
      "Modify the clause to make sure that a column is updated only once. If this statement " ++
      "updates or inserts columns into a view, column aliasing can conceal the duplication in " ++
      "your code."
  | columnCountMismatch =>
    "Column name or number of supplied values does not match table definition."
  | noCommonType operator left right =>
    s!"The simulator doesn't know how to run the {operator.name} operation between " ++
      s!"{left.name} and {right.name}."
  | incompatibleOperands left right operator =>
    s!"The data types {left.name} and {right.name} are incompatible in the {operator.name} " ++
      "operator."
  | invalidArgumentType type function =>
    s!"Argument data type {type.name} is invalid for argument 1 of {function.name} function."
  | invalidOperandType type => s!"Operand data type {type.name} is invalid for minus operator."
  | wrongArgumentCount function =>
    s!"The {function.name} function requires {function.arity} argument(s)."
  | conversionFailed value source target =>
    s!"Conversion failed when converting the {source.name} value '{value}' to data type " ++
      s!"{target.name}."
  | arithmeticOverflow type =>
    s!"Arithmetic overflow error converting expression to data type {type.name}."
  | divideByZero => "Divide by zero error encountered."
  | unsupported feature => s!"{feature.description} is not supported by the simulator."
  | connectionClosed call =>
    s!"{call.name} requires an open and available Connection. The connection's current state " ++
      "is closed."
  | connectionNotInitialized call =>
    s!"{call.name}: Connection property has not been initialized."
  | transactionMismatch =>
    "The transaction is either not associated with the current connection or has been " ++
      "completed."
  | transactionCompleted => "This SqlTransaction has completed; it is no longer usable."
  | noData => "Invalid attempt to read when no data is present."
  | ordinalOutOfRange _ => "Index was outside the bounds of the array."
  | columnNotFound name => name
  | nullValue => "Data is Null. This method or property cannot be called on Null values."
  | invalidCast source target =>
    s!"Unable to cast object of type '{source.name}' to type '{target.name}'."

/-- The number under which a server reports the failure. -/
def number : Error → Option Nat
  | incorrectSyntax _ | unexpectedCharacter _ _ => some 102
  | incorrectSyntaxNearKeyword _ => some 156
  | missingEndCommentMark => some 113
  | unclosedQuotation _ => some 105
  | invalidObjectName _ => some 208
  | invalidColumnName _ => some 207
  | mustDeclareScalarVariable _ => some 137
  | unknownFunction _ => some 195
  | unknownDataType _ _ => some 2715
  | mustSpecifyTable => some 263
  | noColumnName _ _ => some 8155
  | nestedTooDeeply => some 191
  | topRequiresInteger => some 1060
  | topNegative => some 1014
  | topColumnReference _ => some 4115
  | objectAlreadyExists _ => some 2714
  | duplicateColumn _ _ => some 2705
  | notNullViolation _ _ => some 515
  | insertMoreColumnsThanValues => some 109
  | insertFewerColumnsThanValues => some 110
  | duplicateInsertColumn _ => some 264
  | columnCountMismatch => some 213
  | incompatibleOperands _ _ _ => some 402
  | invalidArgumentType _ _ => some 8116
  | invalidOperandType _ => some 8117
  | wrongArgumentCount _ => some 174
  | conversionFailed _ _ _ => some 245
  | arithmeticOverflow _ => some 8115
  | divideByZero => some 8134
  | noCommonType _ _ _ | unsupported _ | connectionClosed _ | connectionNotInitialized _
  | transactionMismatch | transactionCompleted | noData | ordinalOutOfRange _
  | columnNotFound _ | nullValue | invalidCast _ _ => none

/-- The broad kind of a failure. -/
inductive Group where
  /-- The text is no sequence of statements. -/
  | malformed
  /-- A name stands for nothing. -/
  | notFound
  /-- A connection, a command, a transaction or a reader was used wrongly. -/
  | client
  | other
deriving DecidableEq

def group : Error → Group
  | incorrectSyntax _ | incorrectSyntaxNearKeyword _ | unexpectedCharacter _ _
  | missingEndCommentMark | unclosedQuotation _ => .malformed
  | invalidObjectName _ | invalidColumnName _ | mustDeclareScalarVariable _
  | unknownFunction _ | unknownDataType _ _ => .notFound
  | connectionClosed _ | connectionNotInitialized _ | transactionMismatch
  | transactionCompleted | noData | ordinalOutOfRange _ | columnNotFound _ | nullValue
  | invalidCast _ _ => .client
  | _ => .other

end Error
end TransactSql
