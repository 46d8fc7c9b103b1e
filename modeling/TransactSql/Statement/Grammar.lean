/-
TransactSql.Statement.Grammar — reading statements.

    statement = SELECT query
              | CREATE TABLE name ( column {, column} )
              | INSERT [INTO] name [( name {, name} )] VALUES row {, row}
    column    = name type [( argument {, argument} )] [NULL | NOT NULL]
    argument  = number | MAX
    row       = ( expression {, expression} )
    option    = SET name (ON | OFF)

The word that begins a statement has been read before. The values of an
`INSERT` are computed while they are read. The arguments of a type mean
nothing.
-/
import TransactSql.Query.Grammar
import TransactSql.Statement.Basic

namespace TransactSql.Statement

open Parse

/-! ## Tables -/

/-- Reads an argument of a type. -/
def readTypeArgument : Parse Unit := do
  let token ← expectNext
  match token.kind with
  | .number _ => pure ()
  | .word =>
    if token.literal.map Char.toLower == "max" then pure () else fail token.unexpected
  | _ => fail token.unexpected

/-- Reads the arguments of a type, if there are any. -/
def readTypeArguments : Parse Unit := do
  if ← consumeKind .openParen then
    let _ ← commaSeparated readTypeArgument
    let _ ← expectKind .closeParen
    pure ()
  else pure ()

/-- Reads whether a column allows NULL, which it does if nothing is said. -/
def readNullable : Parse Bool := do
  if ← consumeKeyword .NOT then
    let _ ← expectKeyword .NULL
    pure false
  else
    let _ ← consumeKeyword .NULL
    pure true

/-- The token begins a constraint on a column. -/
def beginsConstraint (token : Token) : Bool :=
  [.PRIMARY, .IDENTITY, .DEFAULT, .CONSTRAINT, .UNIQUE, .CHECK, .REFERENCES, .FOREIGN].any
    (token.isKeyword ·)

/-- Reads the definition of a column, the `ordinal`-th of its table. -/
def readColumn (ordinal : Nat) : Parse Column := do
  let name ← expectIdentifier
  let typeName ← expectIdentifier
  match DataType.ofName? typeName with
  | none => fail (.unknownDataType ordinal typeName)
  | some type =>
    readTypeArguments
    let nullable ← readNullable
    if ← peekIs beginsConstraint then fail (.unsupported .columnConstraint)
    else pure ⟨name, type, nullable⟩

/-- Reads the definitions of the columns of a table. -/
def readColumns : Parse (List Column) := do
  let (first, more) ← separatedNumbered (consumeKind .comma) fun place => readColumn (place + 1)
  pure (first :: more)

/-- Refuses everything that can be created but a table. -/
def refuseOtherKinds : Parse Unit := do
  let token ← expectNext
  match token.kind with
  | .keyword .TABLE => pure ()
  | .keyword keyword => fail (.unsupported (.create keyword.text))
  | .word => fail (.unsupported (.create (token.literal.map Char.toUpper)))
  | _ => fail token.unexpected

/-- Reads the rest of a `CREATE` statement. -/
def readCreate : Parse Statement := do
  refuseOtherKinds
  let name ← qualifiedName
  let _ ← expectKind .openParen
  let columns ← readColumns
  let _ ← expectKind .closeParen
  pure (.createTable name.last columns)

/-! ## Rows -/

/-- Reads the columns that rows are inserted into, if they are named. -/
def readColumnList? : Parse (Option (List String)) := do
  if ← consumeKind .openParen then
    let names ← commaSeparated qualifiedName
    let _ ← expectKind .closeParen
    pure (some (names.map QualifiedName.last))
  else pure none

/-- Refuses rows that are not written out. -/
def refuseOtherSources : Parse Unit := do
  let token ← expectNext
  match token.kind with
  | .keyword .VALUES => pure ()
  | .keyword .SELECT => fail (.unsupported (.insertSource "SELECT"))
  | .keyword .DEFAULT => fail (.unsupported (.insertSource "DEFAULT VALUES"))
  | .keyword .EXEC | .keyword .EXECUTE => fail (.unsupported (.insertSource "EXECUTE"))
  | _ => fail token.unexpected

/-- Reads an expression and computes its value. -/
def readValue (expression : Parse Expression) : Parse Value := do
  let e ← expression
  ofExcept (e.eval .noRow)

/-- Reads a row of values. -/
def readRow (expression : Parse Expression) : Parse Row := do
  let _ ← expectKind .openParen
  let values ← commaSeparated (readValue expression)
  let _ ← expectKind .closeParen
  pure values

/-- Reads the rest of an `INSERT` statement. -/
def readInsert (scope : Scope) : Parse Statement := do
  let _ ← consumeKeyword .INTO
  let name ← qualifiedName
  let columns ← readColumnList?
  refuseOtherSources
  let rows ← commaSeparated (readRow (Expression.read scope maxNesting))
  pure (.insert name.last columns rows)

/-! ## Statements -/

/-- Reads the rest of a statement that begins with a token. -/
def read (scope : Scope) (token : Token) : Parse Statement :=
  match token.kind with
  | .keyword .SELECT => do
    let query ← Query.read scope maxNesting
    pure (.select query)
  | .keyword .CREATE => readCreate
  | .keyword .INSERT => readInsert scope
  | .keyword keyword =>
    if keyword.beginsUnsupportedStatement then fail (.unsupported (.statement keyword))
    else fail token.unexpected
  | _ => fail token.unexpected

/-- The session options that can be set. They have no effect. -/
def sessionOptions : List String := ["NOCOUNT", "IMPLICIT_TRANSACTIONS"]

/-- Reads the rest of the setting of a session option. -/
def readOption : Parse Unit := do
  let token ← expectNext
  match token.identifier? with
  | none => fail token.unexpected
  | some name =>
    if sessionOptions.any (Collation.sameName name) then
      let value ← expectNext
      if value.isKeyword .ON || value.isKeyword .OFF then pure () else fail value.unexpected
    else fail (.unsupported (.option (name.map Char.toUpper)))

end TransactSql.Statement
