/-
TransactSql.Query.Grammar — reading queries.

    query  = [TOP limit] item {, item} [FROM source] [WHERE predicate]
    limit  = number | @name | ( expression )
    item   = * | expression [[AS] alias]
    source = name {. name} [[AS] alias] | ( SELECT query ) [AS] alias

The word `SELECT` has been read before. The limit is computed while it is
read, so it cannot refer to columns. Clauses that are known but not run
are refused where they would begin.
-/
import TransactSql.Predicate.Grammar
import TransactSql.Query.Basic

namespace TransactSql.Query

open Parse

/-! ## The limit -/

/-- The look-up in a limit, where no column can be used. -/
def limitLookup : Lookup := fun name => .error (.topColumnReference name.last)

/-- The limit that a value stands for. -/
def limitOf (v : Value) : Except Error Nat :=
  match v.scalar with
  | some (.int value) => nonNegative value.toInt
  | some (.bigint value) => nonNegative value.toInt
  | _ => .error .topRequiresInteger
where
  nonNegative (i : Int) : Except Error Nat :=
    if i < 0 then .error .topNegative else .ok i.toNat

/-- Reads the expression of a limit. -/
def readLimitExpression (scope : Scope) (levels : Nat) : Parse Expression := do
  if ← consumeKind .openParen then
    let expression ← Expression.read scope levels
    let _ ← expectKind .closeParen
    pure expression
  else
    let token ← expectNext
    match token.kind with
    | .number number => pure (.value number.toValue)
    | .parameter name => do
      let v ← ofExcept (scope.parameter name)
      pure (.value v)
    | _ => fail token.unexpected

/-- Reads a limit, if there is one. -/
def readLimit? (scope : Scope) (levels : Nat) : Parse (Option Nat) := do
  if ← consumeKeyword .TOP then
    let expression ← readLimitExpression scope levels
    let limit ← ofExcept (expression.eval limitLookup >>= limitOf)
    pure (some limit)
  else pure none

/-! ## Items and sources -/

/-- Reads an entry of the select list. -/
def readItem (scope : Scope) (levels : Nat) : Parse SelectItem := do
  if ← consume (·.isOperator '*') then pure .wildcard
  else
    let expression ← Expression.readAliased scope levels
    if expression.isNamed then pure (.expression expression)
    else
      match ← implicitAlias? with
      | some name => pure (.expression (.named expression name))
      | none => pure (.expression expression)

/-- Reads the alias of a source, if there is one. -/
def readSourceAlias? : Parse (Option String) := do
  if ← consumeKeyword .AS then
    let name ← expectIdentifier
    pure (some name)
  else nextText? Token.identifier?

/-- The token begins a second source. -/
def beginsJoin (token : Token) : Bool :=
  token.kind == .comma ||
    [.JOIN, .INNER, .LEFT, .RIGHT, .FULL, .CROSS, .OUTER].any (token.isKeyword ·)

/-- Reads a source; `derived` reads the query of a derived table, behind the word `SELECT`. -/
def readSource (derived : Parse Query) : Parse Source := do
  let source ← readSingle
  if ← peekIs beginsJoin then fail (.unsupported .join) else pure source
where
  readSingle : Parse Source := do
    if ← consumeKind .openParen then
      let _ ← expectKeyword .SELECT
      let query ← derived
      let close ← expectKind .closeParen
      match ← readSourceAlias? with
      | some name => pure (.derived query.select query.source name)
      | none => fail close.unexpected
    else
      let name ← qualifiedName
      let tableAlias ← readSourceAlias?
      pure (.table name tableAlias)

/-! ## Queries -/

/-- The clause that a token begins, if it is one that is not run. -/
def refusedClause? (token : Token) : Option Feature :=
  match token.kind with
  | .keyword .ORDER => some .orderBy
  | .keyword .GROUP => some .groupBy
  | .keyword .HAVING => some .having
  | .keyword .UNION => some (.setOperator .UNION)
  | .keyword .EXCEPT => some (.setOperator .EXCEPT)
  | .keyword .INTERSECT => some (.setOperator .INTERSECT)
  | _ => none

/-- Refuses a quantifier before the select list. -/
def refuseQuantifier : Parse Unit := do
  if ← peekIs fun token => token.isKeyword .DISTINCT || token.isKeyword .ALL then
    fail (.unsupported .selectQuantifier)
  else pure ()

/-- Refuses a clause that is not run. -/
def refuseClause : Parse Unit := do
  let token ← peek
  match token.bind refusedClause? with
  | some feature => fail (.unsupported feature)
  | none => pure ()

/-- Reads a query with so many levels left; `derived` reads the query of a derived table. -/
def readQuery (scope : Scope) (levels : Nat) (derived : Parse Query) : Parse Query := do
  refuseQuantifier
  let limit ← readLimit? scope levels
  let items ← commaSeparated (readItem scope levels)
  let source ← if ← consumeKeyword .FROM then readSource derived else pure .unit
  let hasSource := match source with
    | .unit => false
    | _ => true
  if !hasSource && items.any (·.isWildcard) then fail .mustSpecifyTable
  else
    let filter ← readFilter?
    refuseClause
    pure ⟨⟨limit, items, filter⟩, source⟩
where
  readFilter? : Parse (Option Predicate) := do
    if ← consumeKeyword .WHERE then
      let filter ← Predicate.read scope levels
      pure (some filter)
    else pure none

/-- Reads a query behind the word `SELECT`, with so many levels left. A derived table takes one of
them. -/
def read (scope : Scope) : (levels : Nat) → Parse Query
  | 0 => readQuery scope 0 (fail .nestedTooDeeply)
  | levels + 1 => readQuery scope (levels + 1) (read scope levels)

end TransactSql.Query
