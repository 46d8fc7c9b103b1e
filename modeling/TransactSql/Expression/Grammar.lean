/-
TransactSql.Expression.Grammar — reading expressions.

    expression = operand [operator expression]
    operand    = number | text | NULL | @name | @@name
               | sign operand | ( expression )
               | name {. name} [( [expression {, expression}] )]

Where an alias may follow, an operand can be followed by `AS` and the
alias, which ends the expression.

Expressions may be nested only so deep. The whole right-hand side of an
operator counts as nested, and so does what a sign stands before. The
grammar is therefore defined by the number of levels that are left: on
the lowest level both sorts of nested expression fail, and each further
level is built from the one below.
-/
import TransactSql.Expression.Basic
import TransactSql.Parse
import TransactSql.Scope

namespace TransactSql

/-- How deep expressions and derived tables may be nested. -/
def maxNesting : Nat := 128

/-- The arithmetic operator that a token is. -/
def Token.arithmeticOperator? (t : Token) : Option ArithmeticOperator :=
  match t.kind with
  | .operator symbol => ArithmeticOperator.ofSymbol? symbol
  | _ => none

namespace Expression

open Parse

/-- Reads an arithmetic operator, if one is next. -/
def nextOperator? : Parse (Option ArithmeticOperator) := do
  let token ← nextIf fun token => token.arithmeticOperator?.isSome
  pure (token.bind Token.arithmeticOperator?)

/-- The readers of the expressions and of the signed operands on some level. -/
structure Readers where
  /-- Reads an expression, with an alias if one may follow. -/
  expression : (aliased : Bool) → Parse Expression
  /-- Reads what follows a sign. -/
  signed : Parse Expression

/-- The readers where no level is left. -/
def Readers.bottom : Readers :=
  ⟨fun _ => fail .nestedTooDeeply, fail .nestedTooDeeply⟩

/-- Reads the arguments of a call, in their parentheses. -/
def readArguments (below : Readers) : Parse (List Expression) := do
  let _ ← expectKind .openParen
  if ← consumeKind .closeParen then pure []
  else
    let arguments ← commaSeparated (below.expression false)
    let _ ← expectKind .closeParen
    pure arguments

/-- Reads a call of the function of this name. -/
def readCall (below : Readers) (name : QualifiedName) : Parse Expression :=
  match BuiltIn.ofName? name.toText with
  | none => fail (.unknownFunction name.toText)
  | some function => do
    match ← readArguments below with
    | [argument] => pure (.call function argument)
    | _ => fail (.wrongArgumentCount function)

/-- Reads what follows the first part of a name: the other parts, and the arguments of a call. -/
def readName (below : Readers) (first : String) : Parse Expression := do
  let more ← if ← consume (·.isOperator '.') then qualifiedName else pure []
  let name : QualifiedName := first :: more
  if ← peekIs (·.kind == .openParen) then readCall below name else pure (.reference name)

/-- Reads an operand. -/
def readOperand (scope : Scope) (below : Readers) : Parse Expression := do
  let token ← expectNext
  match token.kind with
  | .number number => pure (.value number.toValue)
  | .quoted text unicode => pure (.value (if unicode then .nvarchar text else .varchar text))
  | .keyword .NULL => pure (.value (.null .int))
  | .parameter name => do
    let v ← ofExcept (scope.parameter name)
    pure (.value v)
  | .systemVariable name => do
    let v ← ofExcept (scope.systemVariable name)
    pure (.value v)
  | .operator '-' => do
    let operand ← below.signed
    pure (.negative operand)
  | .operator '+' => below.signed
  | .openParen => do
    let inner ← below.expression false
    let _ ← expectKind .closeParen
    pure (.parenthesized inner)
  | .word => readName below token.literal
  | .bracketed name => readName below name
  | _ => fail token.unexpected

/-- Reads an expression: an operand, and what is joined to it by an operator. -/
def readExpression (operand : Parse Expression) (rest : (aliased : Bool) → Parse Expression)
    (aliased : Bool) : Parse Expression := do
  let left ← operand
  let isNamed ← if aliased then consumeKeyword .AS else pure false
  if isNamed then
    let name ← expectAlias
    pure (.named left name)
  else
    match ← nextOperator? with
    | none => pure left
    | some op => do
      let right ← rest aliased
      pure (join op left right)

/-- The readers with so many levels left. -/
def readers (scope : Scope) : (levels : Nat) → Readers
  | 0 => Readers.bottom
  | levels + 1 =>
    let below := readers scope levels
    let operand := readOperand scope below
    ⟨readExpression operand below.expression, operand⟩

/-- Reads an expression without an alias, with so many levels left. -/
def read (scope : Scope) (levels : Nat) : Parse Expression :=
  (readers scope levels).expression false

/-- Reads an expression and the alias that may follow it, with so many levels left. -/
def readAliased (scope : Scope) (levels : Nat) : Parse Expression :=
  (readers scope levels).expression true

end Expression
end TransactSql
