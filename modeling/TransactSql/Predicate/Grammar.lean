/-
TransactSql.Predicate.Grammar — reading conditions.

    predicate   = conjunction {OR conjunction}
    conjunction = comparison {AND comparison}
    comparison  = expression operator expression

The operators of two characters are written without a gap between them.
Conditions group from the left, and take no parentheses.
-/
import TransactSql.Expression.Grammar
import TransactSql.Predicate.Basic

namespace TransactSql.Predicate

open Parse

/-- Reads a comparison operator. -/
def readOperator : Parse ComparisonOperator := do
  let token ← expectNext
  match token.kind with
  | .operator '=' => pure .equal
  | .operator '<' =>
    if ← consumeAdjacent token '>' then pure .notEqual
    else if ← consumeAdjacent token '=' then pure .lessOrEqual
    else pure .less
  | .operator '>' =>
    if ← consumeAdjacent token '=' then pure .greaterOrEqual
    else pure .greater
  | .operator '!' =>
    if ← consumeAdjacent token '=' then pure .notEqual
    else if ← consumeAdjacent token '<' then pure .greaterOrEqual
    else if ← consumeAdjacent token '>' then pure .lessOrEqual
    else fail token.unexpected
  | _ => fail token.unexpected

/-- Reads a comparison; `expression` reads its operands. -/
def readComparison (expression : Parse Expression) : Parse Predicate := do
  let left ← expression
  let op ← readOperator
  let right ← expression
  pure (.comparison op left right)

/-- Reads comparisons that are joined by `AND`. -/
def readConjunction (expression : Parse Expression) : Parse Predicate := do
  let (first, more) ← separated (consumeKeyword .AND) (readComparison expression)
  pure (more.foldl .and first)

/-- Reads a condition, with so many levels left for its expressions. -/
def read (scope : Scope) (levels : Nat) : Parse Predicate := do
  let expression := Expression.read scope levels
  let (first, more) ← separated (consumeKeyword .OR) (readConjunction expression)
  pure (more.foldl .or first)

end TransactSql.Predicate
