/-
TransactSql.Predicate.Basic — the conditions of WHERE clauses.

A comparison is true if its operands are in the order that the operator
asks for; so it is never true of a NULL. A conjunction is left at its
first part that is not true, a disjunction at its first part that is.
-/
import TransactSql.Expression.Basic

namespace TransactSql

/-- A condition on a row. -/
inductive Predicate where
  | comparison (op : ComparisonOperator) (left right : Expression)
  | and (left right : Predicate)
  | or (left right : Predicate)

namespace Predicate

/-- The truth of a comparison of two values. -/
def compareValues (op : ComparisonOperator) (left right : Value) : Except Error Bool := do
  let ordering ← left.compare right
  pure (ordering.any op.holds)

/-- The truth of the condition on a row. -/
def eval (row : Lookup) : Predicate → Except Error Bool
  | comparison op left right => do
    let l ← left.eval row
    let r ← right.eval row
    compareValues op l r
  | and left right => do
    let l ← left.eval row
    if l then right.eval row else pure false
  | or left right => do
    let l ← left.eval row
    if l then pure true else right.eval row

/-- The condition with parentheses around every pair of conditions. -/
def toText : Predicate → String
  | comparison op left right => left.toText ++ " " ++ op.symbol ++ " " ++ right.toText
  | and left right => "(" ++ left.toText ++ " AND " ++ right.toText ++ ")"
  | or left right => "(" ++ left.toText ++ " OR " ++ right.toText ++ ")"

end Predicate
end TransactSql
