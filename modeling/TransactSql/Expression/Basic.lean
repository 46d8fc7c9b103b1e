/-
TransactSql.Expression.Basic — scalar expressions and their values.

An expression is evaluated against a row, which is given by what each
column reference stands for. `eval` evaluates from left to right and
fails with the first failure that it meets.

`join` puts an operator between an operand and the expression to its
right, which is already grouped. The operator takes from that expression
only what binds tighter than itself: so equal operators group from the
left, although the right-hand side was read first.
-/
import TransactSql.QualifiedName
import TransactSql.Value.BuiltIn

namespace TransactSql

/-- A scalar expression. -/
inductive Expression where
  /-- A literal or the value of a parameter. -/
  | value (value : Value)
  | reference (name : QualifiedName)
  /-- An expression with an alias. -/
  | named (inner : Expression) (name : String)
  | parenthesized (inner : Expression)
  | negative (operand : Expression)
  | binary (op : ArithmeticOperator) (left right : Expression)
  | call (function : BuiltIn) (argument : Expression)

/-- What column references stand for. -/
abbrev Lookup := QualifiedName → Except Error Value

/-- The look-up without a row. -/
def Lookup.noRow : Lookup := fun name => .error (.invalidColumnName name.last)

namespace Expression

/-- The value of an expression. -/
def evalWith (f : Fallbacks) (row : Lookup) : Expression → Except Error Value
  | value v => .ok v
  | reference name => row name
  | named inner _ => inner.evalWith f row
  | parenthesized inner => inner.evalWith f row
  | negative operand => do
    let v ← operand.evalWith f row
    v.negate
  | binary op left right => do
    let l ← left.evalWith f row
    let r ← right.evalWith f row
    l.applyWith f op r
  | call function argument => do
    let v ← argument.evalWith f row
    function.applyWith f v

def eval (row : Lookup) (e : Expression) : Except Error Value := e.evalWith .standard row

theorem eval_negative (row : Lookup) (operand : Expression) :
    (negative operand).eval row = (operand.eval row >>= Value.negate) :=
  rfl

theorem eval_binary (row : Lookup) (op : ArithmeticOperator) (left right : Expression) :
    (binary op left right).eval row =
      (left.eval row >>= fun l => right.eval row >>= fun r => l.apply op r) :=
  rfl

theorem eval_call (row : Lookup) (function : BuiltIn) (argument : Expression) :
    (call function argument).eval row = (argument.eval row >>= function.apply) :=
  rfl

/-- The name of the column that the expression makes; a computed column has none. -/
def name : Expression → String
  | reference name => name.last
  | named _ name => name
  | parenthesized inner => inner.name
  | _ => ""

/-- The expression has an alias. -/
def isNamed : Expression → Bool
  | named _ _ => true
  | _ => false

/-- How tightly the expression holds together. -/
def precedence : Expression → Precedence
  | binary op _ _ => op.precedence
  | _ => .primary

/-- The expression with brackets around every pair of operands. -/
def toText : Expression → String
  | value v => v.toText
  | reference name => name.toText
  | named inner name => inner.toText ++ " AS " ++ name
  | parenthesized inner => "(" ++ inner.toText ++ ")"
  | negative operand => "-" ++ operand.toText
  | binary op left right =>
    "[" ++ left.toText ++ " " ++ op.symbol.toString ++ " " ++ right.toText ++ "]"
  | call function argument => function.name ++ "(" ++ argument.toText ++ ")"

/-! ## Grouping -/

/-- Puts an operator before an expression without an alias. -/
def group (op : ArithmeticOperator) (left : Expression) : Expression → Expression
  | binary next middle right =>
    if next.precedence.bindsTighterThan op.precedence then
      binary op left (binary next middle right)
    else binary next (group op left middle) right
  | right => binary op left right

/-- Puts an operator before an expression. An alias of that expression becomes the alias of the
whole. -/
def join (op : ArithmeticOperator) (left : Expression) : Expression → Expression
  | named inner name => named (join op left inner) name
  | right => group op left right

end Expression
end TransactSql
