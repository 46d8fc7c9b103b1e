/-
TransactSql.Operator — the operators of expressions and predicates.

An `ArithmeticOperator` joins two values to a value. Multiplication and
division bind tighter than all the others, the remainder included. A
`ComparisonOperator` joins two values to a truth value, and is decided by
the order of the two.
-/
import TransactSql.DataType

namespace TransactSql

/-- An operator between two values. -/
inductive ArithmeticOperator where
  | add
  | subtract
  | multiply
  | divide
  | modulo
  | bitAnd
  | bitOr
  | bitXor
deriving DecidableEq

namespace ArithmeticOperator

/-- All operators, in the order in which they are listed to a user. -/
def all : List ArithmeticOperator :=
  [add, subtract, multiply, divide, modulo, bitAnd, bitOr, bitXor]

def symbol : ArithmeticOperator → Char
  | add => '+'
  | subtract => '-'
  | multiply => '*'
  | divide => '/'
  | modulo => '%'
  | bitAnd => '&'
  | bitOr => '|'
  | bitXor => '^'

def ofSymbol? : Char → Option ArithmeticOperator
  | '+' => some add
  | '-' => some subtract
  | '*' => some multiply
  | '/' => some divide
  | '%' => some modulo
  | '&' => some bitAnd
  | '|' => some bitOr
  | '^' => some bitXor
  | _ => none

/-- The name that messages use. -/
def name : ArithmeticOperator → String
  | add => "add"
  | subtract => "subtract"
  | multiply => "multiply"
  | divide => "divide"
  | modulo => "modulo"
  | bitAnd => "boolean AND"
  | bitOr => "boolean OR"
  | bitXor => "boolean XOR"

end ArithmeticOperator

/-- How tightly an expression holds together. -/
inductive Precedence where
  /-- A literal, a reference, a call or a group in parentheses. -/
  | primary
  | multiplicative
  | additive
deriving DecidableEq

namespace Precedence

/-- The level of a precedence; a lower level binds tighter. -/
def level : Precedence → Nat
  | primary => 0
  | multiplicative => 2
  | additive => 3

def bindsTighterThan (left right : Precedence) : Bool :=
  left.level < right.level

end Precedence

/-- The precedence of an operator. -/
def ArithmeticOperator.precedence : ArithmeticOperator → Precedence
  | multiply | divide => .multiplicative
  | add | subtract | modulo | bitAnd | bitOr | bitXor => .additive

/-- The values of the type can be joined by the operator. -/
def DataType.supports : DataType → ArithmeticOperator → Bool
  | .int, _ | .bigint, _ => true
  | .float, op =>
    match op with
    | .add | .subtract | .multiply | .divide => true
    | .modulo | .bitAnd | .bitOr | .bitXor => false
  | .varchar, op | .nvarchar, op => op == .add

/-- An operator between two values that is either true or false. -/
inductive ComparisonOperator where
  | equal
  | notEqual
  | greater
  | greaterOrEqual
  | less
  | lessOrEqual
deriving DecidableEq

namespace ComparisonOperator

/-- All operators, in the order in which they are listed to a user. -/
def all : List ComparisonOperator :=
  [equal, notEqual, greater, greaterOrEqual, less, lessOrEqual]

def symbol : ComparisonOperator → String
  | equal => "="
  | notEqual => "<>"
  | greater => ">"
  | greaterOrEqual => ">="
  | less => "<"
  | lessOrEqual => "<="

/-- Operands in this order satisfy the operator. -/
def holds : ComparisonOperator → Ordering → Bool
  | equal, ordering => ordering == .eq
  | notEqual, ordering => ordering != .eq
  | greater, ordering => ordering == .gt
  | greaterOrEqual, ordering => ordering != .lt
  | less, ordering => ordering == .lt
  | lessOrEqual, ordering => ordering != .gt

end ComparisonOperator
end TransactSql
