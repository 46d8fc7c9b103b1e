/-
TransactSql.Value.BuiltIn — the values of the built-in functions.

`abs` keeps the type of its argument and leaves NULL as it is, whatever
its type; `datalength` answers an int, or the NULL of that type.
-/
import TransactSql.Value.Basic

namespace TransactSql

namespace Value

/-- The absolute value. -/
def abs (v : Value) : Except Error Value :=
  match v.scalar with
  | none => .ok (null v.type)
  | some (.int value) => do
    let result ← Scalar.orOverflow v.type (Scalar.ofInt32? value.toInt.natAbs)
    .ok (ofScalar result)
  | some (.bigint value) => do
    let result ← Scalar.orOverflow v.type (Scalar.ofInt64? value.toInt.natAbs)
    .ok (ofScalar result)
  | some (.float value) => .ok (float value.abs)
  | some (.text _) => .error (.invalidArgumentType v.type .abs)

/-- The number of bytes that a value takes. -/
def dataLengthWith (f : Fallbacks) (v : Value) : Value :=
  match v.byteLengthWith? f with
  | some length => int length
  | none => null .int

end Value

namespace BuiltIn

/-- The value of a function of one argument. -/
def applyWith (f : Fallbacks) : BuiltIn → Value → Except Error Value
  | abs, v => v.abs
  | datalength, v => .ok (v.dataLengthWith f)

def apply (function : BuiltIn) (v : Value) : Except Error Value := function.applyWith .standard v

/-- The value of a function for a list of arguments. -/
def evaluate (function : BuiltIn) : List Value → Except Error Value
  | [argument] => function.apply argument
  | _ => .error (.wrongArgumentCount function)

end BuiltIn
end TransactSql
