/-
TransactSql.Value.Basic — typed values and the operations on them.

A `Value` has a type and holds a scalar, or nothing if it is NULL; so a
NULL has a type too. An operation on two values first converts both to
one type. NULL spreads through arithmetic: the result is NULL if one of
the operands is, and it still gets the type that the result would have.
-/
import TransactSql.Scalar

namespace TransactSql

/-- A value of a type; without a scalar it is NULL. -/
structure Value where
  type : DataType
  scalar : Option Scalar
deriving DecidableEq

namespace Value

/-! ## Building and reading values -/

/-- The NULL of a type. -/
def null (type : DataType) : Value := ⟨type, none⟩

def int (value : Int32) : Value := ⟨.int, some (.int value)⟩

def bigint (value : Int64) : Value := ⟨.bigint, some (.bigint value)⟩

def float (value : Binary64) : Value := ⟨.float, some (.float value)⟩

def varchar (value : String) : Value := ⟨.varchar, some (.text value)⟩

def nvarchar (value : String) : Value := ⟨.nvarchar, some (.text value)⟩

/-- A scalar with the type that it has by nature. -/
def ofScalar (scalar : Scalar) : Value := ⟨scalar.naturalType, some scalar⟩

def isNull (v : Value) : Bool := v.scalar.isNone

/-- The value is NULL, or its scalar is one of its type. -/
def isWellFormed (v : Value) : Bool :=
  match v.scalar with
  | none => true
  | some scalar => scalar.fits v.type

/-- The text of a value. -/
def toText (v : Value) : String :=
  match v.scalar with
  | none => "NULL"
  | some scalar => scalar.toText

/-- The value as a 32-bit integer, if it holds one. -/
def toInt32? (v : Value) : Option Int32 :=
  match v.scalar with
  | some (.int value) => some value
  | _ => none

/-- The value as a 64-bit integer, if it holds an integer. -/
def toInt64? (v : Value) : Option Int64 :=
  match v.scalar with
  | some (.int value) => some value.toInt64
  | some (.bigint value) => some value
  | _ => none

/-- The value as a floating point number, if it holds a number. -/
def toBinary64? (v : Value) : Option Binary64 :=
  match v.scalar with
  | some (.int value) => some (Binary64.ofInt value.toInt)
  | some (.bigint value) => some (Binary64.ofInt value.toInt)
  | some (.float value) => some value
  | _ => none

/-- The text that the value holds. -/
def toString? (v : Value) : Option String :=
  match v.scalar with
  | some (.text value) => some value
  | _ => none

/-- The number of bytes that the value takes. -/
def byteLengthWith? (f : Fallbacks) (v : Value) : Option Int32 :=
  v.scalar.map fun scalar => scalar.byteLengthWith f v.type

def byteLength? (v : Value) : Option Int32 := v.byteLengthWith? .standard

/-! ## Operations -/

/-- Converts a value to a type. -/
def convert (v : Value) (target : DataType) : Except Error Value :=
  match v.scalar with
  | none => .ok (null target)
  | some scalar =>
    if target = v.type then .ok v
    else do
      let converted ← Scalar.convert target v.type scalar
      .ok ⟨target, some converted⟩

/-- Joins two values by an operator. Values without a common type can be joined only if one of
them is NULL; the result is then NULL, of the type of the other. -/
def applyWith (f : Fallbacks) (op : ArithmeticOperator) (left right : Value) :
    Except Error Value :=
  match DataType.common? left.type right.type with
  | none =>
    if left.isNull then .ok (null right.type)
    else if right.isNull then .ok (null left.type)
    else .error (.noCommonType op left.type right.type)
  | some common =>
    match left.scalar, right.scalar with
    | some leftScalar, some rightScalar =>
      if common.supports op then do
        let leftConverted ← Scalar.convert common left.type leftScalar
        let rightConverted ← Scalar.convert common right.type rightScalar
        let result ← Scalar.applyWith f common op leftConverted rightConverted
        .ok ⟨common, some result⟩
      else .error (.incompatibleOperands left.type right.type op)
    | _, _ => .ok (null common)

def apply (op : ArithmeticOperator) (left right : Value) : Except Error Value :=
  applyWith .standard op left right

/-- The value with its sign changed. -/
def negate (v : Value) : Except Error Value :=
  match v.scalar with
  | none => .ok v
  | some (.int value) => do
    let result ← Scalar.orOverflow v.type (Scalar.ofInt32? (-value.toInt))
    .ok ⟨v.type, some result⟩
  | some (.bigint value) => do
    let result ← Scalar.orOverflow v.type (Scalar.ofInt64? (-value.toInt))
    .ok ⟨v.type, some result⟩
  | some (.float value) => .ok ⟨v.type, some (.float value.negate)⟩
  | some (.text _) => .error (.invalidOperandType v.type)

/-- The order of two values; there is none if one of them is NULL. -/
def compareWith (f : Fallbacks) (left right : Value) : Except Error (Option Ordering) :=
  match left.scalar, right.scalar with
  | some leftScalar, some rightScalar => do
    let common := DataType.comparison left.type right.type
    let leftConverted ← Scalar.convert common left.type leftScalar
    let rightConverted ← Scalar.convert common right.type rightScalar
    .ok (some (Scalar.compareWith f leftConverted rightConverted))
  | _, _ => .ok none

def compare (left right : Value) : Except Error (Option Ordering) :=
  compareWith .standard left right

end Value
end TransactSql
