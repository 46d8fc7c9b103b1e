/-
TransactSql.Scalar — values without their types.

A `Scalar` is what a value holds if it is not NULL: an integer of 32 or
64 bits, a floating point number or a text. This module says how scalars
are written, ordered, measured, converted and joined by an operator. All
of it takes the type as a parameter, since a text does not show which of
the two text types it belongs to. The result is sensible only if the
scalar fits the type. What is answered for any other one, and for an
operator that two scalars do not have, are `Fallbacks`. A function that
has some is named with `With` and takes them as its first argument; the
function without it takes the standard ones.
-/
import TransactSql.Binary64.Reading
import TransactSql.Binary64.Writing
import TransactSql.Error
import TransactSql.Unicode.Blank

namespace TransactSql

/-- What a value other than NULL holds. -/
inductive Scalar where
  | int (value : Int32)
  | bigint (value : Int64)
  | float (value : Binary64)
  | text (value : String)
deriving DecidableEq

namespace Scalar

/-- The type of a scalar to which no other type is given. -/
def naturalType : Scalar → DataType
  | int _ => .int
  | bigint _ => .bigint
  | float _ => .float
  | text _ => .nvarchar

/-- The scalar is one that a value of this type holds. -/
def fits : Scalar → DataType → Bool
  | int _, .int | bigint _, .bigint | float _, .float => true
  | text _, .varchar | text _, .nvarchar => true
  | _, _ => false

/-- The text of a scalar. -/
def toText : Scalar → String
  | int value => String.ofList (Numeral.intText value.toInt)
  | bigint value => String.ofList (Numeral.intText value.toInt)
  | float value => String.ofList value.text
  | text value => value

/-- The place of a kind of scalar among the others. -/
def rank : Scalar → Nat
  | int _ => 0
  | bigint _ => 1
  | float _ => 2
  | text _ => 3

end Scalar

/-- What is answered for scalars that are not as their types say. -/
structure Fallbacks where
  /-- The order of two scalars of different kinds. -/
  order : Scalar → Scalar → Ordering
  /-- The size of a number that is held as a text. -/
  size : Scalar → Int32
  /-- The result of an operator that two scalars do not have. -/
  result : DataType → ArithmeticOperator → Scalar → Scalar → Except Error Scalar

/-- Kinds are ordered, digits are counted, and operators are refused. -/
def Fallbacks.standard : Fallbacks where
  order left right := Ord.compare left.rank right.rank
  size number := Numeral.saturate number.toText.utf8ByteSize
  result type op _ _ := .error (.incompatibleOperands type type op)

namespace Scalar

/-! ## Order and size -/

/-- The order of two scalars. Texts are ordered by the collation. -/
def compareWith (f : Fallbacks) : Scalar → Scalar → Ordering
  | int left, int right => Ord.compare left.toInt right.toInt
  | bigint left, bigint right => Ord.compare left.toInt right.toInt
  | float left, float right => left.compare right
  | text left, text right => Collation.caseInsensitive.compare left right
  | left, right => f.order left right

def compare (left right : Scalar) : Ordering := compareWith .standard left right

/-- The number of 16-bit units that a text takes: two for a character beyond the first 2^16, one
for every other. -/
def units16 (value : String) : Nat :=
  value.toList.length + value.toList.countP fun c => 0x10000 ≤ c.toNat

/-- The number of bytes that a scalar takes as a value of this type. -/
def byteLengthWith (f : Fallbacks) (type : DataType) (scalar : Scalar) : Int32 :=
  match type, scalar with
  | .int, _ => 4
  | .bigint, _ | .float, _ => 8
  | .varchar, text value => Numeral.saturate value.utf8ByteSize
  | .nvarchar, text value => Numeral.saturate (2 * units16 value)
  | .varchar, number | .nvarchar, number => f.size number

def byteLength (type : DataType) (scalar : Scalar) : Int32 := byteLengthWith .standard type scalar

/-! ## Conversion -/

/-- The scalar, or an overflow of this type. -/
def orOverflow (type : DataType) : Option Scalar → Except Error Scalar
  | some scalar => .ok scalar
  | none => .error (.arithmeticOverflow type)

/-- The integer as a 32-bit scalar. -/
def ofInt32? (i : Int) : Option Scalar := (Numeral.int32? i).map int

/-- The integer as a 64-bit scalar. -/
def ofInt64? (i : Int) : Option Scalar := (Numeral.int64? i).map bigint

/-- The whole part of a number, or zero if the word denotes no number. -/
def wholePart? (value : Binary64) : Option Int :=
  if value.isNaN then some 0 else value.finite?.map Binary64.truncate

/-- Reads a number of this type from a text; blanks around it do not matter. -/
def read (target source : DataType) (value : String) : Except Error Scalar :=
  let trimmed := Unicode.trim value.toList
  let failed := .error (.conversionFailed value source target)
  match target with
  | .int =>
    match Numeral.readInt? trimmed with
    | none => failed
    | some i => if Numeral.fits 64 i then orOverflow .int (ofInt32? i) else failed
  | .bigint =>
    match (Numeral.readInt? trimmed).bind ofInt64? with
    | none => failed
    | some scalar => .ok scalar
  | .float =>
    match (Binary64.read? trimmed).bind Binary64.finite? with
    | none => failed
    | some number => .ok (float number)
  | .varchar | .nvarchar => .ok (text value)

/-- Converts a scalar of the type `source` to the type `target`. Fractions are cut off. -/
def convert (target source : DataType) (scalar : Scalar) : Except Error Scalar :=
  match target, scalar with
  | .int, int value => .ok (int value)
  | .int, bigint value => orOverflow .int (ofInt32? value.toInt)
  | .int, float value => orOverflow .int ((wholePart? value).bind ofInt32?)
  | .bigint, int value => .ok (bigint value.toInt64)
  | .bigint, bigint value => .ok (bigint value)
  | .bigint, float value => orOverflow .bigint ((wholePart? value).bind ofInt64?)
  | .float, int value => .ok (float (Binary64.ofInt value.toInt))
  | .float, bigint value => .ok (float (Binary64.ofInt value.toInt))
  | .float, float value => .ok (float value)
  | .int, text value | .bigint, text value | .float, text value => read target source value
  | .varchar, other | .nvarchar, other => .ok (text other.toText)

/-! ## Operators -/

/-- The result of an operator on two integers in words of this width. It is missing if it does not
fit, and a remainder also if the quotient does not. The second integer of a division must not be
zero. -/
def onIntegers? (width : Nat) (op : ArithmeticOperator) (left right : Int) : Option Int :=
  let fitting (i : Int) : Option Int := if Numeral.fits width i then some i else none
  match op with
  | .add => fitting (left + right)
  | .subtract => fitting (left - right)
  | .multiply => fitting (left * right)
  | .divide => fitting (left.tdiv right)
  | .modulo => (fitting (left.tdiv right)).map fun _ => left.tmod right
  | .bitAnd => some (BitVec.ofInt width left &&& BitVec.ofInt width right).toInt
  | .bitOr => some (BitVec.ofInt width left ||| BitVec.ofInt width right).toInt
  | .bitXor => some (BitVec.ofInt width left ^^^ BitVec.ofInt width right).toInt

/-- The operator divides by its second operand. -/
def divides : ArithmeticOperator → Bool
  | .divide | .modulo => true
  | _ => false

/-- Joins two scalars of one type by an operator. -/
def applyWith (f : Fallbacks) (type : DataType) (op : ArithmeticOperator) (left right : Scalar) :
    Except Error Scalar :=
  match left, right with
  | int left, int right =>
    if divides op && right == 0 then .error .divideByZero
    else orOverflow type ((onIntegers? 32 op left.toInt right.toInt).bind ofInt32?)
  | bigint left, bigint right =>
    if divides op && right == 0 then .error .divideByZero
    else orOverflow type ((onIntegers? 64 op left.toInt right.toInt).bind ofInt64?)
  | float l, float r =>
    match op with
    | .add => orOverflow type ((l.add? r).map float)
    | .subtract => orOverflow type ((l.sub? r).map float)
    | .multiply => orOverflow type ((l.mul? r).map float)
    | .divide =>
      if r.isZero then .error .divideByZero
      else orOverflow type ((l.div? r).map float)
    | op => f.result type op left right
  | text l, text r =>
    match op with
    | .add => .ok (text (l ++ r))
    | op => f.result type op left right
  | left, right => f.result type op left right

def apply (type : DataType) (op : ArithmeticOperator) (left right : Scalar) :
    Except Error Scalar :=
  applyWith .standard type op left right

end Scalar
end TransactSql
