/-
TransactSql.Proofs.Value.Failures — what can go wrong with values.

A conversion, an operator, a sign or a function fails for one of six
reasons (`Error.isOfValues`), which are about the values and their types
and about nothing around them. Two values without a common type are the
one reason besides; an operator on values that have one does not give it
(`failsWith_apply`).
-/
import TransactSql.Proofs.Except
import TransactSql.Value.BuiltIn

namespace TransactSql

/-- Values of types that go together can run into the failure. -/
def Error.isOfValues : Error → Bool
  | incompatibleOperands _ _ _ | invalidArgumentType _ _ | invalidOperandType _
  | conversionFailed _ _ _ | arithmeticOverflow _ | divideByZero => true
  | _ => false

variable {α : Type}

/-- The computation fails as values do, if it fails. -/
abbrev FailsOnValues (x : Except Error α) : Prop := FailsWith (·.isOfValues = true) x

/-! ## Scalars -/

namespace Scalar

theorem failsWith_orOverflow (type : DataType) (scalar? : Option Scalar) :
    FailsOnValues (orOverflow type scalar?) := by
  cases scalar? with
  | none => exact failsWith_error rfl
  | some s => exact failsWith_ok _ s

theorem failsWith_read (target source : DataType) (value : String) :
    FailsOnValues (read target source value) := by
  cases target with
  | int =>
    dsimp only [read]
    split
    · exact failsWith_error rfl
    · split
      · exact failsWith_orOverflow _ _
      · exact failsWith_error rfl
  | bigint =>
    dsimp only [read]
    split
    · exact failsWith_error rfl
    · exact failsWith_ok _ _
  | float =>
    dsimp only [read]
    split
    · exact failsWith_error rfl
    · exact failsWith_ok _ _
  | varchar | nvarchar => exact failsWith_ok _ _

theorem failsWith_convert (target source : DataType) (scalar : Scalar) :
    FailsOnValues (convert target source scalar) := by
  unfold convert
  split <;> first
    | exact failsWith_orOverflow _ _
    | exact failsWith_read _ _ _
    | exact failsWith_ok _ _

theorem failsWith_apply (type : DataType) (op : ArithmeticOperator) (left right : Scalar) :
    FailsOnValues (apply type op left right) := by
  unfold apply applyWith
  split
  · split
    · exact failsWith_error rfl
    · exact failsWith_orOverflow _ _
  · split
    · exact failsWith_error rfl
    · exact failsWith_orOverflow _ _
  · split
    · exact failsWith_orOverflow _ _
    · exact failsWith_orOverflow _ _
    · exact failsWith_orOverflow _ _
    · split
      · exact failsWith_error rfl
      · exact failsWith_orOverflow _ _
    · exact failsWith_error rfl
  · split
    · exact failsWith_ok _ _
    · exact failsWith_error rfl
  · exact failsWith_error rfl

end Scalar

/-! ## Values -/

namespace Value

variable {op : ArithmeticOperator} {left right : Value}

theorem failsWith_convert (v : Value) (target : DataType) : FailsOnValues (v.convert target) := by
  unfold convert
  split
  · exact failsWith_ok _ _
  · split
    · exact failsWith_ok _ _
    · exact (Scalar.failsWith_convert _ _ _).bind fun _ _ => failsWith_ok _ _

/-- An operator on values of a common type. -/
theorem failsWith_apply {common : DataType}
    (h : DataType.common? left.type right.type = some common) :
    FailsOnValues (apply op left right) := by
  rw [apply, applyWith, h]
  dsimp only
  split
  · split
    · refine (Scalar.failsWith_convert _ _ _).bind fun _ _ => ?_
      refine (Scalar.failsWith_convert _ _ _).bind fun _ _ => ?_
      exact (Scalar.failsWith_apply _ _ _ _).bind fun _ _ => failsWith_ok _ _
    · exact failsWith_error rfl
  · exact failsWith_ok _ _

theorem failsWith_negate (v : Value) : FailsOnValues v.negate := by
  unfold negate
  split
  · exact failsWith_ok _ _
  · exact (Scalar.failsWith_orOverflow _ _).bind fun _ _ => failsWith_ok _ _
  · exact (Scalar.failsWith_orOverflow _ _).bind fun _ _ => failsWith_ok _ _
  · exact failsWith_ok _ _
  · exact failsWith_error rfl

theorem failsWith_compare (left right : Value) : FailsOnValues (left.compare right) := by
  unfold compare compareWith
  split
  · refine (Scalar.failsWith_convert _ _ _).bind fun _ _ => ?_
    exact (Scalar.failsWith_convert _ _ _).bind fun _ _ => failsWith_ok _ _
  · exact failsWith_ok _ _

theorem failsWith_abs (v : Value) : FailsOnValues v.abs := by
  unfold abs
  split
  · exact failsWith_ok _ _
  · exact (Scalar.failsWith_orOverflow _ _).bind fun _ _ => failsWith_ok _ _
  · exact (Scalar.failsWith_orOverflow _ _).bind fun _ _ => failsWith_ok _ _
  · exact failsWith_ok _ _
  · exact failsWith_error rfl

end Value

theorem BuiltIn.failsWith_apply (function : BuiltIn) (v : Value) :
    FailsOnValues (function.apply v) := by
  cases function with
  | abs => exact v.failsWith_abs
  | datalength => exact failsWith_ok _ _

end TransactSql
