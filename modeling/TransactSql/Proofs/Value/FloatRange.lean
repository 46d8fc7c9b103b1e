/-
TransactSql.Proofs.Value.FloatRange — what is too large for a float fails.

The four operators on floats, and the conversion of a decimal text to a
float, have an exact result, which is a rational number. If that does not
overflow, the answer is a finite float, and if it does, there is a failure
of its own kind: an overflow for the operators (`apply_float_cases`), and a
failed conversion for the texts (`convert_decimal_cases`). An infinity is
never what comes out.
-/
import TransactSql.Proofs.Binary64.Decimals
import TransactSql.Proofs.Value.Finite

namespace TransactSql

open Binary64 (Overflows)

/-- What an operator makes of two numbers before anything is rounded. The operators for integers
alone make nothing of them, nor does a division by zero. -/
def ArithmeticOperator.exact? (op : ArithmeticOperator) (p q : ℚ) : Option ℚ :=
  match op with
  | .add => some (p + q)
  | .subtract => some (p - q)
  | .multiply => some (p * q)
  | .divide => if q = 0 then none else some (p / q)
  | _ => none

variable {x y : Binary64} {p q r : ℚ} {type : DataType} {op : ArithmeticOperator} {text : String}

/-- An operator on two numbers rounds the exact result, and has an answer if that does not
overflow. -/
theorem Scalar.apply_float (type : DataType) (hx : x.number? = some p) (hy : y.number? = some q)
    (h : op.exact? p q = some r) :
    ∃ z?, (z? = none ↔ Overflows r) ∧ (∀ z, z? = some z → z.isFinite = true) ∧
      apply type op (float x) (float y) = orOverflow type (z?.map float) := by
  cases op with
  | add =>
    cases h
    exact ⟨_, Binary64.add?_eq_none_iff hx hy, fun _ => Binary64.isFinite_of_add?, rfl⟩
  | subtract =>
    cases h
    exact ⟨_, Binary64.sub?_eq_none_iff hx hy, fun _ => Binary64.isFinite_of_sub?, rfl⟩
  | multiply =>
    cases h
    exact ⟨_, Binary64.mul?_eq_none_iff hx hy, fun _ => Binary64.isFinite_of_mul?, rfl⟩
  | divide =>
    have hq : q ≠ 0 := by
      rintro rfl
      cases h
    have hzero : ¬y.isZero = true := fun hzero => hq ((Binary64.isZero_iff hy).mp hzero)
    obtain rfl : p / q = r := Option.some.inj ((if_neg hq).symm.trans h)
    exact ⟨_, Binary64.div?_eq_none_iff hx hy hq, fun _ => Binary64.isFinite_of_div?, if_neg hzero⟩
  | _ => cases h

namespace Value

/-- An operator on two floats that denote numbers overflows if the exact result does. -/
theorem apply_float_cases (hx : x.number? = some p) (hy : y.number? = some q)
    (h : op.exact? p q = some r) :
    (Overflows r ∧ (float x).apply op (float y) = .error (.arithmeticOverflow .float)) ∨
      (¬Overflows r ∧ ∃ z, z.isFinite = true ∧ (float x).apply op (float y) = .ok (float z)) := by
  have happly : (float x).apply op (float y) =
      (Scalar.apply .float op (.float x) (.float y)).map fun s => ⟨.float, some s⟩ := by
    cases op <;> rfl
  obtain ⟨z?, hnone, hfinite, hscalar⟩ := Scalar.apply_float .float hx hy h
  rw [happly, hscalar]
  cases z? with
  | none => exact .inl ⟨hnone.mp rfl, rfl⟩
  | some z =>
    refine .inr ⟨fun hr => ?_, z, hfinite z rfl, rfl⟩
    cases hnone.mpr hr

/-- A decimal text, with blanks around it or not, becomes no float if its number overflows. -/
theorem convert_decimal_cases (htype : type.isText = true)
    (h : Binary64.denotes? (Unicode.trim text.toList) = some q) :
    let v : Value := ⟨type, some (.text text)⟩
    (Overflows q ∧ v.convert .float = .error (.conversionFailed text type .float)) ∨
      (¬Overflows q ∧ ∃ z, z.isFinite = true ∧ v.convert .float = .ok (float z)) := by
  intro v
  obtain ⟨z, hread, hfinite⟩ := Binary64.isFinite_of_denotes? h
  have hconvert : v.convert .float =
      (Scalar.read .float type text).map fun s => ⟨.float, some s⟩ := by
    cases type with
    | varchar | nvarchar => rfl
    | _ => cases htype
  rw [hconvert, Scalar.read, hread, Option.bind_some]
  by_cases hz : z.isFinite = true
  · refine .inr ⟨hfinite.mp hz, z, hz, ?_⟩
    rw [Binary64.finite?, if_pos hz]
    rfl
  · refine .inl ⟨not_not.mp fun hq => hz (hfinite.mpr hq), ?_⟩
    rw [Binary64.finite?, if_neg hz]
    rfl

end Value
end TransactSql
