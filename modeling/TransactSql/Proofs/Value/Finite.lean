/-
TransactSql.Proofs.Value.Finite — operations on values keep floats finite.

A value is finite if it holds no infinity and no word for no number; what
holds no float is finite anyway. Floats come into being by conversion from
an integer, which is never too large (`Binary64.isFinite_ofInt`), by
conversion from a text and by arithmetic, which both refuse what is not
finite, and by changing the sign of another float. So the result of every
operation on finite values is finite (`isFinite_kept`).
-/
import TransactSql.Proofs.Binary64.Finite
import TransactSql.Proofs.Expression.Leaves
import TransactSql.Proofs.Value.Integers

namespace TransactSql

/-! ## Scalars -/

namespace Scalar

/-- The scalar is a finite float, or no float. -/
def IsFinite : Scalar → Prop
  | float x => x.isFinite = true
  | _ => True

instance decidableIsFinite : (s : Scalar) → Decidable s.IsFinite
  | float x => inferInstanceAs (Decidable (x.isFinite = true))
  | int _ | bigint _ | text _ => isTrue trivial

variable {s r left right : Scalar} {type target source : DataType} {op : ArithmeticOperator}

theorem isFinite_of_rank (h : s.rank ≠ 2) : s.IsFinite := by
  cases s with
  | float x => exact absurd rfl h
  | _ => trivial

theorem isFinite_of_int32 {i : Int} (h : orOverflow type (ofInt32? i) = .ok s) : s.IsFinite := by
  obtain ⟨n, -, rfl⟩ := Option.map_eq_some_iff.mp (orOverflow_eq_ok.mp h)
  trivial

theorem isFinite_of_int64 {i : Int} (h : orOverflow type (ofInt64? i) = .ok s) : s.IsFinite := by
  obtain ⟨n, -, rfl⟩ := Option.map_eq_some_iff.mp (orOverflow_eq_ok.mp h)
  trivial

theorem isFinite_of_fits (h : s.fits target = true) (htarget : target ≠ .float) : s.IsFinite := by
  cases s with
  | float x =>
    cases target with
    | float => exact absurd rfl htarget
    | _ => cases h
  | _ => trivial

theorem isFinite_convert (h : convert target source s = .ok r) (hs : s.IsFinite) :
    r.IsFinite := by
  by_cases htarget : target = .float
  · subst htarget
    cases s with
    | int i =>
      cases h
      have hle := i.le_toInt
      have hlt := i.toInt_lt
      exact Binary64.isFinite_ofInt (by omega)
    | bigint i =>
      cases h
      have hle := i.le_toInt
      have hlt := i.toInt_lt
      exact Binary64.isFinite_ofInt (by omega)
    | float x =>
      cases h
      exact hs
    | text text =>
      simp only [convert, read] at h
      split at h
      · cases h
      · next hread =>
        obtain ⟨x, -, hfinite⟩ := Option.bind_eq_some_iff.mp hread
        cases h
        exact Binary64.isFinite_of_finite? hfinite
  · exact isFinite_of_fits (fits_convert h) htarget

/-- The result of an operator is finite, also if its operands are not. -/
theorem isFinite_apply (h : apply type op left right = .ok r) : r.IsFinite := by
  by_cases hrank : left.rank = 2
  · cases left with
    | float x =>
      cases right with
      | float y =>
        have hresult {z? : Option Binary64} (hz : orOverflow type (z?.map float) = .ok r)
            (hfinite : ∀ z, z? = some z → z.isFinite = true) : r.IsFinite := by
          obtain ⟨z, hsome, rfl⟩ := Option.map_eq_some_iff.mp (orOverflow_eq_ok.mp hz)
          exact hfinite z hsome
        cases op with
        | add => exact hresult h fun _ => Binary64.isFinite_of_add?
        | subtract => exact hresult h fun _ => Binary64.isFinite_of_sub?
        | multiply => exact hresult h fun _ => Binary64.isFinite_of_mul?
        | divide =>
          simp only [apply, applyWith] at h
          split at h
          · cases h
          · exact hresult h fun _ => Binary64.isFinite_of_div?
        | _ => cases h
      | _ => cases h
    | _ => cases hrank
  · exact isFinite_of_rank (rank_apply h ▸ hrank)

end Scalar

/-! ## Values -/

namespace Value

/-- The value holds no float that is not finite. -/
def IsFinite (v : Value) : Prop := ∀ s, v.scalar = some s → s.IsFinite

instance decidableIsFinite (v : Value) : Decidable v.IsFinite :=
  inferInstanceAs (Decidable (∀ s ∈ v.scalar, s.IsFinite))

variable {v w left right result : Value} {s : Scalar} {type target : DataType}
  {op : ArithmeticOperator}

theorem isFinite_null (type : DataType) : (null type).IsFinite := nofun

theorem isFinite_some (h : s.IsFinite) : IsFinite ⟨type, some s⟩ := by
  intro _ hsome
  cases hsome
  exact h

theorem isFinite_convert (h : v.convert target = .ok w) (hv : v.IsFinite) : w.IsFinite := by
  unfold convert at h
  split at h
  · cases h
    exact isFinite_null target
  · next s hs =>
    split at h
    · cases h
      exact hv
    · obtain ⟨r, hr, h⟩ := bind_eq_ok.mp h
      cases h
      exact isFinite_some (Scalar.isFinite_convert hr (hv s hs))

theorem isFinite_apply (h : left.apply op right = .ok result) : result.IsFinite := by
  unfold apply applyWith at h
  split at h
  · split at h
    · cases h
      exact isFinite_null _
    · split at h <;> cases h
      exact isFinite_null _
  · split at h
    · split at h
      · obtain ⟨l, -, h⟩ := bind_eq_ok.mp h
        obtain ⟨r, -, h⟩ := bind_eq_ok.mp h
        obtain ⟨s, hs, h⟩ := bind_eq_ok.mp h
        cases h
        exact isFinite_some (Scalar.isFinite_apply hs)
      · cases h
    · cases h
      exact isFinite_null _

theorem isFinite_negate (h : v.negate = .ok w) (hv : v.IsFinite) : w.IsFinite := by
  unfold negate at h
  split at h
  · cases h
    exact hv
  · obtain ⟨s, hs, h⟩ := bind_eq_ok.mp h
    cases h
    exact isFinite_some (Scalar.isFinite_of_int32 hs)
  · obtain ⟨s, hs, h⟩ := bind_eq_ok.mp h
    cases h
    exact isFinite_some (Scalar.isFinite_of_int64 hs)
  · next x hx =>
    cases h
    have hfinite : x.isFinite = true := hv _ hx
    exact isFinite_some (Binary64.isFinite_negate hfinite)
  · cases h

theorem isFinite_function {function : BuiltIn} (h : function.apply v = .ok w) (hv : v.IsFinite) :
    w.IsFinite := by
  cases function with
  | abs =>
    unfold BuiltIn.apply BuiltIn.applyWith abs at h
    simp only at h
    split at h
    · cases h
      exact isFinite_null _
    · obtain ⟨s, hs, h⟩ := bind_eq_ok.mp h
      cases h
      exact isFinite_some (Scalar.isFinite_of_int32 hs)
    · obtain ⟨s, hs, h⟩ := bind_eq_ok.mp h
      cases h
      exact isFinite_some (Scalar.isFinite_of_int64 hs)
    · next x hx =>
      cases h
      have hfinite : x.isFinite = true := hv _ hx
      exact isFinite_some (Binary64.isFinite_abs hfinite)
    · cases h
  | datalength =>
    cases h
    unfold dataLengthWith
    split
    · exact isFinite_some trivial
    · exact isFinite_null _

theorem isFinite_kept : Kept IsFinite where
  negate := isFinite_negate
  apply h _ _ := isFinite_apply h
  function := isFinite_function

end Value
end TransactSql
