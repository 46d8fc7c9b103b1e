/-
TransactSql.Proofs.Value.WellFormed — every value holds what its type says.

A value is well formed if it is NULL or its scalar is one of its type.
All operations on values keep that: conversion (`isWellFormed_convert`,
which also gives the type asked for), the arithmetic operators
(`isWellFormed_apply`), the sign (`isWellFormed_negate`) and the built-in
functions (`isWellFormed_function`).

Which types a scalar fits depends on its kind alone (`fits_eq_of_rank_eq`).
So the argument is always the same one: a conversion makes a scalar of
the kind of its target whatever it is given, and an operator answers a
scalar of the kind of its operands.
-/
import TransactSql.Proofs.Except
import TransactSql.Value.BuiltIn

namespace TransactSql

namespace Scalar

/-! ## Scalars -/

theorem fits_eq_of_rank_eq {s r : Scalar} (h : s.rank = r.rank) (type : DataType) :
    s.fits type = r.fits type := by
  cases s <;> cases r <;> first | cases type <;> rfl | cases h

theorem orOverflow_eq_ok {type : DataType} {r : Option Scalar} {s : Scalar} :
    orOverflow type r = .ok s ↔ r = some s := by
  cases r <;> simp [orOverflow]

theorem rank_ofInt32? {i : Int} {s : Scalar} (h : ofInt32? i = some s) : s.rank = 0 := by
  obtain ⟨v, -, rfl⟩ := Option.map_eq_some_iff.mp h
  rfl

theorem rank_ofInt64? {i : Int} {s : Scalar} (h : ofInt64? i = some s) : s.rank = 1 := by
  obtain ⟨v, -, rfl⟩ := Option.map_eq_some_iff.mp h
  rfl

theorem fits_int_of_rank {s : Scalar} (h : s.rank = 0) : s.fits .int = true :=
  fits_eq_of_rank_eq (r := int 0) h .int

theorem fits_bigint_of_rank {s : Scalar} (h : s.rank = 1) : s.fits .bigint = true :=
  fits_eq_of_rank_eq (r := bigint 0) h .bigint

/-- What is read for a type is a scalar of it. -/
theorem fits_read {target source : DataType} {value : String} {s : Scalar}
    (h : read target source value = .ok s) : s.fits target = true := by
  unfold read at h
  cases target with
  | int =>
    simp only at h
    split at h
    · cases h
    · split at h
      · exact fits_int_of_rank (rank_ofInt32? (orOverflow_eq_ok.mp h))
      · cases h
  | bigint =>
    simp only at h
    split at h
    · cases h
    · rename_i hread
      obtain ⟨i, -, hi⟩ := Option.bind_eq_some_iff.mp hread
      cases h
      exact fits_bigint_of_rank (rank_ofInt64? hi)
  | float =>
    simp only at h
    split at h <;> cases h
    rfl
  | varchar => cases h; rfl
  | nvarchar => cases h; rfl

/-- A conversion makes a scalar of the type asked for, whatever it is given. -/
theorem fits_convert {target source : DataType} {s r : Scalar}
    (h : convert target source s = .ok r) : r.fits target = true := by
  unfold convert at h
  split at h
  case h_2 => exact fits_int_of_rank (rank_ofInt32? (orOverflow_eq_ok.mp h))
  case h_3 =>
    obtain ⟨i, -, hi⟩ := Option.bind_eq_some_iff.mp (orOverflow_eq_ok.mp h)
    exact fits_int_of_rank (rank_ofInt32? hi)
  case h_6 =>
    obtain ⟨i, -, hi⟩ := Option.bind_eq_some_iff.mp (orOverflow_eq_ok.mp h)
    exact fits_bigint_of_rank (rank_ofInt64? hi)
  case h_10 => exact fits_read h
  case h_11 => exact fits_read h
  case h_12 => exact fits_read h
  all_goals cases h; rfl

/-- An operator answers a scalar of the kind of its operands. -/
theorem rank_apply {type : DataType} {op : ArithmeticOperator} {left right result : Scalar}
    (h : apply type op left right = .ok result) : result.rank = left.rank := by
  unfold apply applyWith at h
  split at h
  · split at h
    · cases h
    · obtain ⟨i, -, hi⟩ := Option.bind_eq_some_iff.mp (orOverflow_eq_ok.mp h)
      exact rank_ofInt32? hi
  · split at h
    · cases h
    · obtain ⟨i, -, hi⟩ := Option.bind_eq_some_iff.mp (orOverflow_eq_ok.mp h)
      exact rank_ofInt64? hi
  · have hfloat : ∀ {r : Option Binary64}, orOverflow type (r.map float) = .ok result →
        result.rank = 2 := by
      intro r hr
      obtain ⟨v, -, rfl⟩ := Option.map_eq_some_iff.mp (orOverflow_eq_ok.mp hr)
      rfl
    split at h
    · exact hfloat h
    · exact hfloat h
    · exact hfloat h
    · split at h
      · cases h
      · exact hfloat h
    · cases h
  · split at h <;> cases h
    rfl
  · cases h

end Scalar

namespace Value

/-! ## Values -/

theorem isWellFormed_of_some {v : Value} {s : Scalar} (h : v.scalar = some s) :
    v.isWellFormed = s.fits v.type := by
  simp [isWellFormed, h]

/-- A conversion answers a well-formed value of the type asked for. -/
theorem isWellFormed_convert {v w : Value} {target : DataType} (h : v.convert target = .ok w)
    (hv : v.isWellFormed = true) : w.type = target ∧ w.isWellFormed = true := by
  unfold convert at h
  split at h
  · cases h
    exact ⟨rfl, rfl⟩
  · split at h
    · rename_i htype
      cases h
      exact ⟨htype.symm, hv⟩
    · obtain ⟨s, hs, h⟩ := bind_eq_ok.mp h
      cases h
      exact ⟨rfl, Scalar.fits_convert hs⟩

/-- An operator answers a well-formed value, also for operands that are not. -/
theorem isWellFormed_apply {op : ArithmeticOperator} {left right result : Value}
    (h : left.apply op right = .ok result) : result.isWellFormed = true := by
  unfold apply applyWith at h
  split at h
  · split at h
    · cases h; rfl
    · split at h <;> cases h
      rfl
  · split at h
    · split at h
      · obtain ⟨l, hl, h⟩ := bind_eq_ok.mp h
        obtain ⟨r, -, h⟩ := bind_eq_ok.mp h
        obtain ⟨s, hs, h⟩ := bind_eq_ok.mp h
        cases h
        show s.fits _ = true
        rw [Scalar.fits_eq_of_rank_eq (Scalar.rank_apply hs)]
        exact Scalar.fits_convert hl
      · cases h
    · cases h; rfl

theorem isWellFormed_negate {v w : Value} (h : v.negate = .ok w) (hv : v.isWellFormed = true) :
    w.isWellFormed = true := by
  unfold negate at h
  split at h
  · cases h
    exact hv
  · rename_i value hs
    obtain ⟨s, hneg, h⟩ := bind_eq_ok.mp h
    cases h
    rw [isWellFormed_of_some hs] at hv
    exact (Scalar.fits_eq_of_rank_eq (Scalar.rank_ofInt32? (Scalar.orOverflow_eq_ok.mp hneg))
      v.type).trans hv
  · rename_i value hs
    obtain ⟨s, hneg, h⟩ := bind_eq_ok.mp h
    cases h
    rw [isWellFormed_of_some hs] at hv
    exact (Scalar.fits_eq_of_rank_eq (Scalar.rank_ofInt64? (Scalar.orOverflow_eq_ok.mp hneg))
      v.type).trans hv
  · rename_i value hs
    cases h
    rw [isWellFormed_of_some hs] at hv
    exact (Scalar.fits_eq_of_rank_eq (s := .float value.negate) (r := .float value) rfl
      v.type).trans hv
  · cases h

theorem isWellFormed_ofScalar (s : Scalar) : (ofScalar s).isWellFormed = true := by
  cases s <;> rfl

/-- A built-in function answers a well-formed value, also for an argument that is not. -/
theorem isWellFormed_function {function : BuiltIn} {v w : Value} (h : function.apply v = .ok w) :
    w.isWellFormed = true := by
  cases function with
  | abs =>
    unfold BuiltIn.apply BuiltIn.applyWith abs at h
    simp only at h
    split at h
    · cases h; rfl
    · obtain ⟨s, -, h⟩ := bind_eq_ok.mp h
      cases h
      exact isWellFormed_ofScalar s
    · obtain ⟨s, -, h⟩ := bind_eq_ok.mp h
      cases h
      exact isWellFormed_ofScalar s
    · cases h; rfl
    · cases h
  | datalength =>
    cases h
    unfold dataLengthWith
    split <;> rfl

end Value
end TransactSql
