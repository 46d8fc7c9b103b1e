/-
TransactSql.Proofs.Value.FloatOrdering — the order of floats.

Two floats are compared as words, and two finite words are in the order of
the numbers that they denote, with one exception: a zero has two words,
and the negative one comes before the positive one. Everywhere else equal
numbers are equal words, since a number other than zero shows its sign.
So the exception is all that has to be excluded for a comparison to be
numeric (`compare_floats`).
-/
import TransactSql.Proofs.Binary64.Denotation
import TransactSql.Proofs.Value.Ordering

namespace TransactSql

namespace Binary64

variable {x y : Binary64} {p q : ℚ}

theorem number?_nonpos (hx : x.number? = some p) (hnegative : x.negative = true) : p ≤ 0 := by
  rw [← (number?_eq_some_iff.mp hx).2, units, if_pos hnegative]
  exact div_nonpos_of_nonpos_of_nonneg (by simp) unitsPerOne_pos.le

theorem number?_nonneg (hx : x.number? = some p) (hpositive : x.negative = false) : 0 ≤ p := by
  rw [← (number?_eq_some_iff.mp hx).2, units, if_neg (by rw [hpositive]; exact Bool.false_ne_true)]
  exact div_nonneg (by simp) unitsPerOne_pos.le

/-- Words of one number have one sign, unless the number is zero. -/
theorem negative_eq_of_number? (hx : x.number? = some p) (hy : y.number? = some p) (hp : p ≠ 0) :
    x.negative = y.negative := by
  cases hxneg : x.negative <;> cases hyneg : y.negative
  · rfl
  · exact absurd (le_antisymm (number?_nonpos hy hyneg) (number?_nonneg hx hxneg)) hp
  · exact absurd (le_antisymm (number?_nonpos hx hxneg) (number?_nonneg hy hyneg)) hp
  · rfl

theorem compare_eq_cmp (hx : x.number? = some p) (hy : y.number? = some q)
    (hzeros : p = 0 → q = 0 → x.negative = y.negative) : x.compare y = cmp p q := by
  rw [compare_eq_of_number? hx hy]
  cases ho : cmp p q with
  | lt => rfl
  | gt => rfl
  | eq =>
    obtain rfl : p = q := (cmp_eq_eq_iff p q).mp ho
    have hsign : x.negative = y.negative := by
      by_cases hp : p = 0
      · exact hzeros hp hp
      · exact negative_eq_of_number? hx hy hp
    rw [hsign]
    exact Std.ReflOrd.compare_self

end Binary64

namespace Value

variable {x y : Binary64} {p q : ℚ}

theorem compare_float (x y : Binary64) : compare (float x) (float y) = .ok (some (x.compare y)) :=
  rfl

/-- Finite floats can always be compared. They are in the order of the numbers that they denote, and
where those are equal a float with a negative sign comes first. This is the order of the numbers
themselves, and every operator holds as it does of the numbers, unless one of the floats is the
negative zero and the other one the positive zero. -/
theorem compare_floats (hx : x.number? = some p) (hy : y.number? = some q) :
    compare (float x) (float y) =
        .ok (some ((cmp p q).then (Ord.compare (!x.negative) (!y.negative)))) ∧
      ((p = 0 → q = 0 → x.negative = y.negative) →
        compare (float x) (float y) = .ok (some (cmp p q)) ∧
        ∀ op, Predicate.compareValues op (float x) (float y) = .ok (op.holds (cmp p q))) := by
  refine ⟨by rw [compare_float, Binary64.compare_eq_of_number? hx hy], fun hzeros => ?_⟩
  have hcompare : compare (float x) (float y) = .ok (some (cmp p q)) := by
    rw [compare_float, Binary64.compare_eq_cmp hx hy hzeros]
  exact ⟨hcompare, fun op => by rw [Predicate.compareValues, hcompare]; rfl⟩

/-- The greatest subnormal number and the least normal one, which have words next to each other. -/
theorem compare_floats_of_subnormal :
    let subnormal : Binary64 := ⟨0x000FFFFFFFFFFFFF⟩
    let normal : Binary64 := ⟨0x0010000000000000⟩
    subnormal.number? = some (4503599627370495 * 2 ^ (-1074 : ℤ)) ∧
      normal.number? = some (4503599627370496 * 2 ^ (-1074 : ℤ)) ∧
      compare (float subnormal) (float normal) = .ok (some .lt) := by
  intro subnormal normal
  have hsubnormal : subnormal.number? = some (4503599627370495 * 2 ^ (-1074 : ℤ)) := by
    have hfields : subnormal.signField = 0 ∧ subnormal.exponentField = 0 ∧
        subnormal.fractionField = 4503599627370495 := by decide
    simp [Binary64.number?, hfields]
  have hnormal : normal.number? = some (4503599627370496 * 2 ^ (-1074 : ℤ)) := by
    have hfields : normal.signField = 0 ∧ normal.exponentField = 1 ∧
        normal.fractionField = 0 := by decide
    norm_num [Binary64.number?, hfields]
  have hless : (4503599627370495 : ℚ) * 2 ^ (-1074 : ℤ) < 4503599627370496 * 2 ^ (-1074 : ℤ) :=
    mul_lt_mul_of_pos_right (by norm_num) (zpow_pos (by norm_num) _)
  refine ⟨hsubnormal, hnormal, ?_⟩
  rw [((compare_floats hsubnormal hnormal).2 fun _ _ => by decide).1, (cmp_eq_lt_iff _ _).mpr hless]

/-- The two zeros denote one number, but they do not compare as equal. -/
theorem compare_zeros :
    let negativeZero := Binary64.ofMagnitude true 0
    negativeZero.number? = some 0 ∧ Binary64.zero.number? = some 0 ∧
      negate (float .zero) = .ok (float negativeZero) ∧
      compare (float negativeZero) (float .zero) = .ok (some .lt) ∧
      Predicate.compareValues .equal (float negativeZero) (float .zero) = .ok false := by
  intro negativeZero
  have hnegative : negativeZero.exponentField = 0 ∧ negativeZero.fractionField = 0 := by decide
  have hpositive : Binary64.zero.exponentField = 0 ∧ Binary64.zero.fractionField = 0 := by decide
  refine ⟨?_, ?_, by decide, by decide, by decide⟩
  · simp [Binary64.number?, hnegative]
  · simp [Binary64.number?, hpositive]

end Value
end TransactSql
