/-
TransactSql.Proofs.Binary64.Finite — where finite numbers come from.

Changing the sign of a word leaves its magnitude alone, so it stays finite
(`isFinite_negate`, `isFinite_abs`). The four operations answer finite
numbers by their definition. What remains is the integers: rounding moves
a quotient to at most 53 binary digits, and what is left of it in front of
them only counts steps of the exponent (`roundUnits_le`). An integer of 64
bits is so far below the greatest finite number that this is enough
(`isFinite_ofInt`).
-/
import Mathlib.Algebra.Group.Nat.Defs
import TransactSql.Binary64.Arithmetic

namespace TransactSql.Binary64

variable {x y z : Binary64} {m numerator denominator : Nat}

/-! ## Magnitudes -/

theorem magnitude_ofMagnitude (negative : Bool) (h : m < signWeight) :
    (ofMagnitude negative m).magnitude = m := by
  have hweight : signWeight = 2 ^ 63 := rfl
  unfold magnitude ofMagnitude
  rw [UInt64.toNat_ofNat']
  simp only [hweight] at h ⊢
  split <;> omega

theorem magnitude_lt (x : Binary64) : x.magnitude < signWeight := Nat.mod_lt _ (by decide)

/-- Whether a word is finite does not depend on its sign. -/
theorem isFinite_ofMagnitude_iff (negative : Bool) (h : m ≤ infinityMagnitude) :
    (ofMagnitude negative m).isFinite = true ↔ m < infinityMagnitude := by
  have hweight : infinityMagnitude < signWeight := by decide
  rw [isFinite, magnitude_ofMagnitude negative (Nat.lt_of_le_of_lt h hweight), decide_eq_true_eq]

theorem isFinite_ofMagnitude (negative : Bool) (h : m < infinityMagnitude) :
    (ofMagnitude negative m).isFinite = true :=
  (isFinite_ofMagnitude_iff negative (Nat.le_of_lt h)).mpr h

theorem isFinite_negate (h : x.isFinite = true) : x.negate.isFinite = true :=
  isFinite_ofMagnitude _ (of_decide_eq_true h)

theorem isFinite_abs (h : x.isFinite = true) : x.abs.isFinite = true :=
  isFinite_ofMagnitude _ (of_decide_eq_true h)

theorem isFinite_of_sub? (h : x.sub? y = some z) : z.isFinite = true := isFinite_of_add? h

/-! ## Rounding -/

theorem divideToEven_le (numerator denominator : Nat) :
    divideToEven numerator denominator ≤ numerator / denominator + 1 := by
  have hparity : numerator / denominator % 2 < 2 := Nat.mod_lt _ (by decide)
  unfold divideToEven
  dsimp only
  split
  · omega
  · split <;> omega

/-- What is rounded keeps 53 binary digits, of which the last may round up to one digit more. -/
theorem divideToEven_excess_le (numerator denominator : Nat) :
    divideToEven numerator (denominator * Nat.pow 2 ((numerator / denominator).log2 - 52)) ≤
      2 ^ 53 := by
  refine Nat.le_trans (divideToEven_le _ _) ?_
  rw [← Nat.div_div_eq_div_mul]
  generalize numerator / denominator = quotient
  have hlt : quotient / Nat.pow 2 (quotient.log2 - 52) < 2 ^ 53 := by
    refine (Nat.div_lt_iff_lt_mul (Nat.two_pow_pos (quotient.log2 - 52))).mpr ?_
    change quotient < 2 ^ 53 * 2 ^ (quotient.log2 - 52)
    rw [← Nat.pow_add]
    exact Nat.lt_of_lt_of_le Nat.lt_log2_self (Nat.pow_le_pow_right (by decide) (by omega))
  omega

/-- The exponent is at most the number of digits that rounding takes away. -/
theorem roundUnits_le {digits : Nat} (h : (numerator / denominator).log2 ≤ digits) :
    roundUnits numerator denominator ≤ (digits - 52) * exponentStep + 2 ^ 53 := by
  unfold roundUnits
  refine Nat.le_trans (Nat.min_le_left _ _) (Nat.add_le_add ?_ (divideToEven_excess_le _ _))
  exact Nat.mul_le_mul_right _ (Nat.sub_le_sub_right h 52)

theorem log2_mul_two_pow_lt {n : Nat} (h : n < 2 ^ 64) (k : Nat) :
    (n * Nat.pow 2 k).log2 < 64 + k := by
  by_cases hzero : n = 0
  · rw [hzero, Nat.zero_mul, Nat.log2_zero]
    omega
  · have hpos : 0 < Nat.pow 2 k := Nat.two_pow_pos k
    rw [Nat.log2_lt (Nat.mul_ne_zero hzero (Nat.ne_of_gt hpos)), Nat.pow_add]
    exact Nat.mul_lt_mul_of_pos_right h hpos

/-- The number nearest to an integer of 64 bits is finite. -/
theorem isFinite_ofInt {i : Int} (h : i.natAbs < 2 ^ 64) : (ofInt i).isFinite = true := by
  have hdigits : (i.natAbs * unitsPerOne / 1).log2 < 64 + 1074 := by
    rw [Nat.div_one]
    apply log2_mul_two_pow_lt h
  have hround := roundUnits_le (Nat.le_of_lt hdigits)
  exact isFinite_ofMagnitude _ (Nat.lt_of_le_of_lt hround (by decide))

end TransactSql.Binary64
