/-
TransactSql.Proofs.Binary64.Denotation — the numbers that words denote.

The reference is the standard's own reading of a word. Its sign, exponent
and fraction are three fields of bits, and unless the exponent is the
greatest one they denote a rational number (`number?`): a sum of powers of
two for a subnormal, and the same with a leading one for a normal number.

The model counts in units instead, and this module is the bridge. A finite
word denotes its units divided by how many make one (`number?_eq`), units
grow with the magnitude (`unitsOfMagnitude_strictMono`), and from that the
total order of the words is the order of the numbers, refined by the sign
(`compare_eq_of_number?`), and the whole part is the number rounded toward
zero (`truncate_eq_of_number?`).
-/
import Mathlib.Algebra.Order.Floor.Ring
import Mathlib.Data.Rat.Floor
import Mathlib.Order.Compare
import Mathlib.Tactic.Ring
import Mathlib.Tactic.Linarith
import TransactSql.Binary64.Basic

namespace TransactSql

/-- A rational number without its fraction. -/
def truncation (q : ℚ) : ℤ := if q < 0 then ⌈q⌉ else ⌊q⌋

theorem truncation_div (u : ℤ) (n : ℕ) : truncation ((u : ℚ) / n) = u.tdiv n := by
  unfold truncation
  split
  next hneg =>
    have hu : u ≤ 0 := by
      by_contra hpos
      exact absurd hneg (not_lt.mpr (div_nonneg (Int.cast_nonneg (by omega)) n.cast_nonneg))
    calc ⌈(u : ℚ) / n⌉ = -⌊((-u : ℤ) : ℚ) / n⌋ := by
          rw [Int.cast_neg, neg_div, Int.floor_neg, neg_neg]
      _ = -((-u) / n) := by rw [Rat.floor_intCast_div_natCast]
      _ = -((-u).tdiv n) := by rw [Int.tdiv_eq_ediv_of_nonneg (by omega)]
      _ = u.tdiv n := by rw [Int.neg_tdiv, neg_neg]
  next hnonneg =>
    rw [Rat.floor_intCast_div_natCast]
    rcases n.eq_zero_or_pos with rfl | hn
    · simp
    · have hu : 0 ≤ u := by
        by_contra hneg
        have hn' : (0 : ℚ) < n := Nat.cast_pos.mpr hn
        exact hnonneg (div_neg_of_neg_of_pos (Int.cast_lt_zero.mpr (by omega)) hn')
      rw [Int.tdiv_eq_ediv_of_nonneg hu]

namespace Binary64

variable {x y : Binary64} {p q : ℚ}

/-! ## The fields of a word -/

/-- The first bit. -/
def signField (x : Binary64) : ℕ := x.bits.toNat / 2 ^ 63

/-- The eleven bits after the first. -/
def exponentField (x : Binary64) : ℕ := x.bits.toNat / 2 ^ 52 % 2 ^ 11

/-- The last 52 bits. -/
def fractionField (x : Binary64) : ℕ := x.bits.toNat % 2 ^ 52

/-- The number that a word denotes; nothing for the infinities and the words that denote no
number. -/
def number? (x : Binary64) : Option ℚ :=
  if x.exponentField = 2047 then none
  else if x.exponentField = 0 then
    some ((-1) ^ x.signField * (x.fractionField * 2 ^ (-1074 : ℤ)))
  else
    some ((-1) ^ x.signField * ((2 ^ 52 + x.fractionField) * 2 ^ ((x.exponentField : ℤ) - 1075)))

theorem signField_eq (x : Binary64) : x.signField = if x.negative then 1 else 0 := by
  have hbits : x.bits.toNat < 2 ^ 64 := x.bits.toNat_lt
  unfold signField negative
  simp only [show signWeight = 2 ^ 63 from rfl, decide_eq_true_eq]
  split <;> omega

theorem magnitude_eq (x : Binary64) :
    x.magnitude = x.exponentField * exponentStep + x.fractionField := by
  unfold magnitude exponentField fractionField
  simp only [show signWeight = 2 ^ 63 from rfl, show exponentStep = 2 ^ 52 from rfl]
  omega

theorem exponentField_lt (x : Binary64) : x.exponentField < 2048 := Nat.mod_lt _ (by omega)

theorem fractionField_lt (x : Binary64) : x.fractionField < exponentStep :=
  Nat.mod_lt _ (by omega)

theorem isFinite_iff : x.isFinite = true ↔ x.exponentField ≠ 2047 := by
  have hexponent := x.exponentField_lt
  have hfraction := x.fractionField_lt
  simp only [isFinite, infinityMagnitude, magnitude_eq, decide_eq_true_eq,
    show exponentStep = 2 ^ 52 from rfl] at hfraction ⊢
  omega

theorem isNaN_iff : x.isNaN = true ↔ x.exponentField = 2047 ∧ x.fractionField ≠ 0 := by
  have hexponent := x.exponentField_lt
  have hfraction := x.fractionField_lt
  simp only [isNaN, infinityMagnitude, magnitude_eq, decide_eq_true_eq,
    show exponentStep = 2 ^ 52 from rfl] at hfraction ⊢
  omega

/-! ## Units -/

theorem unitsOfMagnitude_eq {exponent fraction : ℕ} (h : fraction < exponentStep) :
    unitsOfMagnitude (exponent * exponentStep + fraction) =
      if exponent = 0 then fraction else (exponentStep + fraction) * 2 ^ (exponent - 1) := by
  have hdiv : (exponent * exponentStep + fraction) / exponentStep = exponent := by
    rw [Nat.mul_comm, Nat.mul_add_div (by omega), Nat.div_eq_of_lt h, Nat.add_zero]
  have hmod : (exponent * exponentStep + fraction) % exponentStep = fraction := by
    rw [Nat.mul_comm, Nat.mul_add_mod, Nat.mod_eq_of_lt h]
  unfold unitsOfMagnitude
  rw [hdiv, hmod]
  rfl

/-- The next greater magnitude is more units: within an exponent the step is constant, and from an
exponent to the next one the leading bit moves up. -/
theorem unitsOfMagnitude_strictMono : StrictMono unitsOfMagnitude := by
  refine strictMono_nat_of_lt_succ fun m => ?_
  obtain ⟨e, f, hf, rfl⟩ : ∃ e f, f < exponentStep ∧ m = e * exponentStep + f :=
    ⟨m / exponentStep, m % exponentStep, Nat.mod_lt _ (by decide), by
      rw [Nat.mul_comm]; exact (Nat.div_add_mod m exponentStep).symm⟩
  rw [unitsOfMagnitude_eq hf]
  rcases Nat.lt_or_ge (f + 1) exponentStep with hlt | hge
  · rw [Nat.add_assoc, unitsOfMagnitude_eq hlt]
    split
    · exact Nat.lt_add_one f
    · exact Nat.mul_lt_mul_of_pos_right (Nat.lt_add_one _) (Nat.two_pow_pos _)
  · have hlast : f + 1 = exponentStep := by omega
    rw [Nat.add_assoc, hlast, ← Nat.add_one_mul, ← Nat.add_zero ((e + 1) * _),
      unitsOfMagnitude_eq (by omega)]
    cases e with
    | zero => simpa using hf
    | succ e =>
      simp only [Nat.add_one_ne_zero, if_false, Nat.add_sub_cancel, Nat.add_zero, Nat.pow_succ]
      rw [← Nat.mul_assoc, Nat.mul_right_comm, Nat.mul_two]
      exact Nat.mul_lt_mul_of_pos_right (by omega) (Nat.two_pow_pos _)

theorem unitsOfMagnitude_eq_zero {m : ℕ} : unitsOfMagnitude m = 0 ↔ m = 0 := by
  have hzero : unitsOfMagnitude 0 = 0 := rfl
  rw [← unitsOfMagnitude_strictMono.injective.eq_iff (a := m), hzero]

theorem units_eq_sign_mul (x : Binary64) :
    x.units = (-1) ^ x.signField * (unitsOfMagnitude x.magnitude : ℤ) := by
  rw [units, signField_eq]
  split <;> simp

theorem units_eq_zero : x.units = 0 ↔ x.magnitude = 0 := by
  rw [units_eq_sign_mul, mul_eq_zero, or_iff_right (pow_ne_zero _ (by decide)), Int.natCast_eq_zero,
    unitsOfMagnitude_eq_zero]

theorem unitsPerOne_eq : (unitsPerOne : ℚ) = 2 ^ (1074 : ℤ) := by
  -- the exponent is a variable here, so that nothing works out the power
  have hcast (m n : ℕ) (h : m = n) : ((Nat.pow 2 m : ℕ) : ℚ) = 2 ^ (n : ℤ) := by
    rw [h, zpow_natCast]
    exact Nat.cast_pow 2 n
  apply hcast
  rfl

/-- A finite word denotes its units, and a word that is not finite denotes nothing. -/
theorem number?_eq (x : Binary64) :
    x.number? = if x.isFinite then some ((x.units : ℚ) / unitsPerOne) else none := by
  rw [number?, units_eq_sign_mul, magnitude_eq, unitsOfMagnitude_eq x.fractionField_lt,
    unitsPerOne_eq]
  by_cases hlast : x.exponentField = 2047
  · rw [if_pos hlast, if_neg fun hfinite => isFinite_iff.mp hfinite hlast]
  rw [if_neg hlast, if_pos (isFinite_iff.mpr hlast)]
  by_cases hzero : x.exponentField = 0
  · rw [if_pos hzero, if_pos hzero, zpow_neg]
    generalize (2 : ℚ) ^ (1074 : ℤ) = one
    push_cast
    refine congrArg some ?_
    ring
  · have hpow : (2 : ℚ) ^ ((x.exponentField : ℤ) - 1075) =
        2 ^ (x.exponentField - 1) / 2 ^ (1074 : ℤ) := by
      rw [← zpow_natCast, ← zpow_sub₀ (by norm_num)]
      congr 1
      omega
    rw [if_neg hzero, if_neg hzero, hpow, show exponentStep = 2 ^ 52 from rfl]
    generalize (2 : ℚ) ^ (1074 : ℤ) = one
    push_cast
    refine congrArg some ?_
    ring

theorem unitsPerOne_pos : (0 : ℚ) < unitsPerOne := by
  rw [unitsPerOne_eq]
  exact zpow_pos (by norm_num) _

theorem number?_eq_some_iff :
    x.number? = some q ↔ x.isFinite = true ∧ (x.units : ℚ) / unitsPerOne = q := by
  rw [number?_eq]
  by_cases hfinite : x.isFinite = true
  · rw [if_pos hfinite]
    exact ⟨fun h => ⟨hfinite, Option.some.inj h⟩, fun h => congrArg some h.2⟩
  · rw [if_neg hfinite]
    exact ⟨nofun, fun h => absurd h.1 hfinite⟩

theorem isFinite_iff_number? : x.isFinite = true ↔ ∃ q, x.number? = some q := by
  simp only [number?_eq_some_iff, exists_and_left, exists_eq', and_true]

/-! ## Order and whole part -/

/-- The total order of the words is that of their units, and where those are equal a negative word
comes first. -/
theorem compare_eq_units (x y : Binary64) :
    x.compare y = (cmp x.units y.units).then (Ord.compare (!x.negative) (!y.negative)) := by
  have hmono : StrictMono fun m => (unitsOfMagnitude m : ℤ) :=
    Nat.strictMono_cast.comp unitsOfMagnitude_strictMono
  rw [compare, ← cmp_eq_compare]
  unfold orderKey units
  cases hx : x.negative <;> cases hy : y.negative
  case false.false =>
    exact ((Nat.strictMono_cast (α := ℤ)).cmp_map_eq _ _).trans
      ((hmono.cmp_map_eq _ _).symm.trans Ordering.then_eq.symm)
  case true.true =>
    have hkey : StrictAnti fun m : ℕ => -(m : ℤ) - 1 := fun m n h => by simp only; omega
    exact (hkey.cmp_map_eq _ _).trans
      ((hmono.neg.cmp_map_eq _ _).symm.trans Ordering.then_eq.symm)
  case true.false =>
    have hkey : cmp (-(x.magnitude : ℤ) - 1) y.magnitude = .lt := (cmp_eq_lt_iff _ _).mpr (by omega)
    have hunits : -(unitsOfMagnitude x.magnitude : ℤ) ≤ unitsOfMagnitude y.magnitude := by omega
    refine hkey.trans ?_
    rcases hunits.lt_or_eq with hlt | heq
    · exact (congrArg (Ordering.then · _) ((cmp_eq_lt_iff _ _).mpr hlt)).symm
    · exact (congrArg (Ordering.then · (Ord.compare false true)) ((cmp_eq_eq_iff _ _).mpr heq)).symm
  case false.true =>
    have hkey : cmp (x.magnitude : ℤ) (-(y.magnitude : ℤ) - 1) = .gt :=
      (cmp_eq_gt_iff _ _).mpr (by omega)
    have hunits : -(unitsOfMagnitude y.magnitude : ℤ) ≤ unitsOfMagnitude x.magnitude := by omega
    refine hkey.trans ?_
    rcases hunits.lt_or_eq with hlt | heq
    · exact (congrArg (Ordering.then · _) ((cmp_eq_gt_iff _ _).mpr hlt)).symm
    · have hcmp := (cmp_eq_eq_iff _ _).mpr heq.symm
      exact (congrArg (Ordering.then · (Ord.compare true false)) hcmp).symm

theorem cmp_units (hx : x.number? = some p) (hy : y.number? = some q) :
    cmp x.units y.units = cmp p q := by
  have hmono : StrictMono fun u : ℤ => (u : ℚ) / unitsPerOne := fun u v h =>
    div_lt_div_of_pos_right (Int.cast_lt.mpr h) unitsPerOne_pos
  rw [← (number?_eq_some_iff.mp hx).2, ← (number?_eq_some_iff.mp hy).2]
  exact (hmono.cmp_map_eq x.units y.units).symm

/-- Finite words are ordered as the numbers that they denote. Only where those are equal does the
sign decide, and a negative word comes first. -/
theorem compare_eq_of_number? (hx : x.number? = some p) (hy : y.number? = some q) :
    x.compare y = (cmp p q).then (Ord.compare (!x.negative) (!y.negative)) := by
  rw [compare_eq_units, cmp_units hx hy]

/-- The whole part of a word is the number that it denotes without its fraction. -/
theorem truncate_eq_of_number? (hx : x.number? = some q) : x.truncate = truncation q := by
  rw [← (number?_eq_some_iff.mp hx).2, truncation_div]
  rfl

end Binary64
end TransactSql
