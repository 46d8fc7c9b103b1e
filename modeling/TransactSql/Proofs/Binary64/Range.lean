/-
TransactSql.Proofs.Binary64.Range — which numbers are too large.

The greatest finite word denotes 2^1024 - 2^971. What lies above it is
still rounded down to it, up to half of the way to 2^1024, where no finite
word is any more. Half of the way is even nearer to the word that does not
exist, since of two equally near words the one with an even fraction is
taken. So a number `Overflows` from there on, in either direction.

Rounding a quotient meets exactly this limit (`roundUnits_lt_iff`), and so
do the four operations (`add?_eq_none_iff` and its siblings), which round
the exact result once.
-/
import TransactSql.Proofs.Binary64.Denotation
import TransactSql.Proofs.Binary64.Finite

namespace TransactSql.Binary64

variable {x y : Binary64} {p q : ℚ} {n d m : ℕ}

/-- The number is so large that it is nearer to 2^1024 than to any finite word, or as near. -/
def Overflows (q : ℚ) : Prop := 2 ^ 1024 - 2 ^ 970 ≤ |q|

theorem overflows_abs : Overflows |q| ↔ Overflows q := by
  rw [Overflows, Overflows, abs_abs]

/-! ## Rounding -/

theorem le_divideToEven (n d : ℕ) : n / d ≤ divideToEven n d := by
  unfold divideToEven
  dsimp only
  split
  · exact Nat.le_refl _
  · split <;> omega

/-- From half of the way on, a quotient is rounded up from an odd number. -/
theorem lt_divideToEven_iff {k : ℕ} (hk : k % 2 = 1) (hd : 0 < d) :
    k < divideToEven n d ↔ (2 * k + 1) * d ≤ 2 * n := by
  have hn : n = n / d * d + n % d := (Nat.div_add_mod' n d).symm
  have hmod : n % d < d := Nat.mod_lt n hd
  rcases Nat.lt_trichotomy (n / d) k with hlt | heq | hgt
  · have hrounded := divideToEven_le n d
    have hquotient : (n / d + 1) * d ≤ k * d := Nat.mul_le_mul_right d hlt
    refine ⟨fun h => absurd h (by omega), fun h => ?_⟩
    rw [Nat.add_one_mul] at hquotient h
    rw [Nat.mul_assoc] at h
    omega
  · have hhalf : (2 * k + 1) * d ≤ 2 * n ↔ d ≤ 2 * (n % d) := by
      rw [heq] at hn
      rw [Nat.add_one_mul, Nat.mul_assoc]
      omega
    rw [hhalf]
    unfold divideToEven
    dsimp only
    split
    · omega
    · split <;> omega
  · have hrounded := le_divideToEven n d
    have hquotient : (k + 1) * d ≤ n / d * d := Nat.mul_le_mul_right d hgt
    refine ⟨fun _ => ?_, fun _ => by omega⟩
    rw [Nat.add_one_mul] at hquotient ⊢
    rw [Nat.mul_assoc]
    omega

theorem two_pow_log2_le (h : 0 < n.log2) : 2 ^ n.log2 ≤ n :=
  Nat.log2_self_le fun hzero => by simp [hzero] at h

/-- What is rounded off leaves a leading digit and 52 others. -/
theorem le_divideToEven_excess (h : 52 < (n / d).log2) :
    2 ^ 52 ≤ divideToEven n (d * Nat.pow 2 ((n / d).log2 - 52)) := by
  refine Nat.le_trans ?_ (le_divideToEven _ _)
  rw [← Nat.div_div_eq_div_mul]
  refine (Nat.le_div_iff_mul_le (Nat.two_pow_pos ((n / d).log2 - 52))).mpr ?_
  calc 2 ^ 52 * 2 ^ ((n / d).log2 - 52) = 2 ^ (n / d).log2 := by
        rw [← Nat.pow_add, Nat.add_sub_cancel' (Nat.le_of_lt h)]
    _ ≤ n / d := two_pow_log2_le (by omega)

/-- A quotient comes up to the magnitude of `2 ^ 54 * 2 ^ j` units by rounding exactly if it is
short of them by no more than `2 ^ j` units, which is half of the last step. -/
theorem le_rounded_iff (hd : 0 < d) (j : ℕ) :
    let excess := (n / d).log2 - 52
    (j + 3) * exponentStep ≤ excess * exponentStep + divideToEven n (d * Nat.pow 2 excess) ↔
      (2 ^ 54 - 1) * 2 ^ j * d ≤ n := by
  intro excess
  have hstep : exponentStep = 2 ^ 52 := rfl
  have hrounded : divideToEven n (d * Nat.pow 2 excess) ≤ 2 ^ 53 := divideToEven_excess_le n d
  have hn : n / d * d ≤ n := Nat.div_mul_le_self n d
  have hpow : 0 < 2 ^ j * d := Nat.mul_pos (Nat.two_pow_pos j) hd
  rw [hstep, Nat.mul_assoc]
  rcases Nat.lt_trichotomy excess (j + 1) with hlt | heq | hgt
  · -- too few digits
    have hless : n < 2 ^ 53 * (2 ^ j * d) := by
      have hdigits : n / d < 2 ^ (53 + j) :=
        Nat.lt_of_lt_of_le Nat.lt_log2_self (Nat.pow_le_pow_right (by decide) (by omega))
      rw [← Nat.mul_assoc, ← Nat.pow_add]
      exact (Nat.div_lt_iff_lt_mul hd).mp hdigits
    omega
  · -- as many digits as there can be, so rounding up decides
    have hodd : (2 ^ 53 - 1) % 2 = 1 := by decide
    have hpos : 0 < d * Nat.pow 2 excess := Nat.mul_pos hd (Nat.two_pow_pos _)
    have hup := lt_divideToEven_iff (n := n) hodd hpos
    have hdouble : d * Nat.pow 2 excess = 2 * (2 ^ j * d) := by
      rw [heq, Nat.mul_comm]
      change 2 ^ (j + 1) * d = _
      rw [Nat.pow_succ, Nat.mul_comm _ 2, Nat.mul_assoc]
    rw [hdouble] at hup hrounded ⊢
    omega
  · -- too many digits
    have hleading : 2 ^ 52 ≤ divideToEven n (d * Nat.pow 2 excess) :=
      le_divideToEven_excess (by omega)
    have hgreat : 2 ^ 54 * (2 ^ j * d) ≤ n := by
      refine Nat.le_trans ?_ hn
      rw [← Nat.mul_assoc, ← Nat.pow_add]
      refine Nat.mul_le_mul_right d (Nat.le_trans ?_ (two_pow_log2_le (by omega)))
      exact Nat.pow_le_pow_right (by decide) (by omega)
    omega

/-- A quotient of units is rounded to a finite magnitude exactly if the number does not overflow. -/
theorem roundUnits_lt_iff (hd : 0 < d) :
    roundUnits n d < infinityMagnitude ↔ ¬Overflows ((n : ℚ) / d / unitsPerOne) := by
  have hlimit : infinityMagnitude ≤ roundUnits n d ↔ (2 ^ 54 - 1) * 2 ^ 2044 * d ≤ n := by
    rw [roundUnits, Nat.le_min]
    exact (and_iff_left (Nat.le_refl _)).trans (le_rounded_iff hd 2044)
  have hunits : ((2 : ℚ) ^ 1024 - 2 ^ 970) * 2 ^ (1074 : ℤ) = (2 ^ 54 - 1) * 2 ^ 2044 := by
    have hpow : (2 : ℚ) ^ 1024 = 2 ^ 54 * 2 ^ 970 := by rw [← pow_add]
    have hpow' : (2 : ℚ) ^ 2044 = 2 ^ 970 * 2 ^ (1074 : ℤ) := by
      rw [← zpow_natCast, ← zpow_natCast, ← zpow_add₀ (by decide)]
      rfl
    rw [hpow, hpow']
    generalize (2 : ℚ) ^ 970 = a
    generalize (2 : ℚ) ^ (1074 : ℤ) = b
    ring
  have hcast : (2 ^ 54 - 1) * 2 ^ 2044 * d ≤ n ↔ ((2 : ℚ) ^ 54 - 1) * 2 ^ 2044 * d ≤ n := by
    have hfactor : (2 : ℚ) ^ 54 - 1 = (2 ^ 54 - 1 : ℕ) := by norm_num
    rw [hfactor, ← Nat.cast_le (α := ℚ), Nat.cast_mul, Nat.cast_mul, Nat.cast_pow, Nat.cast_two]
  have hd' : (0 : ℚ) < d := Nat.cast_pos.mpr hd
  have hnonneg : 0 ≤ (n : ℚ) / d / unitsPerOne :=
    div_nonneg (div_nonneg n.cast_nonneg d.cast_nonneg) (le_of_lt unitsPerOne_pos)
  rw [← not_le, hlimit, Overflows, abs_of_nonneg hnonneg, le_div_iff₀ unitsPerOne_pos,
    unitsPerOne_eq, le_div_iff₀ hd', hunits, hcast]

theorem finite?_eq_none_iff : x.finite? = none ↔ ¬x.isFinite = true := by
  rw [finite?]
  split
  · next hfinite => exact iff_of_false nofun (not_not.mpr hfinite)
  · next hfinite => exact iff_of_true rfl hfinite

theorem finite?_roundUnits (negative : Bool) (hd : 0 < d) :
    (ofMagnitude negative (roundUnits n d)).finite? = none ↔
      Overflows ((n : ℚ) / d / unitsPerOne) := by
  have hle : roundUnits n d ≤ infinityMagnitude := Nat.min_le_right _ _
  rw [finite?_eq_none_iff, isFinite_ofMagnitude_iff negative hle, roundUnits_lt_iff hd, not_not]

/-! ## The four operations -/

theorem negative_ofMagnitude (negative : Bool) (h : m < signWeight) :
    (ofMagnitude negative m).negative = negative := by
  have hweight : signWeight = 2 ^ 63 := rfl
  unfold Binary64.negative ofMagnitude
  rw [UInt64.toNat_ofNat']
  simp only [hweight] at h ⊢
  cases negative <;> simp <;> omega

theorem units_negate (x : Binary64) : x.negate.units = -x.units := by
  rw [units, negate, negative_ofMagnitude _ x.magnitude_lt, magnitude_ofMagnitude _ x.magnitude_lt,
    units]
  cases x.negative <;> simp

theorem number?_negate (h : x.number? = some q) : x.negate.number? = some (-q) := by
  obtain ⟨hfinite, hunits⟩ := number?_eq_some_iff.mp h
  refine number?_eq_some_iff.mpr ⟨isFinite_negate hfinite, ?_⟩
  rw [units_negate, ← hunits, Int.cast_neg, neg_div]

theorem isZero_iff (h : x.number? = some q) : x.isZero = true ↔ q = 0 := by
  obtain ⟨-, hunits⟩ := number?_eq_some_iff.mp h
  rw [← hunits, div_eq_zero_iff, or_iff_left (ne_of_gt unitsPerOne_pos), Int.cast_eq_zero,
    units_eq_zero, isZero, beq_iff_eq]

theorem isNaN_of_number? (h : x.number? = some q) : x.isNaN = false := by
  have hfinite := (number?_eq_some_iff.mp h).1
  exact Bool.eq_false_iff.mpr fun hnan => isFinite_iff.mp hfinite (isNaN_iff.mp hnan).1

section Operations

variable (hx : x.number? = some p) (hy : y.number? = some q)

include hx in
theorem cast_natAbs_units : ((x.units.natAbs : ℕ) : ℚ) = |p| * unitsPerOne := by
  obtain ⟨-, rfl⟩ := number?_eq_some_iff.mp hx
  rw [Nat.cast_natAbs, Int.cast_abs, abs_div, abs_of_pos unitsPerOne_pos,
    div_mul_cancel₀ _ (ne_of_gt unitsPerOne_pos)]

include hx hy

theorem add?_eq_none_iff : x.add? y = none ↔ Overflows (p + q) := by
  obtain ⟨hxfinite, rfl⟩ := number?_eq_some_iff.mp hx
  obtain ⟨hyfinite, rfl⟩ := number?_eq_some_iff.mp hy
  rw [add?, hxfinite, hyfinite, Bool.and_self, if_pos rfl]
  dsimp only
  rw [finite?_roundUnits _ Nat.one_pos, ← overflows_abs (q := _ + _), Nat.cast_natAbs,
    Nat.cast_one, div_one, ← add_div, abs_div, abs_of_pos unitsPerOne_pos, Int.cast_abs,
    Int.cast_add]

theorem sub?_eq_none_iff : x.sub? y = none ↔ Overflows (p - q) := by
  rw [sub_eq_add_neg]
  exact add?_eq_none_iff hx (number?_negate hy)

theorem mul?_eq_none_iff : x.mul? y = none ↔ Overflows (p * q) := by
  have hone := ne_of_gt unitsPerOne_pos
  rw [mul?, (number?_eq_some_iff.mp hx).1, (number?_eq_some_iff.mp hy).1, Bool.and_self, if_pos rfl]
  dsimp only
  rw [finite?_roundUnits _ (Nat.cast_pos.mp unitsPerOne_pos), ← overflows_abs (q := p * q),
    Nat.cast_mul, cast_natAbs_units hx, cast_natAbs_units hy, abs_mul]
  refine iff_of_eq (congrArg Overflows ?_)
  field_simp

theorem div?_eq_none_iff (hq : q ≠ 0) : x.div? y = none ↔ Overflows (p / q) := by
  have hone := ne_of_gt unitsPerOne_pos
  have hzero : y.isZero = false := Bool.eq_false_iff.mpr fun h => hq ((isZero_iff hy).mp h)
  have hunits : 0 < y.units.natAbs := by
    refine Nat.pos_of_ne_zero fun h => hq ((isZero_iff hy).mp ?_)
    rw [isZero, beq_iff_eq, ← units_eq_zero, ← Int.natAbs_eq_zero, h]
  rw [div?, (number?_eq_some_iff.mp hx).1, isNaN_of_number? hy, hzero, Bool.not_false,
    Bool.and_self, Bool.and_self, if_pos rfl, if_pos (number?_eq_some_iff.mp hy).1]
  dsimp only
  rw [finite?_roundUnits _ hunits, ← overflows_abs (q := p / q),
    Nat.cast_mul, cast_natAbs_units hx, cast_natAbs_units hy, abs_div]
  refine iff_of_eq (congrArg Overflows ?_)
  field_simp

end Operations

end TransactSql.Binary64
