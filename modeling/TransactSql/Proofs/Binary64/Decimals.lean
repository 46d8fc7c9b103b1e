/-
TransactSql.Proofs.Binary64.Decimals — decimal numbers that are too large.

A decimal number is digits and an exponent of ten, and denotes a rational
number (`Decimal.value`). Its first digit other than zero says how large
it is, up to a factor of ten, and far beyond the finite words nothing but
that is looked at. Nearer to them the power of ten is computed and the
quotient is rounded. Both agree on what is too large
(`Decimal.magnitude_lt_iff`).

A text is a decimal if it is made of digits, a fraction and an exponent
(`Decimal.isSome_read?`), and then it is none of the words for what is not
finite. So it is read as a finite word exactly if the number that it
denotes does not overflow (`isFinite_of_denotes?`).
-/
import TransactSql.Binary64.Reading
import TransactSql.Proofs.Binary64.Range
import TransactSql.Proofs.Value.IntegerTexts

namespace TransactSql

/-! ## Digits -/

namespace Numeral

variable {digits : List Char}

theorem natValue_append (digits more : List Char) :
    natValue (digits ++ more) = natValue digits * 10 ^ more.length + natValue more := by
  induction more using List.reverseRecOn with
  | nil => simp [natValue]
  | append_singleton more c ih =>
    rw [← List.append_assoc, natValue_append_digit, natValue_append_digit, ih, List.length_append,
      List.length_singleton, Nat.pow_succ]
    ring

theorem natValue_cons (c : Char) (digits : List Char) :
    natValue (c :: digits) = digitValue c * 10 ^ digits.length + natValue digits := by
  have hdigit : natValue [c] = digitValue c := by simp [natValue]
  rw [← List.singleton_append, natValue_append, hdigit]

theorem natValue_lt (h : ∀ c ∈ digits, c.isDigit = true) :
    natValue digits < 10 ^ digits.length := by
  induction digits with
  | nil => simp [natValue]
  | cons c digits ih =>
    obtain ⟨hc, hdigits⟩ := List.forall_mem_cons.mp h
    obtain ⟨d, hd, rfl⟩ := exists_digitChar hc
    have hrest := ih hdigits
    have hfirst : d * 10 ^ digits.length ≤ 9 * 10 ^ digits.length :=
      Nat.mul_le_mul_right _ (Nat.le_of_lt_succ hd)
    rw [natValue_cons, digitValue_digitChar hd, List.length_cons, Nat.pow_succ]
    omega

/-- A zero at the start writes nothing. -/
theorem natValue_dropWhile (digits : List Char) :
    natValue (digits.dropWhile (· == '0')) = natValue digits := by
  induction digits with
  | nil => rfl
  | cons c digits ih =>
    rw [List.dropWhile_cons]
    split
    · next hzero =>
      rw [ih, natValue_cons, eq_of_beq hzero, show digitValue '0' = 0 from rfl, Nat.zero_mul,
        Nat.zero_add]
    · rfl

/-- A digit other than zero at the start tells how long the number is at least. -/
theorem le_natValue {c : Char} (hc : c.isDigit = true) (hzero : c ≠ '0') (digits : List Char) :
    10 ^ digits.length ≤ natValue (c :: digits) := by
  obtain ⟨d, hd, rfl⟩ := exists_digitChar hc
  have hpos : 1 ≤ d := Nat.one_le_iff_ne_zero.mpr fun h => hzero (by rw [h]; rfl)
  have hfirst := Nat.mul_le_mul_right (10 ^ digits.length) hpos
  rw [natValue_cons, digitValue_digitChar hd]
  omega

end Numeral

/-! ## Decimal numbers -/

namespace Binary64

namespace Decimal

variable {d : Decimal}

/-- The number in decimal notation. -/
def value (d : Decimal) : ℚ := Numeral.natValue d.digits * 10 ^ d.exponent

theorem value_eq (d : Decimal) : d.value = Numeral.natValue d.significant * 10 ^ d.exponent := by
  rw [value, significant, Numeral.natValue_dropWhile]

theorem value_nonneg (d : Decimal) : 0 ≤ d.value :=
  mul_nonneg (Nat.cast_nonneg _) (zpow_nonneg (by norm_num) _)

theorem scale_eq (d : Decimal) :
    (10 : ℚ) ^ d.scale = 10 ^ d.significant.length * 10 ^ d.exponent := by
  rw [scale, zpow_add₀ (by norm_num), zpow_natCast]

theorem isDigit_significant (h : ∀ c ∈ d.digits, c.isDigit = true) :
    ∀ c ∈ d.significant, c.isDigit = true :=
  fun c hc => h c ((List.dropWhile_suffix _).subset hc)

theorem value_lt (h : ∀ c ∈ d.digits, c.isDigit = true) : d.value < 10 ^ d.scale := by
  rw [value_eq, scale_eq]
  refine mul_lt_mul_of_pos_right ?_ (zpow_pos (by norm_num) _)
  exact_mod_cast Numeral.natValue_lt (isDigit_significant h)

theorem le_value (h : ∀ c ∈ d.digits, c.isDigit = true) (hnonempty : d.significant ≠ []) :
    (10 : ℚ) ^ (d.scale - 1) ≤ d.value := by
  obtain ⟨c, rest, hsignificant⟩ := List.exists_cons_of_ne_nil hnonempty
  have hc : c.isDigit = true := isDigit_significant h c (hsignificant ▸ List.mem_cons_self)
  have hzero : c ≠ '0' := by
    have hhead := List.head?_dropWhile_not (· == '0') d.digits
    rw [significant] at hsignificant
    rw [hsignificant] at hhead
    simpa using hhead
  have hdigits := Numeral.le_natValue hc hzero rest
  have hscale : d.scale - 1 = rest.length + d.exponent := by
    rw [scale, hsignificant, List.length_cons]
    omega
  rw [value_eq, hscale, zpow_add₀ (by norm_num), zpow_natCast, hsignificant]
  refine mul_le_mul_of_nonneg_right ?_ (zpow_nonneg (by norm_num) _)
  exact_mod_cast hdigits

theorem not_overflows_of_le_one {q : ℚ} (h : |q| ≤ 1) : ¬Overflows q := by
  have hpow : (2 : ℚ) ^ 1024 = 2 ^ 54 * 2 ^ 970 := by rw [← pow_add]
  have hone : (1 : ℚ) ≤ 2 ^ 970 := one_le_pow₀ (by norm_num)
  rw [Overflows, not_le, hpow]
  generalize (2 : ℚ) ^ 970 = a at hone
  linarith

theorem overflows_of_le {q : ℚ} (h : 10 ^ 309 ≤ |q|) : Overflows q := by
  have hten : (2 : ℚ) ^ 1024 ≤ 10 ^ 309 := by
    have hnat : 2 ^ 1024 ≤ 10 ^ 309 := by decide +kernel
    exact_mod_cast hnat
  have hpos : (0 : ℚ) ≤ 2 ^ 970 := pow_nonneg (by norm_num) _
  exact le_trans (sub_le_self _ hpos) (le_trans hten h)

theorem magnitude_le (d : Decimal) : d.magnitude ≤ infinityMagnitude := by
  unfold magnitude
  dsimp only
  split
  · exact Nat.zero_le _
  · split
    · exact Nat.le_refl _
    · split
      · exact Nat.min_le_right _ _
      · exact Nat.min_le_right _ _

/-- A decimal number has a finite magnitude exactly if it does not overflow. -/
theorem magnitude_lt_iff (h : ∀ c ∈ d.digits, c.isDigit = true) :
    d.magnitude < infinityMagnitude ↔ ¬Overflows d.value := by
  have habs : |d.value| = d.value := abs_of_nonneg d.value_nonneg
  have hone : (unitsPerOne : ℚ) ≠ 0 := ne_of_gt unitsPerOne_pos
  have hten (e : ℕ) : ((Nat.pow 10 e : ℕ) : ℚ) = 10 ^ e := Nat.cast_pow 10 e
  unfold magnitude
  dsimp only
  split
  · next hsmall =>
    refine iff_of_true (by decide) (not_overflows_of_le_one ?_)
    rw [habs]
    rcases Bool.or_eq_true_iff.mp hsmall with hempty | hscale
    · rw [value_eq, List.isEmpty_iff.mp hempty]
      simp [Numeral.natValue]
    · have hscale : d.scale ≤ 0 := by
        have hscale := of_decide_eq_true hscale
        omega
      exact le_trans (le_of_lt (value_lt h)) (zpow_le_one_of_nonpos₀ (by norm_num) hscale)
  · next hsmall =>
    have hnonempty : d.significant ≠ [] := fun hempty => hsmall (by simp [hempty])
    split
    · next hlarge =>
      refine iff_of_false (Nat.lt_irrefl _) (not_not.mpr (overflows_of_le ?_))
      rw [habs, ← zpow_natCast]
      exact le_trans (zpow_le_zpow_right₀ (by norm_num) (by omega)) (le_value h hnonempty)
    · split
      · next hexponent =>
        obtain ⟨e, he⟩ := Int.eq_ofNat_of_zero_le hexponent
        rw [roundUnits_lt_iff Nat.one_pos, value_eq, he, Int.toNat_natCast, Nat.cast_mul,
          Nat.cast_mul, hten, Nat.cast_one, div_one, mul_div_cancel_right₀ _ hone, zpow_natCast]
      · next hexponent =>
        obtain ⟨e, he⟩ := Int.eq_ofNat_of_zero_le (a := -d.exponent) (by omega)
        have hpos : 0 < Nat.pow 10 e := Nat.pow_pos (by decide)
        rw [value_eq, ← neg_neg d.exponent, he, neg_neg, Int.toNat_natCast, roundUnits_lt_iff hpos,
          Nat.cast_mul, hten, div_right_comm, mul_div_cancel_right₀ _ hone, zpow_neg, zpow_natCast,
          div_eq_mul_inv]

/-! ## Texts -/

variable {text digits fraction exponent : List Char}

/-- A decimal point with digits behind it, or nothing. -/
def IsFraction (text : List Char) : Prop :=
  text = [] ∨ ∃ digits, text = '.' :: digits ∧ ∀ c ∈ digits, c.isDigit = true

/-- A mark with an integer behind it, or nothing. -/
def IsExponent (text : List Char) : Prop := (readExponent? text).isSome = true

theorem head_of_isExponent (h : IsExponent text) :
    ∀ c ∈ text.head?, c.isDigit = false ∧ c ≠ '.' := by
  cases text with
  | nil => exact nofun
  | cons c rest =>
    rintro _ ⟨⟩
    simp only [IsExponent, readExponent?] at h
    split at h
    · next hmark =>
      rcases Bool.or_eq_true_iff.mp hmark with hmark | hmark <;> rw [eq_of_beq hmark] <;> decide
    · cases h

theorem isDigit_takeWhile (text : List Char) :
    ∀ c ∈ text.takeWhile Char.isDigit, c.isDigit = true :=
  List.all_eq_true.mp List.all_takeWhile

theorem takeWhile_append_of_head {run rest : List Char} (hrun : ∀ c ∈ run, c.isDigit = true)
    (hrest : ∀ c ∈ rest.head?, c.isDigit = false) :
    (run ++ rest).takeWhile Char.isDigit = run ∧ (run ++ rest).dropWhile Char.isDigit = rest := by
  have hnone : rest.takeWhile Char.isDigit = [] ∧ rest.dropWhile Char.isDigit = rest := by
    cases rest with
    | nil => exact ⟨rfl, rfl⟩
    | cons c rest => simp [hrest c rfl]
  rw [List.takeWhile_append_of_pos hrun, List.dropWhile_append_of_pos hrun, hnone.1, hnone.2,
    List.append_nil]
  exact ⟨rfl, rfl⟩

/-- Digits, a fraction and an exponent make a decimal. -/
theorem isSome_read? (hnonempty : digits ≠ []) (hdigits : ∀ c ∈ digits, c.isDigit = true)
    (hfraction : IsFraction fraction) (hexponent : IsExponent exponent) :
    (read? (digits ++ (fraction ++ exponent))).isSome = true := by
  have hhead := head_of_isExponent hexponent
  unfold IsExponent at hexponent
  rcases hfraction with rfl | ⟨more, rfl, hmore⟩
  · obtain ⟨htake, hdrop⟩ := takeWhile_append_of_head hdigits fun c hc => (hhead c hc).1
    rw [List.nil_append, read?, htake, hdrop]
    split
    · exact absurd rfl (hhead '.' rfl).2
    · simp [hnonempty, hexponent]
  · have hends : ∀ c ∈ ('.' :: more ++ exponent).head?, c.isDigit = false := by
      rintro _ ⟨⟩
      rfl
    obtain ⟨htake, hdrop⟩ := takeWhile_append_of_head hdigits hends
    obtain ⟨htake', hdrop'⟩ := takeWhile_append_of_head hmore fun c hc => (hhead c hc).1
    rw [read?, htake, hdrop]
    simp [htake', hdrop', hnonempty, hexponent]

theorem isDigit_of_read? (h : read? text = some d) : ∀ c ∈ d.digits, c.isDigit = true := by
  unfold read? at h
  dsimp only at h
  split at h <;> split at h
  · cases h
  · obtain ⟨exponent, -, rfl⟩ := Option.map_eq_some_iff.mp h
    exact List.forall_mem_append.mpr ⟨isDigit_takeWhile _, isDigit_takeWhile _⟩
  · cases h
  · obtain ⟨exponent, -, rfl⟩ := Option.map_eq_some_iff.mp h
    exact List.forall_mem_append.mpr ⟨isDigit_takeWhile _, List.forall_mem_nil _⟩

theorem starts_of_read? {c : Char} (h : read? (c :: text) = some d) :
    c.isDigit = true ∨ c = '.' := by
  by_contra hother
  obtain ⟨hdigit, hpoint⟩ := not_or.mp hother
  simp [read?, hdigit, hpoint] at h

/-- A decimal number is none of the words for what is not finite. -/
theorem readMagnitude?_of_read? (h : read? text = some d) :
    readMagnitude? text = some d.magnitude := by
  have hdigits : ∀ k < 10, (Numeral.digitChar k).toLower ≠ 'i' ∧
      (Numeral.digitChar k).toLower ≠ 'n' := by decide
  have hstart {c : Char} {rest : List Char} (hword : text.map Char.toLower = c :: rest) :
      c ≠ 'i' ∧ c ≠ 'n' := by
    obtain ⟨first, more, rfl, rfl, -⟩ := List.map_eq_cons_iff.mp hword
    rcases starts_of_read? h with hdigit | rfl
    · obtain ⟨k, hk, rfl⟩ := Numeral.exists_digitChar hdigit
      exact hdigits k hk
    · decide
  unfold readMagnitude?
  dsimp only
  rw [if_neg, if_neg, h, Option.map_some]
  · exact fun hword => (hstart hword).2 rfl
  · intro hword
    rcases Bool.or_eq_true_iff.mp hword with hword | hword
    · exact (hstart (of_decide_eq_true hword)).1 rfl
    · exact (hstart (of_decide_eq_true hword)).1 rfl

end Decimal

/-- The number that a decimal text denotes, which may have a sign. -/
def denotes? : List Char → Option ℚ
  | '-' :: text => (Decimal.read? text).map fun d => -d.value
  | '+' :: text => (Decimal.read? text).map Decimal.value
  | text => (Decimal.read? text).map Decimal.value

/-- A decimal text is read as a finite word exactly if its number does not overflow. -/
theorem isFinite_of_denotes? {text : List Char} {q : ℚ} (h : denotes? text = some q) :
    ∃ x, read? text = some x ∧ (x.isFinite = true ↔ ¬Overflows q) := by
  have hread (negative : Bool) {unsigned : List Char} {d : Decimal}
      (hd : Decimal.read? unsigned = some d) :
      ∃ x, (readMagnitude? unsigned).map (ofMagnitude negative) = some x ∧
        (x.isFinite = true ↔ ¬Overflows d.value) := by
    refine ⟨_, by rw [Decimal.readMagnitude?_of_read? hd, Option.map_some], ?_⟩
    rw [isFinite_ofMagnitude_iff negative d.magnitude_le,
      Decimal.magnitude_lt_iff (Decimal.isDigit_of_read? hd)]
  unfold denotes? at h
  split at h
  · next unsigned =>
    obtain ⟨d, hd, rfl⟩ := Option.map_eq_some_iff.mp h
    rw [← overflows_abs, abs_neg, overflows_abs]
    exact hread true hd
  · next unsigned =>
    obtain ⟨d, hd, rfl⟩ := Option.map_eq_some_iff.mp h
    exact hread false hd
  · next hminus hplus =>
    obtain ⟨d, hd, rfl⟩ := Option.map_eq_some_iff.mp h
    obtain ⟨x, hx, hfinite⟩ := hread false hd
    refine ⟨x, ?_, hfinite⟩
    unfold read?
    split
    · exact absurd rfl (hminus _)
    · exact absurd rfl (hplus _)
    · exact hx

end Binary64
end TransactSql
