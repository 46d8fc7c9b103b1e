/-
TransactSql.Proofs.Value.Widening — bigints are computed with as ints are.

The operators on ints and those on bigints are written apart. Still an
operation that has a result on ints has the same result, as a bigint, if
its operands are made bigints first, one of them or both; and if it
divides by zero, it still does (`Widens`). The reason is that each of them
answers the exact result where its type has that integer: what an int can
be, a bigint can be too. An overflow is another matter, since a bigint may
have room for what overflows.
-/
import TransactSql.Proofs.Value.Integers
import TransactSql.Value.BuiltIn

namespace TransactSql

namespace DataType

variable {i : Int}

/-- No int is the least bigint. -/
theorem ne_least_of_int (h : int.Represents i) : i ≠ bigint.least := by
  have hlower : -2 ^ 31 ≤ i := h.1
  rintro rfl
  exact absurd hlower (by decide)

end DataType

namespace Value

/-! ## Results -/

/-- The result of the second operation is that of the first as a bigint, if the first has one; and
the second divides by zero if the first does. -/
structure Widens (narrow wide : Except Error Value) : Prop where
  ok : ∀ c, narrow = .ok c → ∃ c', c.convert .bigint = .ok c' ∧ wide = .ok c'
  byZero : narrow = .error .divideByZero → wide = .error .divideByZero

variable {v w a b left right : Value} {i : Int} {op : ArithmeticOperator}

theorem widens_of_convert (h : v.convert .bigint = .ok w) : Widens (.ok v) (.ok w) where
  ok _ hc := ⟨w, Except.ok.inj hc ▸ h, rfl⟩
  byZero := nofun

theorem widens_null : Widens (.ok (null .int)) (.ok (null .bigint)) := widens_of_convert rfl

theorem widens_overflow (wide : Except Error Value) :
    Widens (.error (.arithmeticOverflow .int)) wide where
  ok _ := nofun
  byZero := nofun

/-- An integer is the same one as a bigint. -/
theorem Denotes.convert_bigint (hv : v.Denotes i) (hw : w.Denotes i) (htype : w.type = .bigint) :
    v.convert .bigint = .ok w := by
  rw [hv.convert_eq (.inr rfl), ← htype, hw.ofExact_eq]

/-! ## Operands -/

/-- The first value is an int, and the second is the same integer, of either type; or both are NULL,
and of integer types. -/
inductive SameInteger : Value → Value → Prop
  | null {type : DataType} (htype : type = .int ∨ type = .bigint) :
    SameInteger (null .int) (null type)
  | int {n : Int32} {w : Value} (hw : w.Denotes n.toInt) : SameInteger (int n) w

theorem SameInteger.types (h : SameInteger v w) :
    v.type = .int ∧ (w.type = .int ∨ w.type = .bigint) := by
  cases h with
  | null htype => exact ⟨rfl, htype⟩
  | int hw =>
    obtain ⟨s, -, hs⟩ := hw
    exact ⟨rfl, hs.isInteger⟩

/-- An int is an integer, and it is the same one as a bigint. -/
theorem exists_bigint (hv : v.isWellFormed = true) (htype : v.type = .int) :
    ∃ w, v.convert .bigint = .ok w ∧ w.type = .bigint ∧ SameInteger v v ∧ SameInteger v w := by
  rcases eq_null_or_denotes hv (by rw [htype]; rfl) with hnull | ⟨i, hi⟩
  · rw [hnull, htype]
    exact ⟨null .bigint, rfl, rfl, .null (.inl rfl), .null (.inr rfl)⟩
  · rcases hi.cases with ⟨n, rfl, -⟩ | ⟨n, rfl, -⟩
    · exact ⟨_, rfl, rfl, .int (denotes_int n), .int (denotes_toInt64 n)⟩
    · cases htype

/-! ## Operators -/

theorem apply_of_null (hleft : left.type = .int ∨ left.type = .bigint)
    (hright : right.type = .int ∨ right.type = .bigint)
    (h : left.scalar = none ∨ right.scalar = none) :
    apply op left right = .ok (null (DataType.commonInteger left.type right.type)) := by
  rw [apply, applyWith, DataType.common?_of_integers hleft hright]
  rcases h with h | h
  · simp only [h]
  · cases hscalar : left.scalar <;> simp only [h]

theorem widens_apply_denotes {m n : Int32} (hleft : left.Denotes m.toInt)
    (hright : right.Denotes n.toInt)
    (hwide : DataType.commonInteger left.type right.type = .bigint) :
    Widens (apply op (int m) (int n)) (apply op left right) := by
  obtain ⟨l, r, hl, hr, hnarrow⟩ := (denotes_int m).apply_eq (denotes_int n) op
  obtain ⟨l', r', hl', hr', hwider⟩ := hleft.apply_eq hright op
  rw [hwide] at hl' hr' hwider
  rw [hnarrow, hwider]
  rcases hl.apply_cases hr op with ⟨hzero, happly⟩ | ⟨-, -, happly⟩ |
    ⟨hzero, hfits, -, s, happly, hs⟩
  · rcases hl'.apply_cases hr' op with ⟨-, happly'⟩ | ⟨hnot, -⟩ | ⟨hnot, -⟩
    · rw [happly, happly']
      exact ⟨nofun, fun _ => rfl⟩
    · exact absurd hzero hnot
    · exact absurd hzero hnot
  · rw [happly]
    exact widens_overflow _
  · rcases hl'.apply_cases hr' op with ⟨hzero', -⟩ | ⟨-, hoverflow, -⟩ | ⟨-, -, -, s', happly', hs'⟩
    · exact absurd hzero' hzero
    · -- what is exact and an int is a bigint, and no int is the least bigint, whose remainders fail
      rcases hoverflow with hfits' | ⟨-, hleast, -⟩
      · exact absurd (DataType.represents_bigint (.inl rfl) hfits) hfits'
      · exact absurd hleast (DataType.ne_least_of_int (Numeral.fits_iff.mp hl.fits))
    · rw [happly, happly']
      exact widens_of_convert (Denotes.convert_bigint ⟨s, rfl, hs⟩ ⟨s', rfl, hs'⟩ rfl)

/-- An operator on two ints has the same result if one of them or both are bigints. -/
theorem widens_apply (hleft : SameInteger a left) (hright : SameInteger b right)
    (hwide : DataType.commonInteger left.type right.type = .bigint) (op : ArithmeticOperator) :
    Widens (apply op a b) (apply op left right) := by
  have hnull (h : a.scalar = none ∨ b.scalar = none)
      (h' : left.scalar = none ∨ right.scalar = none) :
      Widens (apply op a b) (apply op left right) := by
    rw [apply_of_null (.inl hleft.types.1) (.inl hright.types.1) h,
      apply_of_null hleft.types.2 hright.types.2 h', hwide, hleft.types.1, hright.types.1]
    exact widens_null
  cases hleft with
  | null htype => exact hnull (.inl rfl) (.inl rfl)
  | int hm =>
    cases hright with
    | null htype => exact hnull (.inr rfl) (.inr rfl)
    | int hn => exact widens_apply_denotes hm hn hwide

/-! ## Sign and absolute value -/

theorem widens_ofExact (i : Int) : Widens (ofExact .int i) (ofExact .bigint i) := by
  rcases ofExact_cases (.inl rfl) i with ⟨hfits, w, hw, -, hdenotes⟩ | ⟨-, hoverflow⟩
  · rcases ofExact_cases (.inr rfl) i with ⟨-, w', hw', htype, hdenotes'⟩ | ⟨hnot, -⟩
    · rw [hw, hw']
      exact widens_of_convert (hdenotes.convert_bigint hdenotes' htype)
    · exact absurd (DataType.represents_bigint (.inl rfl) hfits) hnot
  · rw [hoverflow]
    exact widens_overflow _

theorem Denotes.abs_eq (h : v.Denotes i) : v.abs = ofExact v.type i.natAbs := by
  rcases h.cases with ⟨n, rfl, rfl⟩ | ⟨n, rfl, rfl⟩
  · have habs : (int n).abs =
        (Scalar.orOverflow .int (Scalar.ofInt32? n.toInt.natAbs)).bind fun s => .ok (ofScalar s) :=
      rfl
    rw [habs, Scalar.ofInt32?]
    cases hresult : Numeral.int32? n.toInt.natAbs <;>
      simp only [ofExact, Scalar.ofInteger?, Scalar.ofInt32?, hresult, int] <;> rfl
  · have habs : (bigint n).abs =
        (Scalar.orOverflow .bigint (Scalar.ofInt64? n.toInt.natAbs)).bind fun s =>
          .ok (ofScalar s) := rfl
    rw [habs, Scalar.ofInt64?]
    cases hresult : Numeral.int64? n.toInt.natAbs <;>
      simp only [ofExact, Scalar.ofInteger?, Scalar.ofInt64?, hresult, bigint] <;> rfl

theorem SameInteger.widens_negate (h : SameInteger v w) (htype : w.type = .bigint) :
    Widens v.negate w.negate := by
  cases h with
  | null => cases htype; exact widens_null
  | int hw =>
    rw [(denotes_int _).negate_eq, hw.negate_eq, htype]
    exact widens_ofExact _

theorem SameInteger.widens_abs (h : SameInteger v w) (htype : w.type = .bigint) :
    Widens v.abs w.abs := by
  cases h with
  | null => cases htype; exact widens_null
  | int hw =>
    rw [(denotes_int _).abs_eq, hw.abs_eq, htype]
    exact widens_ofExact _

/-- Widening commutes with arithmetic. An operator on two ints that has a result has the same one,
as a bigint, if both operands are made bigints, or only one of them, and if it divides by zero, it
does so then too. Changing the sign and taking the absolute value have the same result as well. -/
theorem widening_commutes (ha : a.isWellFormed = true) (hb : b.isWellFormed = true)
    (hatype : a.type = .int) (hbtype : b.type = .int) :
    ∃ a' b', a.convert .bigint = .ok a' ∧ b.convert .bigint = .ok b' ∧
      (∀ op, Widens (apply op a b) (apply op a' b') ∧ Widens (apply op a b) (apply op a b') ∧
        Widens (apply op a b) (apply op a' b)) ∧
      Widens a.negate a'.negate ∧
      Widens (BuiltIn.abs.evaluate [a]) (BuiltIn.abs.evaluate [a']) := by
  obtain ⟨a', hconvert, htype, hself, hwide⟩ := exists_bigint ha hatype
  obtain ⟨b', hconvert', htype', hself', hwide'⟩ := exists_bigint hb hbtype
  refine ⟨a', b', hconvert, hconvert', fun op => ⟨?_, ?_, ?_⟩, ?_, ?_⟩
  · exact widens_apply hwide hwide' (if_pos (.inl htype)) op
  · exact widens_apply hself hwide' (if_pos (.inr htype')) op
  · exact widens_apply hwide hself' (if_pos (.inl htype)) op
  · exact hwide.widens_negate htype
  · exact hwide.widens_abs htype

/-- The bits of the least int and of -1, joined as bigints: the ones in front of both are there, and
they cancel out. -/
theorem widening_commutes_of_least :
    (int (-2147483648)).isWellFormed = true ∧ (int (-2147483648)).type = .int ∧
      (int (-1)).isWellFormed = true ∧ (int (-1)).type = .int ∧
      apply .bitXor (int (-2147483648)) (int (-1)) = .ok (int 2147483647) ∧
      ∃ c', (int 2147483647).convert .bigint = .ok c' ∧
        apply .bitXor (int (-2147483648)) (bigint (-1)) = .ok c' := by
  have hnarrow : apply .bitXor (int (-2147483648)) (int (-1)) = .ok (int 2147483647) := by rfl
  obtain ⟨a', b', -, hb', hop, -⟩ :=
    widening_commutes (a := int (-2147483648)) (b := int (-1)) rfl rfl rfl rfl
  obtain rfl : bigint (-1) = b' := Except.ok.inj hb'
  exact ⟨rfl, rfl, rfl, rfl, hnarrow, (hop .bitXor).2.1.ok _ hnarrow⟩

end Value
end TransactSql
