/-
TransactSql.Proofs.Value.Integers — operators on integers are exact.

An operator on two integers has an exact result, `ArithmeticOperator.exact`,
which knows no words and no limits. Where the common type of the operands
has that integer, the operator answers it, and where it has not, it
reports an overflow (`apply_integers`). There is one exception: the
remainder of a division is refused with its quotient, which has no place
in the type if its least integer is divided by -1 (`apply_modulo_least`).

A conversion between the two types and a change of the sign are exact in
the same way (`Denotes.convert_eq`, `Denotes.negate_eq`).

The operators on bits work on words. Negative integers have infinitely
many ones in front of their bits, of which a word keeps as many as fit;
`toInt_eq_bitwise` says that none is missed.
-/
import Mathlib.Data.Int.Bitwise
import TransactSql.Value.Basic

namespace TransactSql

/-- The result of an operator on integers of any size. The quotient is cut off towards zero, the
remainder has the sign of the dividend, and bits are those of the two's complement. -/
def ArithmeticOperator.exact (op : ArithmeticOperator) (a b : Int) : Int :=
  match op with
  | .add => a + b
  | .subtract => a - b
  | .multiply => a * b
  | .divide => a.tdiv b
  | .modulo => a.tmod b
  | .bitAnd => a.land b
  | .bitOr => a.lor b
  | .bitXor => a.xor b

namespace DataType

/-- The number of bits of an integer of this type. -/
def bits : DataType → Nat
  | int => 32
  | _ => 64

theorem bits_pos (type : DataType) : 0 < type.bits := by
  cases type <;> decide

/-- The least integer of this type. -/
def least (type : DataType) : Int := -2 ^ (type.bits - 1)

/-- The integer is one of this type. -/
def Represents (type : DataType) (i : Int) : Prop :=
  -2 ^ (type.bits - 1) ≤ i ∧ i < 2 ^ (type.bits - 1)

instance (type : DataType) (i : Int) : Decidable (type.Represents i) :=
  inferInstanceAs (Decidable (_ ∧ _))

theorem represents_bigint {type : DataType} {i : Int} (htype : type = int ∨ type = bigint)
    (h : type.Represents i) : bigint.Represents i := by
  rcases htype with rfl | rfl
  · obtain ⟨hlower, hupper⟩ : -2 ^ 31 ≤ i ∧ i < 2 ^ 31 := h
    exact show -2 ^ 63 ≤ i ∧ i < 2 ^ 63 by omega
  · exact h

/-- The type that two integers are joined in. -/
def commonInteger (left right : DataType) : DataType :=
  if left = bigint ∨ right = bigint then bigint else int

end DataType

/-! ## Words -/

namespace Numeral

variable {width : Nat} {a b i : Int}

theorem fits_iff : fits width i = true ↔ -2 ^ (width - 1) ≤ i ∧ i < 2 ^ (width - 1) := by
  have hbound : ((Nat.pow 2 (width - 1) : Nat) : Int) = 2 ^ (width - 1) := Int.natCast_pow 2 _
  simp only [fits, hbound, Bool.and_eq_true, decide_eq_true_eq]
  exact And.comm

theorem fits_ofNat {n : Nat} : fits width (Int.ofNat n) = true ↔ n < 2 ^ (width - 1) := by
  have hbound : ((2 ^ (width - 1) : Nat) : Int) = 2 ^ (width - 1) := Int.natCast_pow 2 _
  rw [fits_iff, ← hbound, Int.ofNat_eq_natCast]
  omega

theorem fits_negSucc {n : Nat} : fits width (Int.negSucc n) = true ↔ n < 2 ^ (width - 1) := by
  have hbound : ((2 ^ (width - 1) : Nat) : Int) = 2 ^ (width - 1) := Int.natCast_pow 2 _
  rw [fits_iff, ← hbound]
  omega

/-- Joining the bits of two integers that fit gives one that does. -/
theorem fits_bitwise (f : Bool → Bool → Bool) (ha : fits width a = true)
    (hb : fits width b = true) : fits width (Int.bitwise f a b) = true := by
  have hnat : ∀ (g : Bool → Bool → Bool) {m n : Nat}, m < 2 ^ (width - 1) → n < 2 ^ (width - 1) →
      fits width (Int.natBitwise g m n) = true := by
    intro g m n hm hn
    unfold Int.natBitwise
    cases g false false with
    | true => exact fits_negSucc.mpr (Nat.bitwise_lt_two_pow hm hn)
    | false => exact fits_ofNat.mpr (Nat.bitwise_lt_two_pow hm hn)
  cases a with
  | ofNat m =>
    cases b with
    | ofNat n => exact hnat _ (fits_ofNat.mp ha) (fits_ofNat.mp hb)
    | negSucc n => exact hnat (fun x y => f x !y) (fits_ofNat.mp ha) (fits_negSucc.mp hb)
  | negSucc m =>
    cases b with
    | ofNat n => exact hnat (fun x y => f (!x) y) (fits_negSucc.mp ha) (fits_ofNat.mp hb)
    | negSucc n => exact hnat (fun x y => f (!x) !y) (fits_negSucc.mp ha) (fits_negSucc.mp hb)

theorem getLsbD_ofInt (i : Int) {k : Nat} (hk : k < width) :
    (BitVec.ofInt width i).getLsbD k = i.testBit k := by
  cases i with
  | ofNat n =>
    change (BitVec.ofNat width n).getLsbD k = n.testBit k
    simp only [BitVec.getLsbD_ofNat, hk, decide_true, Bool.true_and]
  | negSucc n =>
    rw [BitVec.ofInt_negSucc_eq_not_ofNat]
    simp only [BitVec.getLsbD_not, BitVec.getLsbD_ofNat, hk, decide_true, Bool.true_and,
      Int.testBit]

/-- A word whose bits are joined from those of two integers that fit holds the integer that is
joined from all their bits. -/
theorem toInt_eq_bitwise {f : Bool → Bool → Bool} {word : BitVec width} (hwidth : 0 < width)
    (ha : fits width a = true) (hb : fits width b = true)
    (hword : ∀ k, word.getLsbD k =
      f ((BitVec.ofInt width a).getLsbD k) ((BitVec.ofInt width b).getLsbD k)) :
    word.toInt = Int.bitwise f a b := by
  have hsame : word = BitVec.ofInt width (Int.bitwise f a b) := by
    refine BitVec.eq_of_getLsbD_eq fun k hk => ?_
    rw [hword, getLsbD_ofInt a hk, getLsbD_ofInt b hk, getLsbD_ofInt _ hk, Int.testBit_bitwise]
  obtain ⟨hlower, hupper⟩ := fits_iff.mp (fits_bitwise f ha hb)
  rw [hsame, BitVec.toInt_ofInt_eq_self hwidth hlower hupper]

/-- The quotient of two integers that fit does too, unless the least one is divided by -1. -/
theorem fits_tdiv_iff (ha : fits width a = true) (hzero : b ≠ 0) :
    fits width (a.tdiv b) = true ↔ ¬(a = -2 ^ (width - 1) ∧ b = -1) := by
  have hpos : (0 : Int) < 2 ^ (width - 1) := Int.pow_pos (by decide)
  rw [fits_iff] at ha ⊢
  generalize (2 : Int) ^ (width - 1) = bound at ha hpos ⊢
  by_cases hminus : b = -1
  · rw [hminus, Int.tdiv_neg, Int.tdiv_one]
    omega
  by_cases hone : b = 1
  · rw [hone, Int.tdiv_one]
    omega
  · have hhalf : (a.tdiv b).natAbs ≤ a.natAbs / 2 := by
      rw [Int.natAbs_tdiv]
      exact Nat.div_le_div_left (by omega) (by decide)
    omega

theorem fits_tmod (ha : fits width a = true) : fits width (a.tmod b) = true := by
  have hle : (a.tmod b).natAbs ≤ a.natAbs := by
    rw [Int.natAbs_tmod]
    exact Nat.mod_le _ _
  have hsign : 0 ≤ a → 0 ≤ a.tmod b := Int.tmod_nonneg b
  have hsign' : 0 ≤ -a → 0 ≤ -a.tmod b := fun h => Int.neg_tmod a b ▸ Int.tmod_nonneg b h
  rw [fits_iff] at ha ⊢
  omega

end Numeral

/-! ## Scalars -/

namespace Scalar

/-- The scalar is this integer, as one of the type. -/
inductive Denotes : Scalar → DataType → Int → Prop
  | int (i : Int32) : Denotes (.int i) .int i.toInt
  | bigint (i : Int64) : Denotes (.bigint i) .bigint i.toInt

/-- The integer as a scalar of an integer type. -/
def ofInteger? : DataType → Int → Option Scalar
  | .bigint => ofInt64?
  | _ => ofInt32?

variable {type source other : DataType} {s left right : Scalar} {a b i : Int}
  {op : ArithmeticOperator}

theorem Denotes.fits (h : s.Denotes type i) : Numeral.fits type.bits i = true := by
  cases h with
  | int v => exact Numeral.fits_iff.mpr ⟨Int32.le_toInt v, Int32.toInt_lt v⟩
  | bigint v => exact Numeral.fits_iff.mpr ⟨Int64.le_toInt v, Int64.toInt_lt v⟩

theorem ofInt32?_of_fits (h : Numeral.fits 32 i = true) : ofInt32? i = some (.int (.ofInt i)) := by
  rw [ofInt32?, Numeral.int32?, if_pos h, Option.map_some]

theorem ofInt64?_of_fits (h : Numeral.fits 64 i = true) :
    ofInt64? i = some (.bigint (.ofInt i)) := by
  rw [ofInt64?, Numeral.int64?, if_pos h, Option.map_some]

/-- An integer in the range of the type is found again in its scalar. -/
theorem exists_denotes (htype : type = .int ∨ type = .bigint)
    (hfits : Numeral.fits type.bits i = true) :
    ∃ s, ofInteger? type i = some s ∧ s.Denotes type i := by
  obtain ⟨hlower, hupper⟩ := Numeral.fits_iff.mp hfits
  rcases htype with rfl | rfl
  · have h := Denotes.int (Int32.ofInt i)
    rw [Int32.toInt_ofInt_of_le hlower hupper] at h
    exact ⟨_, ofInt32?_of_fits hfits, h⟩
  · have h := Denotes.bigint (Int64.ofInt i)
    rw [Int64.toInt_ofInt_of_le hlower hupper] at h
    exact ⟨_, ofInt64?_of_fits hfits, h⟩

theorem ofInteger?_eq_none (htype : type = .int ∨ type = .bigint)
    (hfits : ¬Numeral.fits type.bits i = true) : ofInteger? type i = none := by
  rcases htype with rfl | rfl
  · have hnone : Numeral.int32? i = none := if_neg hfits
    rw [ofInteger?, ofInt32?, hnone, Option.map_none]
    decide
  · have hnone : Numeral.int64? i = none := if_neg hfits
    rw [ofInteger?, ofInt64?, hnone, Option.map_none]

theorem Denotes.isInteger (h : s.Denotes type i) : type = .int ∨ type = .bigint := by
  cases h with
  | int => exact .inl rfl
  | bigint => exact .inr rfl

/-- An integer is the same one in the common type. -/
theorem Denotes.exists_convert (h : s.Denotes source i) (other : DataType) :
    ∃ r, convert (DataType.commonInteger source other) source s = .ok r ∧
      r.Denotes (DataType.commonInteger source other) i := by
  unfold DataType.commonInteger
  cases h with
  | int v =>
    by_cases hother : other = .bigint
    · rw [if_pos (.inr hother)]
      exact ⟨_, rfl, Int32.toInt_toInt64 v ▸ Denotes.bigint v.toInt64⟩
    · rw [if_neg (by simp [hother])]
      exact ⟨_, rfl, .int v⟩
  | bigint v =>
    rw [if_pos (.inl rfl)]
    exact ⟨_, rfl, .bigint v⟩

/-- What an operator does with two integers of one type. -/
theorem Denotes.apply_eq (hleft : left.Denotes type a) (hright : right.Denotes type b)
    (op : ArithmeticOperator) :
    apply type op left right =
      if divides op = true ∧ b = 0 then .error .divideByZero
      else orOverflow type ((onIntegers? type.bits op a b).bind (ofInteger? type)) := by
  cases hleft with
  | int x =>
    cases hright with
    | int y =>
      have hzero : y = 0 ↔ y.toInt = 0 := Int32.toInt_inj.symm
      simp only [apply, applyWith, Bool.and_eq_true, beq_iff_eq, hzero]
      rfl
  | bigint x =>
    cases hright with
    | bigint y =>
      have hzero : y = 0 ↔ y.toInt = 0 := Int64.toInt_inj.symm
      simp only [apply, applyWith, Bool.and_eq_true, beq_iff_eq, hzero]
      rfl

/-- The integer that an operator makes of two others in words of a type. -/
theorem onIntegers?_eq (ha : Numeral.fits type.bits a = true)
    (hb : Numeral.fits type.bits b = true) (hzero : ¬(divides op = true ∧ b = 0)) :
    onIntegers? type.bits op a b =
      if Numeral.fits type.bits (op.exact a b) = true ∧
        ¬(op = .modulo ∧ a = type.least ∧ b = -1) then some (op.exact a b) else none := by
  have hbits {f : Bool → Bool → Bool} {word : BitVec type.bits} (hop : op ≠ .modulo)
      (hexact : Int.bitwise f a b = op.exact a b)
      (hword : ∀ k, word.getLsbD k =
        f ((BitVec.ofInt type.bits a).getLsbD k) ((BitVec.ofInt type.bits b).getLsbD k)) :
      some word.toInt = if Numeral.fits type.bits (op.exact a b) = true ∧
        ¬(op = .modulo ∧ a = type.least ∧ b = -1) then some (op.exact a b) else none := by
    rw [Numeral.toInt_eq_bitwise type.bits_pos ha hb hword, ← hexact,
      if_pos ⟨Numeral.fits_bitwise f ha hb, fun h => hop h.1⟩]
  cases op with
  | add => simp [onIntegers?, ArithmeticOperator.exact]
  | subtract => simp [onIntegers?, ArithmeticOperator.exact]
  | multiply => simp [onIntegers?, ArithmeticOperator.exact]
  | divide => simp [onIntegers?, ArithmeticOperator.exact]
  | modulo =>
    have hquotient := Numeral.fits_tdiv_iff ha (b := b) fun h => hzero ⟨rfl, h⟩
    simp only [onIntegers?, ArithmeticOperator.exact, Numeral.fits_tmod ha, hquotient, true_and,
      DataType.least]
    split <;> rfl
  | bitAnd => exact hbits (by decide) (congrFun₂ Int.bitwise_and a b) fun k => BitVec.getLsbD_and
  | bitOr => exact hbits (by decide) (congrFun₂ Int.bitwise_or a b) fun k => BitVec.getLsbD_or
  | bitXor => exact hbits (by decide) (congrFun₂ Int.bitwise_xor a b) fun k => BitVec.getLsbD_xor

/-- An operator on two integers of one type divides by zero, has an exact result in the type, or
overflows. -/
theorem Denotes.apply_cases (hleft : left.Denotes type a) (hright : right.Denotes type b)
    (op : ArithmeticOperator) :
    let byZero := (op = .divide ∨ op = .modulo) ∧ b = 0
    let refused := op = .modulo ∧ a = type.least ∧ b = -1
    byZero ∧ apply type op left right = .error .divideByZero ∨
    ¬byZero ∧ (¬type.Represents (op.exact a b) ∨ refused) ∧
      apply type op left right = .error (.arithmeticOverflow type) ∨
    ¬byZero ∧ type.Represents (op.exact a b) ∧ ¬refused ∧
      ∃ s, apply type op left right = .ok s ∧ s.Denotes type (op.exact a b) := by
  intro byZero refused
  have hdivides : divides op = true ∧ b = 0 ↔ byZero :=
    and_congr_left' (by cases op <;> simp [divides])
  have happly := hleft.apply_eq hright op
  by_cases hzero : byZero
  · exact .inl ⟨hzero, by rw [happly, if_pos (hdivides.mpr hzero)]⟩
  have hzero' := mt hdivides.mp hzero
  rw [if_neg hzero', onIntegers?_eq hleft.fits hright.fits hzero'] at happly
  by_cases hexact : Numeral.fits type.bits (op.exact a b) = true ∧ ¬refused
  · obtain ⟨s, hs, hresult⟩ := exists_denotes hleft.isInteger hexact.1
    rw [if_pos hexact, Option.bind_some, hs] at happly
    exact .inr (.inr ⟨hzero, Numeral.fits_iff.mp hexact.1, hexact.2, s, happly, hresult⟩)
  · rw [if_neg hexact] at happly
    have hoverflow : ¬type.Represents (op.exact a b) ∨ refused := by
      by_cases hrefused : refused
      · exact .inr hrefused
      · exact .inl fun h => hexact ⟨Numeral.fits_iff.mpr h, hrefused⟩
    exact .inr (.inl ⟨hzero, hoverflow, happly⟩)

end Scalar

/-! ## Values -/

namespace DataType

theorem commonInteger_comm (left right : DataType) :
    commonInteger left right = commonInteger right left := by
  simp only [commonInteger, or_comm]

theorem common?_of_integers {left right : DataType} (hleft : left = int ∨ left = bigint)
    (hright : right = int ∨ right = bigint) :
    common? left right = some (commonInteger left right) := by
  rcases hleft with rfl | rfl <;> rcases hright with rfl | rfl <;> rfl

end DataType

namespace Value

/-- The value is this integer. -/
def Denotes (v : Value) (i : Int) : Prop :=
  ∃ scalar, v.scalar = some scalar ∧ scalar.Denotes v.type i

variable {v w left right : Value} {a b i : Int}

theorem denotes_int (n : Int32) : (int n).Denotes n.toInt := ⟨_, rfl, .int n⟩

theorem denotes_bigint (n : Int64) : (bigint n).Denotes n.toInt := ⟨_, rfl, .bigint n⟩

theorem Denotes.cases (h : v.Denotes i) :
    (∃ n : Int32, v = int n ∧ n.toInt = i) ∨ ∃ n : Int64, v = bigint n ∧ n.toInt = i := by
  obtain ⟨type, scalar⟩ := v
  obtain ⟨s, rfl, hs⟩ := h
  cases hs with
  | int n => exact .inl ⟨n, rfl, rfl⟩
  | bigint n => exact .inr ⟨n, rfl, rfl⟩

/-- There is one value of a type that is an integer. -/
theorem Denotes.unique (hv : v.Denotes i) (hw : w.Denotes i) (htype : v.type = w.type) : v = w := by
  rcases hv.cases with ⟨n, rfl, hn⟩ | ⟨n, rfl, hn⟩ <;>
    rcases hw.cases with ⟨m, rfl, rfl⟩ | ⟨m, rfl, rfl⟩
  · rw [Int32.toInt_inj.mp hn]
  · cases htype
  · cases htype
  · rw [Int64.toInt_inj.mp hn]

theorem Denotes.integer_unique (ha : v.Denotes a) (hb : v.Denotes b) : a = b := by
  rcases ha.cases with ⟨n, rfl, rfl⟩ | ⟨n, rfl, rfl⟩ <;>
    rcases hb.cases with ⟨m, hm, rfl⟩ | ⟨m, hm, rfl⟩ <;> cases hm
  · rfl
  · rfl

/-- A value of an integer type is an integer, unless it is NULL. -/
theorem eq_null_or_denotes (hv : v.isWellFormed = true) (htype : v.type.isInteger = true) :
    v = null v.type ∨ ∃ i, v.Denotes i := by
  obtain ⟨type, _ | scalar⟩ := v
  · exact .inl rfl
  · cases type <;> cases htype <;> cases scalar <;> cases hv
    · exact .inr ⟨_, denotes_int _⟩
    · exact .inr ⟨_, denotes_bigint _⟩

/-- The integer as a value of this type, or an overflow of it. -/
def ofExact (type : DataType) (i : Int) : Except Error Value :=
  (Scalar.orOverflow type (Scalar.ofInteger? type i)).map fun s => ⟨type, some s⟩

theorem ofExact_cases {type : DataType} (htype : type = .int ∨ type = .bigint) (i : Int) :
    (type.Represents i ∧ ∃ w, ofExact type i = .ok w ∧ w.type = type ∧ w.Denotes i) ∨
      ¬type.Represents i ∧ ofExact type i = .error (.arithmeticOverflow type) := by
  by_cases hfits : Numeral.fits type.bits i = true
  · obtain ⟨s, hs, hdenotes⟩ := Scalar.exists_denotes htype hfits
    exact .inl ⟨Numeral.fits_iff.mp hfits, ⟨type, some s⟩, by rw [ofExact, hs]; rfl, rfl, s, rfl,
      hdenotes⟩
  · refine .inr ⟨fun h => hfits (Numeral.fits_iff.mpr h), ?_⟩
    rw [ofExact, Scalar.ofInteger?_eq_none htype hfits]
    rfl

theorem Denotes.ofExact_eq (h : v.Denotes i) : ofExact v.type i = .ok v := by
  obtain ⟨s, -, hs⟩ := id h
  rcases ofExact_cases hs.isInteger i with ⟨-, w, hw, htype, hdenotes⟩ | ⟨hnot, -⟩
  · rw [hw, h.unique hdenotes htype.symm]
  · exact absurd (Numeral.fits_iff.mp hs.fits) hnot

theorem denotes_toInt64 (n : Int32) : (bigint n.toInt64).Denotes n.toInt :=
  Int32.toInt_toInt64 n ▸ denotes_bigint n.toInt64

/-- An integer is converted exactly, if the other type has it. -/
theorem Denotes.convert_eq {target : DataType} (h : v.Denotes i)
    (htarget : target = .int ∨ target = .bigint) : v.convert target = ofExact target i := by
  rcases h.cases with ⟨n, rfl, rfl⟩ | ⟨n, rfl, rfl⟩ <;> rcases htarget with rfl | rfl
  · exact (denotes_int n).ofExact_eq.symm
  · exact (denotes_toInt64 n).ofExact_eq.symm
  · change (Scalar.orOverflow .int (Scalar.ofInt32? n.toInt)).bind _ =
      (Scalar.orOverflow .int (Scalar.ofInt32? n.toInt)).map _
    cases Scalar.ofInt32? n.toInt <;> rfl
  · exact (denotes_bigint n).ofExact_eq.symm

theorem Denotes.negate_eq (h : v.Denotes i) : v.negate = ofExact v.type (-i) := by
  rcases h.cases with ⟨n, rfl, rfl⟩ | ⟨n, rfl, rfl⟩
  · change (Scalar.orOverflow .int (Scalar.ofInt32? (-n.toInt))).bind _ =
      (Scalar.orOverflow .int (Scalar.ofInt32? (-n.toInt))).map _
    cases Scalar.ofInt32? (-n.toInt) <;> rfl
  · change (Scalar.orOverflow .bigint (Scalar.ofInt64? (-n.toInt))).bind _ =
      (Scalar.orOverflow .bigint (Scalar.ofInt64? (-n.toInt))).map _
    cases Scalar.ofInt64? (-n.toInt) <;> rfl

/-- The integers are joined in the common type. -/
theorem Denotes.apply_eq (hleft : left.Denotes a) (hright : right.Denotes b)
    (op : ArithmeticOperator) :
    ∃ l r, l.Denotes (DataType.commonInteger left.type right.type) a ∧
      r.Denotes (DataType.commonInteger left.type right.type) b ∧
      apply op left right =
        (Scalar.apply (DataType.commonInteger left.type right.type) op l r).map fun result =>
          ⟨DataType.commonInteger left.type right.type, some result⟩ := by
  obtain ⟨l, hl, hleft⟩ := hleft
  obtain ⟨r, hr, hright⟩ := hright
  obtain ⟨l', hl', hleft'⟩ := hleft.exists_convert right.type
  obtain ⟨r', hr', hright'⟩ := hright.exists_convert left.type
  rw [DataType.commonInteger_comm] at hr' hright'
  refine ⟨l', r', hleft', hright', ?_⟩
  have hsupports : (DataType.commonInteger left.type right.type).supports op = true := by
    rcases hleft'.isInteger with h | h <;> rw [h] <;> rfl
  rw [apply, applyWith, Scalar.apply,
    DataType.common?_of_integers hleft.isInteger hright.isInteger]
  simp only [hl, hr, hl', hr', hsupports, if_true]
  generalize hjoined : Scalar.applyWith .standard _ op l' r' = joined
  cases joined <;> simp only [bind, Except.bind, Except.map, hjoined]

/-- The operators on integers are exact, in the wider of the two types. Only a division by zero has
no result. Any other result is answered if the common type has it, and is reported as an overflow
otherwise. The one exception is the remainder of the least integer by -1: it is reported as an
overflow too, since its quotient is one. -/
theorem apply_integers (hleft : left.Denotes a) (hright : right.Denotes b)
    (op : ArithmeticOperator) :
    let common := DataType.commonInteger left.type right.type
    let byZero := (op = .divide ∨ op = .modulo) ∧ b = 0
    let refused := op = .modulo ∧ a = common.least ∧ b = -1
    (apply op left right = .error .divideByZero ↔ byZero) ∧
    (apply op left right = .error (.arithmeticOverflow common) ↔
      ¬byZero ∧ (¬common.Represents (op.exact a b) ∨ refused)) ∧
    (¬byZero → common.Represents (op.exact a b) → ¬refused →
      ∃ result, apply op left right = .ok result ∧ result.type = common ∧
        result.Denotes (op.exact a b)) := by
  intro common byZero refused
  obtain ⟨l, r, hl, hr, happly⟩ := hleft.apply_eq hright op
  rw [happly]
  rcases hl.apply_cases hr op with ⟨hzero, h⟩ | ⟨hzero, hoverflow, h⟩ | ⟨hzero, hfits, hrefused, h⟩
  · rw [h]
    exact ⟨⟨fun _ => hzero, fun _ => rfl⟩, ⟨nofun, fun h => absurd hzero h.1⟩,
      fun h => absurd hzero h⟩
  · rw [h]
    exact ⟨⟨nofun, fun h => absurd h hzero⟩, ⟨fun _ => ⟨hzero, hoverflow⟩, fun _ => rfl⟩,
      fun _ hfits hrefused => absurd hoverflow (not_or.mpr ⟨not_not.mpr hfits, hrefused⟩)⟩
  · obtain ⟨s, hs, hdenotes⟩ := h
    rw [hs]
    exact ⟨⟨nofun, fun h => absurd h hzero⟩,
      ⟨nofun, fun h => absurd h.2 (not_or.mpr ⟨not_not.mpr hfits, hrefused⟩)⟩,
      fun _ _ _ => ⟨_, rfl, rfl, s, rfl, hdenotes⟩⟩

/-- In the wider type, the remainder of the least integer of the narrower one has its place. -/
theorem apply_integers_of_two_types :
    ∃ result, apply .modulo (int (-2147483648)) (bigint (-1)) = .ok result ∧
      result.type = .bigint ∧ result.Denotes 0 :=
  have hleft : (int (-2147483648)).Denotes (-2147483648) := ⟨_, rfl, .int _⟩
  have hright : (bigint (-1)).Denotes (-1) := ⟨_, rfl, .bigint _⟩
  (apply_integers hleft hright .modulo).2.2 (by decide) (by decide) (by decide)

/-- The exact remainder is an int, but it is refused as an overflow. -/
theorem apply_modulo_least :
    (int (-2147483648)).Denotes (-2147483648) ∧ (int (-1)).Denotes (-1) ∧
      DataType.int.Represents (ArithmeticOperator.exact .modulo (-2147483648) (-1)) ∧
      apply .modulo (int (-2147483648)) (int (-1)) = .error (.arithmeticOverflow .int) :=
  ⟨⟨_, rfl, .int _⟩, ⟨_, rfl, .int _⟩, by decide, by rfl⟩

end Value

end TransactSql
