/-
TransactSql.Proofs.Statement.Values — values, written as literals.

A text stands in quotation marks, so that it may be anything, and an
integer in its digits. An integer is read back in the narrowest type that
holds it, and a negative one as the negation of a number; what the value
of a literal is before it is converted to a type is `Value.asRead`. The
conversion then gives the value that was written (`Value.convert_asRead`).
-/
import TransactSql.Proofs.Expression.Literals
import TransactSql.Proofs.Parse.Reading
import TransactSql.Proofs.Value.Integers

namespace TransactSql

open Parse Lexer

open Token (written)

/-- A value as it is written in a statement. -/
def Value.literal (v : Value) : String :=
  match v.scalar with
  | some (.text text) => if v.type = .nvarchar then "N" ++ quoted text else quoted text
  | _ => v.toText

/-! ## Integers -/

theorem Numeral.fits_32_iff {i : Int} :
    fits 32 i = true ↔ -2147483648 ≤ i ∧ i < 2147483648 := by
  have hbound : ((Nat.pow 2 (32 - 1) : Nat) : Int) = 2147483648 := rfl
  simp only [fits, hbound, Bool.and_eq_true, decide_eq_true_eq]
  omega

theorem Numeral.fits_64_iff {i : Int} :
    fits 64 i = true ↔ -9223372036854775808 ≤ i ∧ i < 9223372036854775808 := by
  have hbound : ((Nat.pow 2 (64 - 1) : Nat) : Int) = 9223372036854775808 := rfl
  simp only [fits, hbound, Bool.and_eq_true, decide_eq_true_eq]
  omega

namespace Value

/-- The value that an integer is read as: it is of the narrowest type that holds its amount. -/
def ofInteger (i : Int) : Value :=
  if i.natAbs < 2147483648 then .int (Int32.ofInt i) else .bigint (Int64.ofInt i)

theorem ofInteger_of_lt {i : Int} (h : i.natAbs < 2147483648) :
    ofInteger i = .int (Int32.ofInt i) := if_pos h

theorem ofInteger_of_le {i : Int} (h : 2147483648 ≤ i.natAbs) :
    ofInteger i = .bigint (Int64.ofInt i) := if_neg (Nat.not_lt.mpr h)

theorem denotes_ofInteger {i : Int} (h : DataType.bigint.Represents i) :
    (ofInteger i).Denotes i := by
  obtain ⟨hlower, hupper⟩ : -2 ^ 63 ≤ i ∧ i < 2 ^ 63 := h
  by_cases hsmall : i.natAbs < 2147483648
  · have hback : (Int32.ofInt i).toInt = i := Int32.toInt_ofInt_of_le (by omega) (by omega)
    have hdenotes := denotes_int (Int32.ofInt i)
    rw [ofInteger_of_lt hsmall]
    rwa [hback] at hdenotes
  · have hback : (Int64.ofInt i).toInt = i := Int64.toInt_ofInt_of_le hlower hupper
    have hdenotes := denotes_bigint (Int64.ofInt i)
    rw [ofInteger_of_le (by omega)]
    rwa [hback] at hdenotes

theorem type_ofInteger_neg (i : Int) : (ofInteger (-i)).type = (ofInteger i).type := by
  rw [ofInteger, ofInteger, Int.natAbs_neg]
  split <;> rfl

theorem negate_ofInteger {n : Nat} (h : n < 9223372036854775808) :
    (ofInteger n).negate = .ok (ofInteger (-n)) := by
  have hamount : DataType.bigint.Represents n := Numeral.fits_iff.mp
    (Numeral.fits_64_iff.mpr (by omega))
  have hnegative : DataType.bigint.Represents (-n) := Numeral.fits_iff.mp
    (Numeral.fits_64_iff.mpr (by omega))
  rw [(denotes_ofInteger hamount).negate_eq, ← type_ofInteger_neg]
  exact (denotes_ofInteger hnegative).ofExact_eq

theorem convert_ofInteger_int (i : Int32) : (ofInteger i.toInt).convert .int = .ok (.int i) := by
  have hfits : DataType.int.Represents i.toInt := ⟨i.le_toInt, i.toInt_lt⟩
  have hdenotes := denotes_ofInteger (DataType.represents_bigint (.inl rfl) hfits)
  rw [hdenotes.convert_eq (.inl rfl)]
  exact (denotes_int i).ofExact_eq

theorem convert_ofInteger_bigint (i : Int64) :
    (ofInteger i.toInt).convert .bigint = .ok (.bigint i) := by
  have hdenotes := denotes_ofInteger ⟨i.le_toInt, i.toInt_lt⟩
  rw [hdenotes.convert_eq (.inr rfl)]
  exact (denotes_bigint i).ofExact_eq

end Value

/-- The number of some digits that stand for an integer. -/
def narrowest (n : Int) (digits : List Char) : Number :=
  match Numeral.int32? n, Numeral.int64? n with
  | some value, _ => .int value
  | none, some value => .bigint value
  | none, none => .float ((Binary64.read? digits).getD Binary64.infinity)

attribute [local irreducible] Numeral.int32? Numeral.int64? in
/-- The integer is kept apart from its digits, since comparing it with the bounds of the types
would compute with these. -/
theorem wholeNumber_eq (digits : List Char) :
    wholeNumber digits = narrowest (Numeral.natValue digits : Nat) digits := rfl

theorem toValue_narrowest {n : Int} (h : 0 ≤ n) (h' : n < 9223372036854775808)
    (digits : List Char) : (narrowest n digits).toValue = .ofInteger n := by
  have hlarge : Numeral.int64? n = some (Int64.ofInt n) :=
    if_pos (Numeral.fits_64_iff.mpr (by omega))
  by_cases hsmall : n < 2147483648
  · have hint : Numeral.int32? n = some (Int32.ofInt n) :=
      if_pos (Numeral.fits_32_iff.mpr (by omega))
    rw [Value.ofInteger_of_lt (by omega), narrowest, hint]
    rfl
  · have hint : Numeral.int32? n = none := by
      refine if_neg fun hfits => ?_
      have hrange := Numeral.fits_32_iff.mp hfits
      omega
    rw [Value.ofInteger_of_le (by omega), narrowest, hint, hlarge]
    rfl

theorem toValue_wholeNumber {n : Nat} (h : n < 9223372036854775808) :
    (wholeNumber (Numeral.natDigits n)).toValue = .ofInteger n := by
  rw [wholeNumber_eq, Numeral.natValue_natDigits]
  exact toValue_narrowest (by omega) (by omega) _

/-! ## Values -/

/-- The value that the literal of a value is read as, before it is converted to a type. -/
def Value.asRead (v : Value) : Value :=
  match v.scalar with
  | none => .null .int
  | some (.int value) => .ofInteger value.toInt
  | some (.bigint value) => .ofInteger value.toInt
  | some _ => v

/-- The value can be written: it is no floating point number and not the least integer. -/
structure Value.Writable (v : Value) : Prop where
  type : v.type ≠ .float
  wellFormed : v.isWellFormed = true
  least : v ≠ .bigint (-9223372036854775808)

theorem Value.Writable.cases {v : Value} (h : v.Writable) :
    (∃ type, v = .null type) ∨ (∃ i, v = .int i) ∨
      (∃ i, v = .bigint i ∧ i.toInt.natAbs < 9223372036854775808) ∨
      (∃ text, v = .varchar text) ∨ ∃ text, v = .nvarchar text := by
  obtain ⟨htype, hwellFormed, hleast⟩ := h
  obtain ⟨type, _ | scalar⟩ := v
  · exact .inl ⟨type, rfl⟩
  -- A well-formed value has a scalar of its own type.
  cases scalar with
  | int i =>
    obtain rfl : type = .int := by cases type <;> first | rfl | cases hwellFormed
    exact .inr (.inl ⟨i, rfl⟩)
  | bigint i =>
    obtain rfl : type = .bigint := by cases type <;> first | rfl | cases hwellFormed
    refine .inr (.inr (.inl ⟨i, rfl, ?_⟩))
    have hlower := i.le_toInt
    have hupper := i.toInt_lt
    have hne : i.toInt ≠ -9223372036854775808 := by
      intro heq
      have hsame : i = -9223372036854775808 := Int64.toInt_inj.mp (heq.trans (by decide))
      exact hleast (by rw [hsame]; rfl)
    omega
  | float _ =>
    obtain rfl : type = .float := by cases type <;> first | rfl | cases hwellFormed
    exact absurd rfl htype
  | text text =>
    cases type with
    | varchar => exact .inr (.inr (.inr (.inl ⟨text, rfl⟩)))
    | nvarchar => exact .inr (.inr (.inr (.inr ⟨text, rfl⟩)))
    | int => cases hwellFormed
    | bigint => cases hwellFormed
    | float => cases hwellFormed

section Values

variable (scope : Scope) (levels : Nat) {t : Token} {v : Value}

theorem takes_operand (below : Expression.Readers) (h : t.literalValue? = some v)
    (stop : Token → Prop) :
    Takes stop (Expression.readOperand scope below) [t] (.value v) :=
  fun rest last _ =>
    ⟨t.literal, Expression.run_readOperand_of_literalValue? scope below h rest none last⟩

theorem takes_negative_operand (h : t.literalValue? = some v) (stop : Token → Prop) :
    Takes stop (Expression.readOperand scope (Expression.readers scope (levels + 1)))
      [written (.operator '-') "-", t] (.negative (.value v)) :=
  takes_expectNext (.last (takes_operand scope _ h stop) (takes_pure _))

/-- An operand without an operator behind it is an expression. -/
theorem takes_expression {stop : Token → Prop} {ts : List Token} {e : Expression}
    (hstop : ∀ t, stop t → t.arithmeticOperator? = none)
    (h : Takes stop (Expression.readOperand scope (Expression.readers scope levels)) ts e) :
    Takes stop (Expression.read scope (levels + 1)) ts e := by
  have hoperator : Takes stop Expression.nextOperator? [] none :=
    .last (takes_nextIf_nothing fun t ht => by rw [hstop t ht]; rfl) (takes_pure _)
  refine h.last ?_
  exact .last (takes_pure false) (.last hoperator (takes_pure e))

theorem arithmeticOperator?_of_endsItem (t : Token) (ht : t.EndsItem) :
    t.arithmeticOperator? = none := by
  rcases ht with hkind | hkind | hkind <;> rw [Token.arithmeticOperator?, hkind]

theorem takes_value {ts : List Token} {e : Expression}
    (h : Takes Token.EndsItem
      (Expression.readOperand scope (Expression.readers scope levels)) ts e)
    (heval : e.eval .noRow = .ok v) :
    Takes Token.EndsItem (Statement.readValue (Expression.read scope (levels + 1))) ts v :=
  (takes_expression scope levels arithmeticOperator?_of_endsItem h).last (takes_ofExcept heval)

/-- A literal that is a single token is read as its value. -/
theorem reads_literal (ht : Whole t) (h : t.literalValue? = some v) :
    Reads Token.EndsItem
      (fun scope _ => Statement.readValue (Expression.read scope (levels + 1))) t.literal v :=
  ⟨[t], ht.renders, fun scope _ => takes_value scope levels (takes_operand scope _ h _) rfl⟩

/-- The digits of a number are a token that has its value. -/
theorem exists_digits {n : Nat} (h : n < 9223372036854775808) :
    ∃ t : Token, t.literal = String.ofList (Numeral.natDigits n) ∧ Whole t ∧
      t.literalValue? = some (.ofInteger n) :=
  ⟨_, rfl, whole_natDigits n, congrArg some (toValue_wholeNumber h)⟩

/-- No digit makes the beginning of a comment of a minus sign. -/
theorem scan_minus_natDigits (n : Nat) (rest : List Char) :
    scan 0 '-' (Numeral.natDigits n ++ rest) = .ok (.operator '-', 1) := by
  have hdigits := Numeral.all_isDigit_natDigits n
  cases hwritten : Numeral.natDigits n with
  | nil => exact absurd hwritten (Numeral.natDigits_ne_nil n)
  | cons c digits =>
    rw [hwritten, List.all_cons, Bool.and_eq_true] at hdigits
    refine scan_minus 0 _ fun heq => ?_
    rw [heq] at hdigits
    exact absurd hdigits.1 (by decide)

theorem eval_negative_ofInteger {i : Int} (h : i.natAbs < 9223372036854775808) (hnegative : i < 0) :
    (Expression.negative (.value (.ofInteger i.natAbs))).eval .noRow = .ok (.ofInteger i) := by
  have hsame : i = -(i.natAbs : Int) := by omega
  rw [hsame, Int.natAbs_neg, Int.natAbs_natCast]
  exact Value.negate_ofInteger h

/-- The digits of an integer, with its sign, are read as the integer. -/
theorem reads_integer {i : Int} (h : i.natAbs < 9223372036854775808) :
    Reads Token.EndsItem
      (fun scope _ => Statement.readValue (Expression.read scope (levels + 2)))
      (String.ofList (Numeral.intText i)) (.ofInteger i) := by
  obtain ⟨t, hliteral, hwhole, hvalue⟩ := exists_digits h
  unfold Numeral.intText
  split
  · rename_i hnegative
    have hscan : ∀ rest, scan 0 '-' (t.literal.toList ++ rest) = .ok (.operator '-', 1) := by
      rw [hliteral, String.toList_ofList]
      exact scan_minus_natDigits _
    have htext : String.ofList ('-' :: Numeral.natDigits i.natAbs) = "-" ++ t.literal := by
      rw [hliteral, ← String.toList_inj, String.toList_append, String.toList_ofList,
        String.toList_ofList, String.toList_ofList]
      rfl
    rw [htext]
    refine ⟨_, renders_operator rfl hscan hwhole.symbol hwhole.renders, fun scope _ => ?_⟩
    exact takes_value scope (levels + 1) (takes_negative_operand scope levels hvalue _)
      (eval_negative_ofInteger h hnegative)
  · rename_i hnonnegative
    have hsame : (i.natAbs : Int) = i := by omega
    rw [hsame] at hvalue
    rw [← hliteral]
    exact reads_literal (levels + 1) hwhole hvalue

/-- The literal of a value is read as a value that is still to be converted. -/
theorem reads_value (h : v.Writable) :
    Reads Token.EndsItem
      (fun scope _ => Statement.readValue (Expression.read scope maxNesting))
      v.literal v.asRead := by
  obtain ⟨type, rfl⟩ | ⟨i, rfl⟩ | ⟨i, rfl, hi⟩ | ⟨text, rfl⟩ | ⟨text, rfl⟩ := h.cases
  · have hnull : Whole (written (.keyword .NULL) "NULL") :=
      whole_of_tokens (by decide +kernel) rfl rfl
    have hvalue : (written (.keyword .NULL) "NULL").literalValue? = some (.null .int) := rfl
    have hliteral := reads_literal 127 hnull hvalue
    exact hliteral
  · have hlower := i.le_toInt
    have hupper := i.toInt_lt
    have hi : i.toInt.natAbs < 9223372036854775808 := by omega
    have hinteger := reads_integer 126 hi
    exact hinteger
  · have hinteger := reads_integer 126 hi
    exact hinteger
  · have hvalue : (written (.quoted text false) (quoted text)).literalValue? =
        some (.varchar text) := rfl
    have htext := reads_literal 127 (whole_quoted text) hvalue
    exact htext
  · have hvalue : (written (.quoted text true) ("N" ++ quoted text)).literalValue? =
        some (.nvarchar text) := rfl
    have htext := reads_literal 127 (whole_national text) hvalue
    exact htext

/-- What is read of a literal is converted to the value that was written. -/
theorem Value.convert_asRead (h : v.Writable) : v.asRead.convert v.type = .ok v := by
  obtain ⟨type, rfl⟩ | ⟨i, rfl⟩ | ⟨i, rfl, -⟩ | ⟨text, rfl⟩ | ⟨text, rfl⟩ := h.cases
  · rfl
  · exact convert_ofInteger_int i
  · exact convert_ofInteger_bigint i
  · rfl
  · rfl

end Values

end TransactSql
