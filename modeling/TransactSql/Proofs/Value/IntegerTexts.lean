/-
TransactSql.Proofs.Value.IntegerTexts — integers are read from texts.

`Numeral.Spells` is the grammar: an optional sign and one or more digits,
with the integer that they write. A text is read as an integer exactly if
it is one of these with nothing but blanks around it (`Spelled`), and if
the type has room for it. What is too large for an int but not for a
bigint overflows, and everything else fails with the text as it was given
(`convert_text_cases`).

So it makes no difference whether a text becomes an int at once or a
bigint first, and an integer that has been made a text is read back.
-/
import Mathlib.Data.List.Induction
import Mathlib.Data.List.TakeWhile
import TransactSql.Proofs.Value.Integers

namespace TransactSql

/-! ## Digits and signs -/

namespace Numeral

/-- One or more decimal digits, and the number that they write. -/
inductive Digits : List Char → Nat → Prop
  | one {d : Nat} (hd : d < 10) : Digits [digitChar d] d
  | snoc {digits : List Char} {n d : Nat} (hdigits : Digits digits n) (hd : d < 10) :
    Digits (digits ++ [digitChar d]) (10 * n + d)

/-- An optional sign and one or more digits, and the integer that they write. -/
inductive Spells : List Char → Int → Prop
  | unsigned {digits : List Char} {n : Nat} (h : Digits digits n) : Spells digits n
  | plus {digits : List Char} {n : Nat} (h : Digits digits n) : Spells ('+' :: digits) n
  | minus {digits : List Char} {n : Nat} (h : Digits digits n) : Spells ('-' :: digits) (-n)

variable {digits text : List Char} {n : Nat} {i : Int}

theorem exists_digitChar {c : Char} (h : c.isDigit = true) : ∃ d < 10, c = digitChar d := by
  have hrange : 48 ≤ c.toNat ∧ c.toNat ≤ 57 := by
    simp only [Char.isDigit, Bool.and_eq_true, decide_eq_true_eq, ge_iff_le,
      UInt32.le_iff_toNat_le] at h
    exact h
  refine ⟨c.toNat - 48, by omega, ?_⟩
  rw [digitChar, show 48 + (c.toNat - 48) = c.toNat by omega, Char.ofNat_toNat]

theorem digits_of_isDigit (hnonempty : digits ≠ []) (h : ∀ c ∈ digits, c.isDigit = true) :
    Digits digits (natValue digits) := by
  -- the last digit is added last, so the induction takes them off from the back
  induction digits using List.reverseRecOn with
  | nil => exact absurd rfl hnonempty
  | append_singleton digits c ih =>
    obtain ⟨d, hd, rfl⟩ := exists_digitChar (h c (by simp))
    rw [natValue_append_digit, digitValue_digitChar hd]
    by_cases hfirst : digits = []
    · subst hfirst
      simpa [natValue] using Digits.one hd
    · exact .snoc (ih hfirst fun c hc => h c (by simp [hc])) hd

theorem Digits.eq_digits (h : Digits digits n) :
    digits ≠ [] ∧ (∀ c ∈ digits, c.isDigit = true) ∧ natValue digits = n := by
  induction h with
  | one hd =>
    exact ⟨List.cons_ne_nil _ _, by simp [isDigit_digitChar hd],
      by simp [natValue, digitValue_digitChar hd]⟩
  | snoc _ hd ih =>
    obtain ⟨-, hdigits, hvalue⟩ := ih
    refine ⟨by simp, fun c hc => ?_, ?_⟩
    · rcases List.mem_append.mp hc with hc | hc
      · exact hdigits c hc
      · rw [List.mem_singleton.mp hc]
        exact isDigit_digitChar hd
    · rw [natValue_append_digit, hvalue, digitValue_digitChar hd]

theorem readNat?_eq_some_iff : readNat? digits = some n ↔ Digits digits n := by
  have hread : readNat? digits = some n ↔
      digits ≠ [] ∧ (∀ c ∈ digits, c.isDigit = true) ∧ natValue digits = n := by
    simp [readNat?, and_assoc]
  rw [hread]
  refine ⟨?_, Digits.eq_digits⟩
  rintro ⟨hnonempty, hdigits, rfl⟩
  exact digits_of_isDigit hnonempty hdigits

/-- An integer is read exactly from what spells it. -/
theorem readInt?_eq_some_iff : readInt? text = some i ↔ Spells text i := by
  constructor
  · intro h
    unfold readInt? at h
    split at h <;> obtain ⟨n, hn, rfl⟩ := Option.map_eq_some_iff.mp h
    · exact .minus (readNat?_eq_some_iff.mp hn)
    · exact .plus (readNat?_eq_some_iff.mp hn)
    · exact .unsigned (readNat?_eq_some_iff.mp hn)
  · intro h
    cases h with
    | plus h => rw [readInt?, readNat?_eq_some_iff.mpr h, Option.map_some]
    | minus h => rw [readInt?, readNat?_eq_some_iff.mpr h, Option.map_some]
    | unsigned h =>
      obtain ⟨hnonempty, hdigits, -⟩ := h.eq_digits
      obtain ⟨c, rest, rfl⟩ := List.exists_cons_of_ne_nil hnonempty
      rw [readInt?_of_isDigit (hdigits c List.mem_cons_self), readNat?_eq_some_iff.mpr h,
        Option.map_some]

theorem Spells.ne_nil (h : Spells text i) : text ≠ [] := by
  cases h with
  | unsigned h => exact h.eq_digits.1
  | plus | minus => exact List.cons_ne_nil _ _

end Numeral

/-! ## Blanks -/

namespace Unicode

open Numeral

variable {before number after : List Char}

theorem isBlank_of_isDigit {c : Char} (h : c.isDigit = true) : isBlank c = false := by
  obtain ⟨d, hd, rfl⟩ := exists_digitChar h
  have hall : ∀ k < 10, isBlank (digitChar k) = false := by decide
  exact hall d hd

theorem isBlank_of_spells {i : Int} (h : Spells number i) : ∀ c ∈ number, isBlank c = false := by
  have hdigits {digits : List Char} {n : Nat} (h : Digits digits n) :
      ∀ c ∈ digits, isBlank c = false :=
    fun c hc => isBlank_of_isDigit (h.eq_digits.2.1 c hc)
  cases h with
  | unsigned h => exact hdigits h
  | plus h => exact List.forall_mem_cons.mpr ⟨by decide, hdigits h⟩
  | minus h => exact List.forall_mem_cons.mpr ⟨by decide, hdigits h⟩

theorem dropWhile_append_of_not {p : Char → Bool} {first rest : List Char}
    (hfirst : ∀ c ∈ first, p c = false) (hnonempty : first ≠ []) :
    (first ++ rest).dropWhile p = first ++ rest := by
  obtain ⟨c, first, rfl⟩ := List.exists_cons_of_ne_nil hnonempty
  rw [List.cons_append, List.dropWhile_cons, hfirst c List.mem_cons_self]
  rfl

/-- Trimming takes away the blanks on both sides. -/
theorem trim_append (hbefore : ∀ c ∈ before, isBlank c = true)
    (hafter : ∀ c ∈ after, isBlank c = true) (hnumber : ∀ c ∈ number, isBlank c = false)
    (hnonempty : number ≠ []) : trim (before ++ number ++ after) = number := by
  rw [trim, List.append_assoc, List.dropWhile_append_of_pos hbefore,
    dropWhile_append_of_not hnumber hnonempty, List.reverse_append,
    List.dropWhile_append_of_pos (by simpa using hafter)]
  have hreverse : (number.reverse ++ []).dropWhile isBlank = number.reverse ++ [] :=
    dropWhile_append_of_not (fun c hc => hnumber c (List.mem_reverse.mp hc))
      (mt List.reverse_eq_nil_iff.mp hnonempty)
  rw [List.append_nil] at hreverse
  rw [hreverse, List.reverse_reverse]

/-- Trimming takes away nothing but blanks. -/
theorem exists_blanks (text : List Char) : ∃ before after, text = before ++ trim text ++ after ∧
    (∀ c ∈ before, isBlank c = true) ∧ ∀ c ∈ after, isBlank c = true := by
  refine ⟨text.takeWhile isBlank, ((text.dropWhile isBlank).reverse.takeWhile isBlank).reverse,
    ?_, fun c hc => List.mem_takeWhile_imp hc,
    fun c hc => List.mem_takeWhile_imp (List.mem_reverse.mp hc)⟩
  rw [trim, List.append_assoc, ← List.reverse_append, List.takeWhile_append_dropWhile,
    List.reverse_reverse, List.takeWhile_append_dropWhile]

end Unicode

/-- The text is this integer, with nothing around it but blanks. -/
def Spelled (text : String) (i : Int) : Prop :=
  ∃ before number after, text.toList = before ++ number ++ after ∧
    (∀ c ∈ before, Unicode.isBlank c = true) ∧ (∀ c ∈ after, Unicode.isBlank c = true) ∧
    Numeral.Spells number i

theorem readInt?_trim_eq_some_iff {text : String} {i : Int} :
    Numeral.readInt? (Unicode.trim text.toList) = some i ↔ Spelled text i := by
  constructor
  · intro h
    obtain ⟨before, after, htext, hbefore, hafter⟩ := Unicode.exists_blanks text.toList
    exact ⟨before, _, after, htext, hbefore, hafter, Numeral.readInt?_eq_some_iff.mp h⟩
  · rintro ⟨before, number, after, htext, hbefore, hafter, hspells⟩
    rw [htext, Unicode.trim_append hbefore hafter (Unicode.isBlank_of_spells hspells)
      hspells.ne_nil]
    exact Numeral.readInt?_eq_some_iff.mpr hspells

/-- A text spells one integer at most. -/
theorem Spelled.unique {text : String} {i j : Int} (hi : Spelled text i) (hj : Spelled text j) :
    i = j := by
  rw [← readInt?_trim_eq_some_iff] at hi hj
  exact Option.some.inj (hi.symm.trans hj)

theorem spelled_intText (i : Int) : Spelled (String.ofList (Numeral.intText i)) i :=
  ⟨[], _, [], by rw [String.toList_ofList, List.nil_append, List.append_nil],
    List.forall_mem_nil _, List.forall_mem_nil _,
    Numeral.readInt?_eq_some_iff.mp (Numeral.readInt?_intText i)⟩

/-! ## Values -/

namespace Scalar

/-- Reading goes the same way for both types. Only what fits in 64 bits can overflow. -/
theorem read_integer {target : DataType} (htarget : target = .int ∨ target = .bigint)
    (source : DataType) (text : String) :
    read target source text =
      match Numeral.readInt? (Unicode.trim text.toList) with
      | none => .error (.conversionFailed text source target)
      | some i =>
        if Numeral.fits 64 i then orOverflow target (ofInteger? target i)
        else .error (.conversionFailed text source target) := by
  rcases htarget with rfl | rfl
  · rfl
  · simp only [read]
    cases Numeral.readInt? (Unicode.trim text.toList) with
    | none => rfl
    | some i =>
      by_cases hfits : Numeral.fits 64 i = true
      · have hscalar := ofInt64?_of_fits hfits
        simp only [Option.bind_some, if_pos hfits, ofInteger?, hscalar]
        rfl
      · have hscalar : ofInt64? i = none := ofInteger?_eq_none (.inr rfl) hfits
        simp only [Option.bind_some, if_neg hfits, hscalar]

end Scalar

namespace Value

variable {v w : Value} {type target : DataType} {text : String} {i j : Int}

/-- The value is converted to this integer, as one of the type. -/
def Gives (v : Value) (target : DataType) (i : Int) : Prop :=
  ∃ w, v.convert target = .ok w ∧ w.type = target ∧ w.Denotes i

theorem Gives.unique (hi : v.Gives target i) (hj : v.Gives target j) : i = j := by
  obtain ⟨w, hw, -, hdenotes⟩ := hi
  obtain ⟨w', hw', -, hdenotes'⟩ := hj
  obtain rfl : w = w' := Except.ok.inj (hw.symm.trans hw')
  exact hdenotes.integer_unique hdenotes'

/-- A text becomes the integer that it spells, or an overflow. It fails if it spells none, or one
that is not even a bigint. -/
theorem convert_text (htype : type.isText = true) (htarget : target = .int ∨ target = .bigint)
    (text : String) :
    convert ⟨type, some (.text text)⟩ target =
      match Numeral.readInt? (Unicode.trim text.toList) with
      | none => .error (.conversionFailed text type target)
      | some i =>
        if DataType.bigint.Represents i then ofExact target i
        else .error (.conversionFailed text type target) := by
  have hne : target ≠ type := by
    rintro rfl
    rcases htarget with rfl | rfl <;> cases htype
  have hscalar : Scalar.convert target type (.text text) = Scalar.read target type text := by
    rcases htarget with rfl | rfl <;> rfl
  simp only [convert, if_neg hne, hscalar, Scalar.read_integer htarget]
  cases Numeral.readInt? (Unicode.trim text.toList) with
  | none => rfl
  | some i =>
    have hbigint : DataType.bigint.Represents i ↔ Numeral.fits 64 i = true := Numeral.fits_iff.symm
    simp only [hbigint]
    by_cases hfits : Numeral.fits 64 i = true
    · simp only [if_pos hfits, ofExact]
      cases Scalar.orOverflow target (Scalar.ofInteger? target i) <;> rfl
    · simp only [if_neg hfits]
      rfl

/-- What becomes of a text: an integer that it spells, an overflow by one, or a failure. -/
theorem convert_text_cases (htype : type.isText = true) (htarget : target = .int ∨ target = .bigint)
    (text : String) :
    let v : Value := ⟨type, some (.text text)⟩
    (∃ i, Spelled text i ∧ target.Represents i ∧ v.Gives target i) ∨
    (∃ i, Spelled text i ∧ DataType.bigint.Represents i ∧ ¬target.Represents i ∧
      v.convert target = .error (.arithmeticOverflow target)) ∨
    (¬∃ i, Spelled text i ∧ DataType.bigint.Represents i) ∧
      v.convert target = .error (.conversionFailed text type target) := by
  intro v
  have hconvert := convert_text htype htarget text
  cases hread : Numeral.readInt? (Unicode.trim text.toList) with
  | none =>
    simp only [hread] at hconvert
    refine .inr (.inr ⟨?_, hconvert⟩)
    rintro ⟨i, hi, -⟩
    rw [readInt?_trim_eq_some_iff.mpr hi] at hread
    cases hread
  | some i =>
    have hi : Spelled text i := readInt?_trim_eq_some_iff.mp hread
    simp only [hread] at hconvert
    by_cases hbigint : DataType.bigint.Represents i
    · rw [if_pos hbigint] at hconvert
      rcases ofExact_cases htarget i with ⟨hfits, w, hw, hwtype, hdenotes⟩ | ⟨hnot, hoverflow⟩
      · exact .inl ⟨i, hi, hfits, w, hconvert.trans hw, hwtype, hdenotes⟩
      · exact .inr (.inl ⟨i, hi, hbigint, hnot, hconvert.trans hoverflow⟩)
    · rw [if_neg hbigint] at hconvert
      refine .inr (.inr ⟨?_, hconvert⟩)
      rintro ⟨j, hj, hj'⟩
      exact hbigint (hi.unique hj ▸ hj')

theorem gives_text_iff (htype : type.isText = true) (htarget : target = .int ∨ target = .bigint)
    (text : String) (i : Int) :
    Gives ⟨type, some (.text text)⟩ target i ↔ Spelled text i ∧ target.Represents i := by
  rcases convert_text_cases htype htarget text with ⟨j, hj, hfits, hgives⟩ |
    ⟨j, hj, -, hnot, hoverflow⟩ | ⟨hnone, hfailed⟩
  · exact ⟨fun h => h.unique hgives ▸ ⟨hj, hfits⟩, fun h => h.1.unique hj ▸ hgives⟩
  · refine ⟨fun ⟨w, hw, _⟩ => ?_, fun h => absurd (h.1.unique hj ▸ h.2) hnot⟩
    cases hoverflow.symm.trans hw
  · refine ⟨fun ⟨w, hw, _⟩ => ?_, fun h => absurd ⟨i, h.1, ?_⟩ hnone⟩
    · cases hfailed.symm.trans hw
    · exact DataType.represents_bigint htarget h.2

theorem convert_text_overflow_iff (htype : type.isText = true)
    (htarget : target = .int ∨ target = .bigint) (text : String) :
    convert ⟨type, some (.text text)⟩ target = .error (.arithmeticOverflow target) ↔
      ∃ i, Spelled text i ∧ DataType.bigint.Represents i ∧ ¬target.Represents i := by
  rcases convert_text_cases htype htarget text with ⟨j, hj, hfits, w, hw, -⟩ |
    ⟨j, hj, hbigint, hnot, hoverflow⟩ | ⟨hnone, hfailed⟩
  · refine ⟨fun h => ?_, fun ⟨i, hi, _, hnot⟩ => absurd (hj.unique hi ▸ hfits) hnot⟩
    cases hw.symm.trans h
  · exact ⟨fun _ => ⟨j, hj, hbigint, hnot⟩, fun _ => hoverflow⟩
  · refine ⟨fun h => ?_, fun ⟨i, hi, hbigint, _⟩ => absurd ⟨i, hi, hbigint⟩ hnone⟩
    cases hfailed.symm.trans h

theorem convert_text_failed_iff (htype : type.isText = true)
    (htarget : target = .int ∨ target = .bigint) (text : String) :
    convert ⟨type, some (.text text)⟩ target = .error (.conversionFailed text type target) ↔
      ¬∃ i, Spelled text i ∧ DataType.bigint.Represents i := by
  rcases convert_text_cases htype htarget text with ⟨j, hj, hfits, w, hw, -⟩ |
    ⟨j, hj, hbigint, -, hoverflow⟩ | ⟨hnone, hfailed⟩
  · refine ⟨fun h => ?_, fun h => absurd ⟨j, hj, DataType.represents_bigint htarget hfits⟩ h⟩
    cases hw.symm.trans h
  · refine ⟨fun h => ?_, fun h => absurd ⟨j, hj, hbigint⟩ h⟩
    cases hoverflow.symm.trans h
  · exact ⟨fun _ => hnone, fun _ => hfailed⟩

/-! ## Two ways to an int -/

/-- A text that becomes an int does so by way of a bigint too, and it becomes the same one. -/
theorem convert_text_int_iff (htype : type.isText = true) (text : String) (w : Value) :
    let v : Value := ⟨type, some (.text text)⟩
    v.convert .int = .ok w ↔ ∃ b, v.convert .bigint = .ok b ∧ b.convert .int = .ok w := by
  intro v
  have hint := convert_text htype (.inl rfl) text
  have hbigint := convert_text htype (.inr rfl) text
  rw [hint, hbigint]
  cases Numeral.readInt? (Unicode.trim text.toList) with
  | none => exact ⟨nofun, nofun⟩
  | some i =>
    by_cases hfits : DataType.bigint.Represents i
    · obtain ⟨-, b, hb, -, hbi⟩ | ⟨hnot, -⟩ := ofExact_cases (.inr rfl) i
      · simp only [if_pos hfits, hb, Except.ok.injEq, exists_eq_left', hbi.convert_eq (.inl rfl)]
      · exact absurd hfits hnot
    · simp only [if_neg hfits]
      exact ⟨nofun, nofun⟩

/-! ## Integers as texts -/

theorem Denotes.convert_text (hv : v.Denotes i) (htype : type.isText = true) :
    v.convert type = .ok ⟨type, some (.text (String.ofList (Numeral.intText i)))⟩ := by
  rcases hv.cases with ⟨n, rfl, rfl⟩ | ⟨n, rfl, rfl⟩ <;> cases type <;> cases htype <;> rfl

/-- An integer that has been made a text is read back. -/
theorem exists_text_of_integer (hv : v.isWellFormed = true) (hinteger : v.type.isInteger = true)
    (htype : type.isText = true) :
    ∃ written, v.convert type = .ok written ∧ written.convert v.type = .ok v := by
  rcases eq_null_or_denotes hv hinteger with hnull | ⟨i, hi⟩
  · rw [hnull]
    exact ⟨_, rfl, rfl⟩
  · obtain ⟨s, -, hs⟩ := id hi
    have hgives := (gives_text_iff htype hs.isInteger _ i).mpr
      ⟨spelled_intText i, Numeral.fits_iff.mp hs.fits⟩
    obtain ⟨w, hw, hwtype, hwi⟩ := hgives
    rw [hwi.unique hi hwtype] at hw
    exact ⟨_, hi.convert_text htype, hw⟩

/-- The texts that are read as integers are those that spell one, with nothing around it but
blanks. As an int, a text fails unless the integer is at least a bigint, and overflows if it is no
int; as a bigint, it never overflows. By way of a bigint it becomes the same int. Integers that are
made texts, of either type, are read back. -/
theorem integers_of_texts (htype : type.isText = true) :
    (∀ text, let v : Value := ⟨type, some (.text text)⟩
      (∀ i, v.Gives .int i ↔ Spelled text i ∧ DataType.int.Represents i) ∧
      (v.convert .int = .error (.arithmeticOverflow .int) ↔
        ∃ i, Spelled text i ∧ DataType.bigint.Represents i ∧ ¬DataType.int.Represents i) ∧
      (v.convert .int = .error (.conversionFailed text type .int) ↔
        ¬∃ i, Spelled text i ∧ DataType.bigint.Represents i) ∧
      (∀ i, v.Gives .bigint i ↔ Spelled text i ∧ DataType.bigint.Represents i) ∧
      (v.convert .bigint = .error (.conversionFailed text type .bigint) ↔
        ¬∃ i, Spelled text i ∧ DataType.bigint.Represents i) ∧
      ∀ w, v.convert .int = .ok w ↔
        ∃ b, v.convert .bigint = .ok b ∧ b.convert .int = .ok w) ∧
    ∀ v : Value, v.isWellFormed = true → v.type.isInteger = true →
      ∃ written, v.convert type = .ok written ∧ written.convert v.type = .ok v := by
  refine ⟨fun text => ⟨fun i => ?_, ?_, ?_, fun i => ?_, ?_, fun w => ?_⟩, fun v hv hinteger => ?_⟩
  · exact gives_text_iff htype (.inl rfl) text i
  · exact convert_text_overflow_iff htype (.inl rfl) text
  · exact convert_text_failed_iff htype (.inl rfl) text
  · exact gives_text_iff htype (.inr rfl) text i
  · exact convert_text_failed_iff htype (.inr rfl) text
  · exact convert_text_int_iff htype text w
  · exact exists_text_of_integer hv hinteger htype

/-- An ideographic space and a line feed around a number with a sign and zeros in front, and the
least bigint. -/
theorem integers_of_texts_of_blanks :
    DataType.nvarchar.isText = true ∧
      Gives ⟨.nvarchar, some (.text "\u3000+007\n")⟩ .int 7 ∧
      (bigint (-9223372036854775808)).isWellFormed = true ∧
      (bigint (-9223372036854775808)).type.isInteger = true ∧
      ∃ written, (bigint (-9223372036854775808)).convert .nvarchar = .ok written ∧
        written.convert .bigint = .ok (bigint (-9223372036854775808)) := by
  have hdigits : Numeral.Digits ['0', '0', '7'] 7 :=
    .snoc (.snoc (.one (d := 0) (by decide)) (d := 0) (by decide)) (d := 7) (by decide)
  have hspelled : Spelled "\u3000+007\n" 7 :=
    ⟨['\u3000'], ['+', '0', '0', '7'], ['\n'], by rfl, List.forall_mem_singleton.mpr rfl,
      List.forall_mem_singleton.mpr rfl, .plus hdigits⟩
  have hnvarchar : DataType.nvarchar.isText = true := rfl
  obtain ⟨htexts, hintegers⟩ := integers_of_texts hnvarchar
  exact ⟨hnvarchar, ((htexts _).1 7).mpr ⟨hspelled, by decide⟩, rfl, rfl, hintegers _ rfl rfl⟩

end Value
end TransactSql
