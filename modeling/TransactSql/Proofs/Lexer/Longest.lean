/-
TransactSql.Proofs.Lexer.Longest — a number is as long as it can be.

A number is written with digits, perhaps a point and digits behind it,
and perhaps an exponent behind that (`NumberText`). Where a number begins
in a text there may be several: `1`, `1.5` and `1.5e3` all begin
`1.5e3+2`, and `1` is all that begins `1.e`. The lexer cuts out the
longest.

The proof goes from part to part. A part that begins a text is not longer
than what is scanned there; and where another part follows it, it is
exactly what is scanned, so that the next part begins at the same place
(`run_at_start`, `fraction_at_start`, `exponent_at_start`).

Digits alone are an integer of the narrowest type, as far as there is one
for their value, and all else is a float (`NumberText.Reads`).
-/
import TransactSql.Proofs.Lexer.Numbers
import TransactSql.Proofs.Lexer.Tiling

namespace TransactSql

open Numeral (Digits Spells)

/-! ## Numbers as they are written -/

/-- A decimal point and digits. -/
inductive Pointed : List Char → Prop
  | mk {digits : List Char} {n : Nat} (h : Digits digits n) : Pointed ('.' :: digits)

/-- The letter `e` in either case, an optional sign and digits. -/
inductive Exponential : List Char → Prop
  | mk {mark : Char} {text : List Char} {i : Int} (hmark : mark = 'e' ∨ mark = 'E')
    (h : Spells text i) : Exponential (mark :: text)

/-- A number as it is written: digits, which write a natural number, then perhaps a point and
digits, and then perhaps an exponent. -/
structure NumberText where
  whole : List Char
  value : Nat
  fraction : List Char
  exponent : List Char
  digits : Digits whole value
  pointed : fraction = [] ∨ Pointed fraction
  exponential : exponent = [] ∨ Exponential exponent

namespace NumberText

/-- The characters of the number. -/
def text (w : NumberText) : List Char := w.whole ++ (w.fraction ++ w.exponent)

/-- The number has neither a point nor an exponent. -/
def IsWhole (w : NumberText) : Prop := w.fraction = [] ∧ w.exponent = []

/-- What the number is read as: digits alone are an integer of the narrowest type that has room for
their value, and all else is the float that its characters denote. -/
inductive Reads (w : NumberText) : Number → Prop
  | int {i : Int32} (hwhole : w.IsWhole) (hlt : w.value < 2 ^ 31) (hi : i.toInt = w.value) :
    Reads w (.int i)
  | bigint {i : Int64} (hwhole : w.IsWhole) (hle : 2 ^ 31 ≤ w.value) (hlt : w.value < 2 ^ 63)
    (hi : i.toInt = w.value) : Reads w (.bigint i)
  | large {x : Binary64} (hwhole : w.IsWhole) (hle : 2 ^ 63 ≤ w.value)
    (hx : Binary64.read? w.text = some x) : Reads w (.float x)
  | float {x : Binary64} (hparts : ¬w.IsWhole) (hx : Binary64.read? w.text = some x) :
    Reads w (.float x)

end NumberText

namespace Lexer

open Binary64.Decimal

variable {c : Char} {rest text run tail : List Char}

/-! ## Parts at the start of a text -/

/-- Digits at the start of a text are not more than are scanned there, and exactly these if
something else follows. -/
theorem run_at_start (hrun : ∀ d ∈ run, d.isDigit = true)
    (htail : ∀ d ∈ tail.head?, d.isDigit = false) (h : run ++ tail <+: text) :
    run.length ≤ runLength Char.isDigit text ∧
      (tail ≠ [] → run.length = runLength Char.isDigit text ∧ tail <+: text.drop run.length) := by
  obtain ⟨behind, rfl⟩ := h
  rw [List.append_assoc]
  have hlength : runLength Char.isDigit (run ++ (tail ++ behind)) =
      run.length + runLength Char.isDigit (tail ++ behind) := by
    rw [runLength, runLength, List.takeWhile_append_of_pos hrun, List.length_append]
  refine ⟨by omega, fun hne => ⟨?_, ?_⟩⟩
  · obtain ⟨d, tail, rfl⟩ := List.exists_cons_of_ne_nil hne
    have hd : d.isDigit = false := htail d rfl
    have hnone : runLength Char.isDigit (d :: tail ++ behind) = 0 := by simp [runLength, hd]
    omega
  · rw [List.drop_left]
    exact List.prefix_append _ _

theorem fractionLength_point (h : runLength Char.isDigit text ≠ 0) :
    fractionLength ('.' :: text) = runLength Char.isDigit text + 1 := if_neg h

/-- The same of a point and digits. -/
theorem fraction_at_start {fraction : List Char} (hfraction : fraction = [] ∨ Pointed fraction)
    (htail : ∀ d ∈ tail.head?, d.isDigit = false ∧ d ≠ '.') (h : fraction ++ tail <+: text) :
    fraction.length ≤ fractionLength text ∧
      (tail ≠ [] → fraction.length = fractionLength text ∧ tail <+: text.drop fraction.length) := by
  obtain ⟨behind, rfl⟩ := h
  rcases hfraction with rfl | hpointed
  · refine ⟨Nat.zero_le _, fun hne => ⟨?_, List.prefix_append _ _⟩⟩
    obtain ⟨d, tail, rfl⟩ := List.exists_cons_of_ne_nil hne
    refine (fractionLength_of_head?_ne ?_).symm
    simpa using (htail d rfl).2
  · cases hpointed with | @mk digits n hdigits =>
    obtain ⟨hne, hall, -⟩ := hdigits.eq_digits
    obtain ⟨hle, hexact⟩ := run_at_start hall (fun d hd => (htail d hd).1)
      (List.prefix_append (digits ++ tail) behind)
    have hpos := List.length_pos_iff.mpr hne
    rw [List.cons_append, List.cons_append, fractionLength_point (by omega), List.length_cons]
    refine ⟨Nat.succ_le_succ hle, fun htail => ?_⟩
    obtain ⟨hlength, hprefix⟩ := hexact htail
    exact ⟨congrArg (· + 1) hlength, hprefix⟩

/-- An exponent at the start of a text is not longer than what is scanned there. -/
theorem exponent_at_start {exponent : List Char} (hexponent : exponent = [] ∨ Exponential exponent)
    (h : exponent <+: text) : exponent.length ≤ exponentLength text := by
  obtain ⟨behind, rfl⟩ := h
  rcases hexponent with rfl | hexponential
  · exact Nat.zero_le _
  cases hexponential with | mk hmark hspells =>
  replace hmark := Bool.or_eq_true_iff.mpr (hmark.imp beq_iff_eq.mpr beq_iff_eq.mpr)
  -- the digits of the exponent are scanned behind its sign, if it has one
  have hrun {digits : List Char} {n : Nat} (hdigits : Digits digits n) :
      0 < digits.length ∧ digits.length ≤ runLength Char.isDigit (digits ++ behind) := by
    obtain ⟨hne, hall, -⟩ := hdigits.eq_digits
    have hprefix : digits ++ [] <+: digits ++ behind := ⟨behind, by rw [List.append_nil]⟩
    exact ⟨List.length_pos_iff.mpr hne, (run_at_start hall (by simp) hprefix).1⟩
  cases hspells with
  | unsigned hdigits =>
    obtain ⟨hne, hall, -⟩ := hdigits.eq_digits
    obtain ⟨d, digits, rfl⟩ := List.exists_cons_of_ne_nil hne
    have hd : d.isDigit = true := hall d List.mem_cons_self
    have hsign : (d == '+' || d == '-') = false := by
      rw [← Bool.not_eq_true, Bool.or_eq_true, beq_iff_eq, beq_iff_eq]
      rintro (rfl | rfl) <;> exact absurd hd (by decide)
    obtain ⟨hpos, hle⟩ := hrun hdigits
    rw [List.cons_append, List.cons_append, exponentLength_of_no_sign hmark hsign,
      ← List.cons_append, if_neg (by omega)]
    exact Nat.succ_le_succ hle
  | plus hdigits | minus hdigits =>
    obtain ⟨hpos, hle⟩ := hrun hdigits
    rw [List.cons_append, List.cons_append, exponentLength_of_sign hmark rfl, if_neg (by omega)]
    exact Nat.add_le_add_right hle 2

/-! ## What is scanned -/

theorem length_scanNumber (text : List Char) :
    let behind := text.drop (runLength Char.isDigit text)
    (scanNumber text).2 = runLength Char.isDigit text +
      (fractionLength behind + exponentLength (behind.drop (fractionLength behind))) := by
  unfold scanNumber
  dsimp only
  split <;> rw [List.drop_drop, Nat.add_assoc]

theorem pointed_take (text : List Char) :
    text.take (fractionLength text) = [] ∨ Pointed (text.take (fractionLength text)) := by
  unfold fractionLength
  split
  · next rest =>
    dsimp only
    split
    · exact .inl rfl
    · next hdigits =>
      have hne : rest.takeWhile Char.isDigit ≠ [] := fun hnil => hdigits (congrArg List.length hnil)
      rw [List.take_succ_cons, take_runLength]
      exact .inr ⟨Numeral.digits_of_isDigit hne (isDigit_takeWhile rest)⟩
  · exact .inl rfl

theorem exponential_take (text : List Char) :
    text.take (exponentLength text) = [] ∨ Exponential (text.take (exponentLength text)) := by
  have hexponent := isExponent_take text
  generalize text.take (exponentLength text) = exponent at hexponent
  cases exponent with
  | nil => exact .inl rfl
  | cons mark signed =>
    change (if mark == 'e' || mark == 'E' then Numeral.readInt? signed else none).isSome = true
      at hexponent
    split at hexponent
    · next hmark =>
      obtain ⟨i, hi⟩ := Option.isSome_iff_exists.mp hexponent
      exact .inr ⟨by simpa using hmark, Numeral.readInt?_eq_some_iff.mp hi⟩
    · cases hexponent

/-- The number that is cut out of a text where a digit is. -/
def scanned (hc : c.isDigit = true) (rest : List Char) : NumberText :=
  let text := c :: rest
  let whole := text.takeWhile Char.isDigit
  let behind := text.drop (runLength Char.isDigit text)
  let further := behind.drop (fractionLength behind)
  { whole
    value := Numeral.natValue whole
    fraction := behind.take (fractionLength behind)
    exponent := further.take (exponentLength further)
    digits := Numeral.digits_of_isDigit
      (List.ne_nil_of_length_pos (runLength_cons_pos hc rest)) (isDigit_takeWhile text)
    pointed := pointed_take behind
    exponential := exponential_take further }

theorem text_scanned (hc : c.isDigit = true) (rest : List Char) :
    (scanned hc rest).text = (c :: rest).take (scanNumber (c :: rest)).2 := by
  rw [length_scanNumber, List.take_add, List.take_add, take_runLength]
  rfl

theorem length_scanned (hc : c.isDigit = true) (rest : List Char) :
    (scanned hc rest).text.length = (scanNumber (c :: rest)).2 := by
  rw [text_scanned, List.length_take_of_le (scanNumber_le (c :: rest))]

theorem isWhole_scanned (hc : c.isDigit = true) (rest : List Char) :
    (scanned hc rest).IsWhole ↔
      fractionLength ((c :: rest).drop (runLength Char.isDigit (c :: rest))) = 0 ∧
        exponentLength ((c :: rest).drop (runLength Char.isDigit (c :: rest) +
          fractionLength ((c :: rest).drop (runLength Char.isDigit (c :: rest))))) = 0 := by
  have hnone (n : Nat) {text : List Char} (hle : n ≤ text.length) : text.take n = [] ↔ n = 0 := by
    rw [← List.length_eq_zero_iff, List.length_take_of_le hle]
  rw [← List.drop_drop]
  exact and_congr (hnone _ (fractionLength_le _)) (hnone _ (exponentLength_le _))

/-! ## The longest number -/

theorem head_of_exponential {exponent : List Char} (h : exponent = [] ∨ Exponential exponent) :
    ∀ d ∈ exponent.head?, d.isDigit = false ∧ d ≠ '.' := by
  rcases h with rfl | hexponential
  · exact nofun
  cases hexponential with | mk hmark hspells =>
  rintro _ ⟨⟩
  rcases hmark with rfl | rfl <;> decide

theorem head_of_pointed {fraction : List Char} (h : fraction = [] ∨ Pointed fraction)
    (htail : ∀ d ∈ tail.head?, d.isDigit = false) :
    ∀ d ∈ (fraction ++ tail).head?, d.isDigit = false := by
  rcases h with rfl | hpointed
  · exact htail
  cases hpointed with | mk hdigits =>
  rintro _ ⟨⟩
  rfl

/-- No number that begins a text is longer than the one that is scanned. -/
theorem length_le_scanNumber {w : NumberText} (h : w.text <+: text) :
    w.text.length ≤ (scanNumber text).2 := by
  obtain ⟨-, hall, -⟩ := w.digits.eq_digits
  have hexponent := head_of_exponential w.exponential
  rw [NumberText.text] at h
  rw [NumberText.text, length_scanNumber]
  simp only [List.length_append]
  obtain ⟨hwhole, hbehind⟩ := run_at_start hall
    (head_of_pointed w.pointed fun d hd => (hexponent d hd).1) h
  by_cases hparts : w.fraction ++ w.exponent = []
  · obtain ⟨hfraction, hnone⟩ := List.append_eq_nil_iff.mp hparts
    rw [hfraction, hnone, List.length_nil]
    omega
  obtain ⟨hlength, hprefix⟩ := hbehind hparts
  rw [hlength] at hprefix
  obtain ⟨hfraction, hfurther⟩ := fraction_at_start w.pointed hexponent hprefix
  by_cases hnone : w.exponent = []
  · rw [hnone, List.length_nil]
    omega
  obtain ⟨hlength', hprefix'⟩ := hfurther hnone
  rw [hlength'] at hprefix'
  have hlast := exponent_at_start w.exponential hprefix'
  omega

/-! ## The value -/

/-- Digits alone are an integer of the narrowest type that has room for it. -/
theorem reads_narrowest {w : NumberText} (hwhole : w.IsWhole) {x : Binary64}
    (hx : Binary64.read? w.text = some x) : w.Reads (narrowest w.value w.text) := by
  have hint : Numeral.fits 32 w.value = true ↔ w.value < 2 ^ 31 :=
    Numeral.fits_32_iff.trans (by omega)
  have hbigint : Numeral.fits 64 w.value = true ↔ w.value < 2 ^ 63 :=
    Numeral.fits_64_iff.trans (by omega)
  by_cases hsmall : w.value < 2 ^ 31
  · have hi : Numeral.int32? w.value = some (Int32.ofInt w.value) := if_pos (hint.mpr hsmall)
    rw [narrowest, hi]
    exact .int hwhole hsmall (Int32.toInt_ofInt_of_le (by omega) (by omega))
  have hnone : Numeral.int32? w.value = none := if_neg fun hfits => hsmall (hint.mp hfits)
  by_cases hlarge : w.value < 2 ^ 63
  · have hi : Numeral.int64? w.value = some (Int64.ofInt w.value) := if_pos (hbigint.mpr hlarge)
    rw [narrowest, hnone, hi]
    exact .bigint hwhole (by omega) hlarge (Int64.toInt_ofInt_of_le (by omega) (by omega))
  · have hnone' : Numeral.int64? w.value = none := if_neg fun hfits => hlarge (hbigint.mp hfits)
    rw [narrowest, hnone, hnone', hx, Option.getD_some]
    exact .large hwhole (by omega) hx

theorem wholeNumber_text {w : NumberText} (hwhole : w.IsWhole) :
    wholeNumber w.text = narrowest w.value w.text := by
  have htext : w.text = w.whole := by
    rw [NumberText.text, hwhole.1, hwhole.2, List.append_nil, List.append_nil]
  rw [wholeNumber_eq, htext, w.digits.eq_digits.2.2]

/-- Digits alone are scanned as a whole number, and all else as a float. -/
theorem scanNumber_cases (hc : c.isDigit = true) (rest : List Char) :
    ((scanned hc rest).IsWhole ∧
        (scanNumber (c :: rest)).1 = .number (wholeNumber (scanned hc rest).text)) ∨
      ¬(scanned hc rest).IsWhole ∧ (scanNumber (c :: rest)).1 = .number
        (.float ((Binary64.read? (scanned hc rest).text).getD Binary64.infinity)) := by
  rw [isWhole_scanned, text_scanned]
  unfold scanNumber
  dsimp only
  split
  · next hwhole => exact .inl ⟨hwhole, rfl⟩
  · next hparts => exact .inr ⟨hparts, rfl⟩

/-- What is cut out of a text is read as what it is written as. -/
theorem reads_scanned (hc : c.isDigit = true) (rest : List Char) :
    ∃ number, (scanNumber (c :: rest)).1 = .number number ∧ (scanned hc rest).Reads number := by
  have hdenotes := denotes?_of_scanNumber hc (Prod.eta (scanNumber (c :: rest))).symm
  rw [← text_scanned hc] at hdenotes
  obtain ⟨q, hq⟩ := hdenotes
  obtain ⟨x, hx, -⟩ := Binary64.isFinite_of_denotes? hq
  rcases scanNumber_cases hc rest with ⟨hwhole, hnumber⟩ | ⟨hparts, hnumber⟩
  · rw [wholeNumber_text hwhole] at hnumber
    exact ⟨_, hnumber, reads_narrowest hwhole hx⟩
  · rw [hx, Option.getD_some] at hnumber
    exact ⟨_, hnumber, .float hparts hx⟩

/-! ## Numbers in a text -/

/-- Before a digit a lexer yields a number, since no failure is there. -/
theorem StandsIn.next_of_digit {l : Lexer} (h : StandsIn text l) (hc : c.isDigit = true)
    (hrest : l.rest = c :: rest) {number : Number}
    (hnumber : (scanNumber (c :: rest)).1 = .number number) :
    l.next = (some (.ok ⟨.number number, String.ofList (scanned hc rest).text, l.position⟩),
      ⟨l.rest.drop (scanned hc rest).text.length,
        l.position + (scanned hc rest).text.length, false⟩) := by
  have hscan : scan l.position c rest = .ok (.number number, (scanNumber (c :: rest)).2) := by
    rw [scan_digit _ _ hc, ← hnumber]
  have hfailed : l.failed = false := by
    rw [← Bool.not_eq_true]
    intro hfailed
    obtain ⟨c', rest', e, hrest', herror⟩ := h.scan_error hfailed
    cases hrest.symm.trans hrest'
    cases hscan.symm.trans herror
  rw [length_scanned, text_scanned, hrest, Lexer.next, hfailed, hrest]
  simp only [hscan, Bool.false_eq_true, if_false]

/-- However often a lexer has been asked for a token, where it then stands before a digit it yields
a number. The characters of the number are the longest ones that begin the rest of the text and are
written as a number, and its value is what is written with them; the next token begins behind
them. -/
theorem next_longest_number (text : String) (calls : Nat) (hc : c.isDigit = true)
    (hrest : text.toList.drop ((ofText text).after calls).position = c :: rest) :
    ∃ (w : NumberText) (number : Number),
      ((ofText text).after calls).next =
        (some (.ok ⟨.number number, String.ofList w.text, ((ofText text).after calls).position⟩),
          ⟨(c :: rest).drop w.text.length,
            ((ofText text).after calls).position + w.text.length, false⟩) ∧
      w.text <+: c :: rest ∧
      (∀ other : NumberText, other.text <+: c :: rest → other.text.length ≤ w.text.length) ∧
      w.Reads number := by
  have hstands := standsIn_after text calls
  generalize (ofText text).after calls = l at hrest hstands
  rw [← hstands.rest_eq] at hrest
  obtain ⟨number, hnumber, hreads⟩ := reads_scanned hc rest
  refine ⟨scanned hc rest, number, hrest ▸ hstands.next_of_digit hc hrest hnumber, ?_,
    fun other hother => ?_, hreads⟩
  · rw [text_scanned]
    exact List.take_prefix _ _
  · rw [length_scanned]
    exact length_le_scanNumber hother

/-- Behind a point and the mark of an exponent there are no digits, and so neither belongs to the
number. -/
theorem next_longest_number_of_lone_marks :
    let l := (ofText "SELECT 007.e+").after 2
    '0'.isDigit = true ∧
      "SELECT 007.e+".toList.drop l.position = ['0', '0', '7', '.', 'e', '+'] ∧
      l.next.1 = some (.ok ⟨.number (.int 7), "007", 7⟩) ∧
      ∃ (w : NumberText) (number : Number),
        l.next = (some (.ok ⟨.number number, String.ofList w.text, l.position⟩),
          ⟨['0', '0', '7', '.', 'e', '+'].drop w.text.length, l.position + w.text.length, false⟩) ∧
        w.text <+: ['0', '0', '7', '.', 'e', '+'] ∧
        (∀ other : NumberText, other.text <+: ['0', '0', '7', '.', 'e', '+'] →
          other.text.length ≤ w.text.length) ∧
        w.Reads number := by
  intro l
  have hrest : "SELECT 007.e+".toList.drop l.position = ['0', '0', '7', '.', 'e', '+'] := by
    decide +kernel
  exact ⟨by decide, hrest, by decide +kernel,
    next_longest_number "SELECT 007.e+" 2 (by decide) hrest⟩

end Lexer
end TransactSql
