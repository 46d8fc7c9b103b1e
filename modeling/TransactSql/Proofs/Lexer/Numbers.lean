/-
TransactSql.Proofs.Lexer.Numbers — the numbers of a text.

A number begins with a digit, and it is cut out of the text as a decimal:
digits, perhaps a fraction, and perhaps an exponent, each of which is
taken whole or not at all (`denotes?_of_scanNumber`). A float is the word that
this decimal is read as, so it is finite exactly if the number that is
written does not overflow (`float_of_token`). What overflows is not
refused; it is read as an infinity.
-/
import TransactSql.Proofs.Binary64.Decimals
import TransactSql.Proofs.Lexer.Significant
import TransactSql.Proofs.Statement.Values

namespace TransactSql

open Binary64 (denotes? Overflows)

namespace Lexer

open Binary64.Decimal

variable {c : Char} {rest text : List Char} {kind : TokenKind} {position length : Nat} {t : Token}

/-! ## What is cut out -/

theorem take_runLength (p : Char → Bool) (text : List Char) :
    text.take (runLength p text) = text.takeWhile p :=
  List.prefix_iff_eq_take.mp (List.takeWhile_prefix p) |>.symm

theorem isFraction_take (text : List Char) : IsFraction (text.take (fractionLength text)) := by
  unfold fractionLength
  split
  · next rest =>
    dsimp only
    split
    · exact .inl rfl
    · rw [List.take_succ_cons, take_runLength]
      exact .inr ⟨_, rfl, isDigit_takeWhile rest⟩
  · exact .inl rfl

theorem isSome_readNat? {text : List Char} (h : runLength Char.isDigit text ≠ 0) :
    (Numeral.readNat? (text.takeWhile Char.isDigit)).isSome = true := by
  have hnonempty : text.takeWhile Char.isDigit ≠ [] := fun hnil => h (congrArg List.length hnil)
  rw [Numeral.readNat?_eq_some_iff.mpr
    (Numeral.digits_of_isDigit hnonempty (isDigit_takeWhile text)), Option.isSome_some]

theorem isExponent_take (text : List Char) : IsExponent (text.take (exponentLength text)) := by
  rcases text with _ | ⟨c, _ | ⟨d, text⟩⟩
  · rfl
  · simp [exponentLength, runLength, IsExponent, readExponent?]
  cases hc : c == 'e' || c == 'E' with
  | false =>
    simp only [exponentLength, hc, Bool.false_eq_true, if_false]
    rfl
  | true =>
    cases hd : d == '+' || d == '-' with
    | true =>
      rw [exponentLength_of_sign hc hd]
      split
      · rfl
      · next hdigits =>
        rw [List.take_succ_cons, List.take_succ_cons, take_runLength, IsExponent, readExponent?,
          if_pos hc]
        have hsome := isSome_readNat? hdigits
        rcases Bool.or_eq_true_iff.mp hd with hd | hd <;> rw [eq_of_beq hd, Numeral.readInt?] <;>
          simpa using hsome
    | false =>
      rw [exponentLength_of_no_sign hc hd]
      split
      · rfl
      · next hdigits =>
        have hsome := isSome_readNat? hdigits
        have hdigit : d.isDigit = true := by
          by_contra hdigit
          exact hdigits (by simp [runLength, hdigit])
        rw [List.takeWhile_cons_of_pos hdigit] at hsome
        rw [List.take_succ_cons, take_runLength, IsExponent, readExponent?, if_pos hc,
          List.takeWhile_cons_of_pos hdigit, Numeral.readInt?_of_isDigit hdigit]
        simpa using hsome

/-- A number is cut out behind its digits, its fraction and its exponent. -/
theorem take_scanNumber (h : scanNumber text = (kind, length)) :
    ∃ fraction exponent, IsFraction fraction ∧ IsExponent exponent ∧
      text.take length = text.takeWhile Char.isDigit ++ (fraction ++ exponent) := by
  let behind := text.drop (runLength Char.isDigit text)
  have hlength : length = runLength Char.isDigit text +
      (fractionLength behind + exponentLength (behind.drop (fractionLength behind))) := by
    unfold scanNumber at h
    dsimp only at h
    split at h <;> cases h <;> rw [List.drop_drop, Nat.add_assoc]
  refine ⟨_, _, isFraction_take behind, isExponent_take (behind.drop (fractionLength behind)), ?_⟩
  rw [hlength, List.take_add, List.take_add, take_runLength]

/-- The characters of a number are a decimal. -/
theorem denotes?_of_scanNumber (hc : c.isDigit = true)
    (h : scanNumber (c :: rest) = (kind, length)) :
    ∃ q, denotes? ((c :: rest).take length) = some q := by
  obtain ⟨fraction, exponent, hfraction, hexponent, hparts⟩ := take_scanNumber h
  rw [List.takeWhile_cons_of_pos hc] at hparts
  have hdigits : ∀ d ∈ c :: rest.takeWhile Char.isDigit, d.isDigit = true :=
    List.forall_mem_cons.mpr ⟨hc, isDigit_takeWhile rest⟩
  have hread := isSome_read? (List.cons_ne_nil _ _) hdigits hfraction hexponent
  obtain ⟨d, hd⟩ := Option.isSome_iff_exists.mp hread
  have hminus : c ≠ '-' := by rintro rfl; exact absurd hc (by decide)
  have hplus : c ≠ '+' := by rintro rfl; exact absurd hc (by decide)
  refine ⟨d.value, ?_⟩
  rw [List.cons_append] at hd
  rw [hparts, List.cons_append]
  simp [denotes?, hminus, hplus, hd]

theorem float_of_narrowest {n : Int} {digits : List Char} {x : Binary64}
    (h : narrowest n digits = .float x) :
    x = (Binary64.read? digits).getD Binary64.infinity := by
  unfold narrowest at h
  split at h
  · cases h
  · cases h
  · exact (Number.float.inj h).symm

theorem float_of_scanNumber {x : Binary64} (h : scanNumber text = (.number (.float x), length)) :
    x = (Binary64.read? (text.take length)).getD Binary64.infinity := by
  unfold scanNumber at h
  dsimp only at h
  split at h
  · obtain ⟨hkind, rfl⟩ := Prod.mk.inj h
    exact float_of_narrowest ((wholeNumber_eq _).symm.trans (TokenKind.number.inj hkind))
  · obtain ⟨hkind, rfl⟩ := Prod.mk.inj h
    exact (Number.float.inj (TokenKind.number.inj hkind)).symm

theorem not_number_of_scanQuotation {close : Char} {before : Nat} {make : String → TokenKind}
    {number : Number} (hmake : ∀ text, make text ≠ .number number) :
    scanQuotation close before make text ≠ .ok (.number number, length) := by
  intro h
  dsimp only [scanQuotation] at h
  split at h
  · exact hmake _ (Prod.mk.inj (Except.ok.inj h)).1
  · cases h

/-- Only a digit begins a number. -/
theorem number_of_scan {number : Number}
    (h : scan position c rest = .ok (.number number, length)) :
    c.isDigit = true ∧ scanNumber (c :: rest) = (.number number, length) := by
  rcases sort_cases c with hspace | rfl | rfl | hdigit | rfl | rfl | rfl | hplain
  · rw [scan_space _ _ hspace] at h
    cases h
  · rcases rest with _ | ⟨d, rest⟩
    · cases h
    by_cases hd : d = '-'
    · subst hd
      rw [scan_lineComment] at h
      cases h
    · rw [scan_minus _ _ hd] at h
      cases h
  · by_cases hopen : rest.head? = some '*'
    · obtain ⟨rest, rfl⟩ := List.head?_eq_some_iff.mp hopen
      rw [scan_blockComment] at h
      split at h <;> cases h
    · rw [scan_slash _ _ hopen] at h
      cases h
  · rw [scan_digit _ _ hdigit] at h
    exact ⟨hdigit, Except.ok.inj h⟩
  · change scanVariable position rest = _ at h
    dsimp only [scanVariable] at h
    repeat' split at h
    all_goals cases h
  · rw [scan_bracket] at h
    exact absurd h (not_number_of_scanQuotation fun _ => TokenKind.noConfusion)
  · rw [scan_quote] at h
    exact absurd h (not_number_of_scanQuotation fun _ => TokenKind.noConfusion)
  cases hname : isNameStart c with
  | true =>
    by_cases hnational : (c = 'N' ∨ c = 'n') ∧ rest.head? = some '\''
    · obtain ⟨rest, rfl⟩ := List.head?_eq_some_iff.mp hnational.2
      rw [scan_national _ _ hnational.1] at h
      exact absurd h (not_number_of_scanQuotation fun _ => TokenKind.noConfusion)
    · rw [scan_word _ _ hplain hname hnational, scanWord] at h
      split at h <;> cases h
  | false =>
    rw [scan_mark _ _ hplain hname] at h
    repeat' split at h
    all_goals cases h

/-- A token is scanned at its place. -/
theorem scan_of_mem_tokens (h : t ∈ (⟨text, position, false⟩ : Lexer).tokens.1) :
    ∃ c rest length, scan t.position c rest = .ok (t.kind, length) ∧
      t.literal.toList = (c :: rest).take length := by
  induction hn : text.length using Nat.strongRecOn generalizing text position with
  | ind n ih =>
    rcases text_cases position text with rfl | ⟨c, rest, e, rfl, hscan⟩ |
      ⟨c, first, rest, kind, rfl, hscan⟩
    · rw [tokens_nil] at h
      cases h
    · rw [tokens_of_error hscan] at h
      cases h
    · rw [tokens_of_scan hscan] at h
      rcases List.mem_cons.mp h with rfl | h
      · refine ⟨c, first ++ rest, first.length + 1, hscan, ?_⟩
        rw [String.toList_ofList, List.take_succ_cons, List.take_left]
      · exact ih rest.length (hn ▸ length_lt_of_token c first rest) h rfl

/-- A float in a text is the decimal number that is written there, rounded, and infinite if that
overflows. -/
theorem float_of_token {text : String} {x : Binary64} (h : t ∈ (ofText text).tokens.1)
    (hkind : t.kind = .number (.float x)) :
    ∃ q, denotes? t.literal.toList = some q ∧ (x.isFinite = true ↔ ¬Overflows q) := by
  obtain ⟨c, rest, length, hscan, hliteral⟩ := scan_of_mem_tokens h
  rw [hkind] at hscan
  obtain ⟨hc, hnumber⟩ := number_of_scan hscan
  obtain ⟨q, hq⟩ := denotes?_of_scanNumber hc hnumber
  obtain ⟨y, hy, hfinite⟩ := Binary64.isFinite_of_denotes? hq
  obtain rfl : x = y := by rw [float_of_scanNumber hnumber, hy, Option.getD_some]
  exact ⟨q, by rw [hliteral, hq], hfinite⟩

end Lexer
end TransactSql
