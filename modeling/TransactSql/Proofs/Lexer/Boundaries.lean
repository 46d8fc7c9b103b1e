/-
TransactSql.Proofs.Lexer.Boundaries — where a token ends.

No token but white space and a comment goes on behind a blank, a comma, a
parenthesis or a semicolon, the separators; and none but those goes on
behind a character with which a comment begins, but for two things. A
minus sign makes a comment with another one, and it may be the sign of an
exponent whose mark stands before it. So what a token is does not depend
on what is behind the character that ends it (`scan_behind`, and
`scan_cut` for separators): a text may be exchanged from there on.

`scan` is a chain of tests on the first character. The equations at the
start go through it once, one for each sort of character, so that no
proof further on has to.
-/
import TransactSql.Lexer

namespace TransactSql

namespace Lexer

/-! ## The sorts of first characters -/

section Sorts

variable {c : Char} (position : Nat) (rest : List Char)

theorem isSpace_iff : isSpace c = true ↔ c = ' ' ∨ c = '\t' ∨ c = '\r' ∨ c = '\n' := by
  simp [isSpace, or_assoc]

theorem isSpace_of_isDigit (h : c.isDigit = true) : isSpace c = false := by
  rw [← Bool.not_eq_true, isSpace_iff]
  rintro (rfl | rfl | rfl | rfl) <;> exact absurd h (by decide)

theorem scan_space (h : isSpace c = true) :
    scan position c rest = .ok (.whitespace, runLength isSpace rest + 1) := by
  rw [scan, if_pos h, runLength_cons h]

theorem scan_lineComment (rest : List Char) :
    scan position '-' ('-' :: rest) =
      .ok (.comment, runLength (fun d => !isLineBreak d) ('-' :: rest) + 1) := by
  have hmark : (!isLineBreak '-') = true := by decide
  rw [← runLength_cons hmark]
  rfl

theorem scan_minus {d : Char} (h : d ≠ '-') :
    scan position '-' (d :: rest) = .ok (.operator '-', 1) := by
  simp only [scan, List.head?_cons, Option.some.injEq, h, and_false, reduceCtorEq, if_false]
  rfl

theorem scan_blockComment :
    scan position '/' ('*' :: rest) =
      match blockCommentLength? 1 rest with
      | some length => .ok (.comment, length + 2)
      | none => .error .missingEndCommentMark := rfl

theorem scan_slash (h : rest.head? ≠ some '*') :
    scan position '/' rest = .ok (.operator '/', 1) := by
  simp only [scan, h, and_false, if_false]
  rfl

theorem scan_digit (h : c.isDigit = true) :
    scan position c rest = .ok (scanNumber (c :: rest)) := by
  have hminus : c ≠ '-' := by rintro rfl; exact absurd h (by decide)
  have hslash : c ≠ '/' := by rintro rfl; exact absurd h (by decide)
  simp only [scan, isSpace_of_isDigit h, hminus, hslash, h, false_and, if_false, if_true,
    Bool.false_eq_true]

theorem scan_bracket : scan position '[' rest = scanQuotation ']' 1 .bracketed rest := rfl

theorem scan_quote : scan position '\'' rest = scanQuotation '\'' 1 (.quoted · false) rest := rfl

theorem scan_national (h : c = 'N' ∨ c = 'n') :
    scan position c ('\'' :: rest) = scanQuotation '\'' 2 (.quoted · true) rest := by
  rcases h with rfl | rfl <;> rfl

theorem scanVariable_single (position : Nat) {text : List Char} (h : text.head? ≠ some '@') :
    scanVariable position text =
      if runLength isNamePart text = 0 then .error (.unexpectedCharacter '@' position)
      else .ok (.parameter (String.ofList (text.take (runLength isNamePart text))),
        runLength isNamePart text + 1) := by
  have hdouble : (text.head? == some '@') = false := by simpa using h
  simp only [scanVariable, hdouble, Bool.false_eq_true, if_false]

theorem scanVariable_double (position : Nat) (text : List Char) :
    scanVariable position ('@' :: text) =
      if runLength isNamePart text = 0 then .error (.unexpectedCharacter '@' position)
      else .ok (.systemVariable (String.ofList (text.take (runLength isNamePart text))),
        runLength isNamePart text + 2) := rfl

/-- The character begins nothing but a name, a mark or an operator, apart from national texts. -/
structure IsPlain (c : Char) : Prop where
  space : isSpace c = false
  minus : c ≠ '-'
  slash : c ≠ '/'
  digit : c.isDigit = false
  commercialAt : c ≠ '@'
  bracket : c ≠ '['
  quote : c ≠ '\''

/-- The sorts of first characters. -/
theorem sort_cases (c : Char) : isSpace c = true ∨ c = '-' ∨ c = '/' ∨ c.isDigit = true ∨ c = '@' ∨
    c = '[' ∨ c = '\'' ∨ IsPlain c := by
  by_cases hspace : isSpace c = true
  · exact .inl hspace
  by_cases hdigit : c.isDigit = true
  · simp [hdigit]
  by_cases hmark : c = '-' ∨ c = '/' ∨ c = '@' ∨ c = '[' ∨ c = '\''
  · rcases hmark with h | h | h | h | h <;> simp [h]
  · simp only [not_or] at hmark
    obtain ⟨hminus, hslash, hat, hbracket, hquote⟩ := hmark
    have hplain : IsPlain c :=
      ⟨by simpa using hspace, hminus, hslash, by simpa using hdigit, hat, hbracket, hquote⟩
    simp [hplain]

theorem scan_word (h : IsPlain c) (hname : isNameStart c = true)
    (hnational : ¬((c = 'N' ∨ c = 'n') ∧ rest.head? = some '\'')) :
    scan position c rest = .ok (scanWord (c :: rest)) := by
  simp only [scan, h.space, h.minus, h.slash, h.digit, h.commercialAt, h.bracket, h.quote, hname,
    hnational, false_and, if_false, if_true, Bool.false_eq_true]

/-- The tokens that are one character by themselves. -/
theorem scan_mark (h : IsPlain c) (hname : isNameStart c = false) :
    scan position c rest =
      if c = ',' then .ok (.comma, 1)
      else if c = '(' then .ok (.openParen, 1)
      else if c = ')' then .ok (.closeParen, 1)
      else if c = ';' then .ok (.terminator, 1)
      else if isOperatorSymbol c then .ok (.operator c, 1)
      else .error (.unexpectedCharacter c position) := by
  have hN : c ≠ 'N' := by rintro rfl; exact absurd hname (by decide +kernel)
  have hn : c ≠ 'n' := by rintro rfl; exact absurd hname (by decide +kernel)
  simp only [scan, h.space, h.minus, h.slash, h.digit, h.commercialAt, h.bracket, h.quote, hname,
    hN, hn, or_self, false_and, if_false, Bool.false_eq_true]

end Sorts

/-! ## The length of a token -/

section Length

theorem runLength_le (p : Char → Bool) (text : List Char) : runLength p text ≤ text.length :=
  (List.takeWhile_prefix p).length_le

theorem fractionLength_le (text : List Char) : fractionLength text ≤ text.length := by
  unfold fractionLength
  split
  · rename_i rest
    have hrun := runLength_le Char.isDigit rest
    dsimp only
    split <;> simp only [List.length_cons] <;> omega
  · exact Nat.zero_le _

theorem exponentLength_of_sign {c d : Char} (hc : (c == 'e' || c == 'E') = true)
    (hd : (d == '+' || d == '-') = true) (text : List Char) :
    exponentLength (c :: d :: text) =
      if runLength Char.isDigit text = 0 then 0 else runLength Char.isDigit text + 2 := by
  simp only [exponentLength, if_pos hc, if_pos hd, List.drop_succ_cons, List.drop_zero]

theorem exponentLength_of_no_sign {c d : Char} (hc : (c == 'e' || c == 'E') = true)
    (hd : (d == '+' || d == '-') = false) (text : List Char) :
    exponentLength (c :: d :: text) =
      if runLength Char.isDigit (d :: text) = 0 then 0
      else runLength Char.isDigit (d :: text) + 1 := by
  simp only [exponentLength, if_pos hc, hd, Bool.false_eq_true, if_false, List.drop_zero,
    Nat.add_zero]

theorem exponentLength_le (text : List Char) : exponentLength text ≤ text.length := by
  rcases text with _ | ⟨c, _ | ⟨d, text⟩⟩
  · exact Nat.le_refl _
  · simp [exponentLength, runLength]
  cases hc : c == 'e' || c == 'E' with
  | false => simp only [exponentLength, hc, Bool.false_eq_true, if_false, Nat.zero_le]
  | true =>
    cases hd : d == '+' || d == '-' with
    | true =>
      have hrun := runLength_le Char.isDigit text
      rw [exponentLength_of_sign hc hd]
      split <;> simp only [List.length_cons] <;> omega
    | false =>
      have hrun := runLength_le Char.isDigit (d :: text)
      rw [exponentLength_of_no_sign hc hd]
      simp only [List.length_cons] at hrun ⊢
      split <;> omega

theorem scanNumber_le (text : List Char) : (scanNumber text).2 ≤ text.length := by
  simp only [scanNumber]
  have hwhole := runLength_le Char.isDigit text
  generalize runLength Char.isDigit text = whole at hwhole ⊢
  have hfraction := fractionLength_le (text.drop whole)
  generalize fractionLength (text.drop whole) = fraction at hfraction ⊢
  have hexponent := exponentLength_le (text.drop (whole + fraction))
  generalize exponentLength (text.drop (whole + fraction)) = exponent at hexponent ⊢
  rw [List.length_drop] at hfraction hexponent
  split <;> dsimp only <;> omega

theorem scanWord_le (text : List Char) : (scanWord text).2 ≤ text.length := by
  dsimp only [scanWord]
  split <;> exact runLength_le _ _

theorem blockCommentLength?_le {depth length : Nat} {text : List Char}
    (h : blockCommentLength? depth text = some length) : length ≤ text.length := by
  fun_induction blockCommentLength? depth text generalizing length with
  | case1 => cases h
  | case2 _ _ ih =>
    obtain ⟨m, hm, rfl⟩ := Option.map_eq_some_iff.mp h
    exact Nat.add_le_add_right (ih hm) 2
  | case3 =>
    cases h
    simp
  | case4 _ _ _ ih =>
    obtain ⟨m, hm, rfl⟩ := Option.map_eq_some_iff.mp h
    exact Nat.add_le_add_right (ih hm) 2
  | case5 _ _ _ _ _ ih =>
    obtain ⟨m, hm, rfl⟩ := Option.map_eq_some_iff.mp h
    exact Nat.add_le_add_right (ih hm) 1

theorem quotation_length_le {close : Char} {length : Nat} {text : List Char}
    (h : (quotation close text).length? = some length) : length ≤ text.length := by
  fun_induction quotation close text generalizing length with
  | case1 => cases h
  | case2 => cases h; exact Nat.le_refl _
  | case3 => cases h
  | case4 _ ih =>
    obtain ⟨m, hm, rfl⟩ := Option.map_eq_some_iff.mp h
    exact Nat.add_le_add_right (ih hm) 2
  | case5 => cases h; simp
  | case6 _ _ _ _ ih =>
    obtain ⟨m, hm, rfl⟩ := Option.map_eq_some_iff.mp h
    exact Nat.add_le_add_right (ih hm) 1

theorem scanQuotation_le {close : Char} {before length : Nat} {kind : String → TokenKind}
    {answer : TokenKind} {text : List Char}
    (h : scanQuotation close before kind text = .ok (answer, length)) :
    before ≤ length ∧ length ≤ before + text.length := by
  dsimp only [scanQuotation] at h
  split at h
  · rename_i length hlength
    cases h
    exact ⟨Nat.le_add_right _ _, Nat.add_le_add_left (quotation_length_le hlength) _⟩
  · cases h

theorem scanVariable_le {position length : Nat} {kind : TokenKind} {text : List Char}
    (h : scanVariable position text = .ok (kind, length)) : length ≤ text.length + 1 := by
  by_cases hhead : text.head? = some '@'
  · obtain ⟨text, rfl⟩ := List.head?_eq_some_iff.mp hhead
    rw [scanVariable_double] at h
    split at h <;> cases h
    exact Nat.add_le_add_right (runLength_le _ _) 2
  · rw [scanVariable_single _ hhead] at h
    split at h <;> cases h
    exact Nat.add_le_add_right (runLength_le _ _) 1

/-- A token has no more characters than there are. -/
theorem scan_le {position length : Nat} {c : Char} {rest : List Char} {kind : TokenKind}
    (h : scan position c rest = .ok (kind, length)) : length ≤ (c :: rest).length := by
  have hone : 1 ≤ (c :: rest).length := Nat.succ_pos _
  rcases sort_cases c with hspace | rfl | rfl | hdigit | rfl | rfl | rfl | hplain
  · rw [scan_space _ _ hspace] at h
    cases h
    exact Nat.succ_le_succ (runLength_le _ _)
  · rcases rest with _ | ⟨d, rest⟩
    · cases h
    by_cases hd : d = '-'
    · subst hd
      rw [scan_lineComment] at h
      cases h
      exact Nat.succ_le_succ (runLength_le _ _)
    · rw [scan_minus _ _ hd] at h
      cases h
      exact hone
  · by_cases hopen : rest.head? = some '*'
    · obtain ⟨rest, rfl⟩ := List.head?_eq_some_iff.mp hopen
      rw [scan_blockComment] at h
      split at h
      · rename_i length hlength
        cases h
        exact Nat.add_le_add_right (blockCommentLength?_le hlength) 2
      · cases h
    · rw [scan_slash _ _ hopen] at h
      cases h
      exact hone
  · rw [scan_digit _ _ hdigit, Except.ok.injEq] at h
    have hle := scanNumber_le (c :: rest)
    rwa [h] at hle
  · exact scanVariable_le h
  · rw [scan_bracket] at h
    simpa [Nat.add_comm] using (scanQuotation_le h).2
  · rw [scan_quote] at h
    simpa [Nat.add_comm] using (scanQuotation_le h).2
  cases hname : isNameStart c with
  | true =>
    by_cases hnational : (c = 'N' ∨ c = 'n') ∧ rest.head? = some '\''
    · obtain ⟨rest, rfl⟩ := List.head?_eq_some_iff.mp hnational.2
      rw [scan_national _ _ hnational.1] at h
      have hle := (scanQuotation_le h).2
      simp only [List.length_cons]
      omega
    · rw [scan_word _ _ hplain hname hnational, Except.ok.injEq] at h
      have hle := scanWord_le (c :: rest)
      rwa [h] at hle
  | false =>
    rw [scan_mark _ _ hplain hname] at h
    repeat' split at h
    all_goals cases h
    all_goals exact hone

end Length

/-! ## Cutting a text behind a token -/

/-- The characters that end a token and begin no other but white space and punctuation. -/
def separators : List Char := [' ', '\t', '\r', '\n', ',', '(', ')', ';']

/-- The characters that end a token if it is no comment: those with which a comment can begin end
one too. -/
def stops : List Char := '-' :: '/' :: separators

/-- The text is empty, or it begins with a character that ends a token. -/
def Stops (text : List Char) : Prop := ∀ d ∈ text.head?, d ∈ stops

/-- What is true of none of some characters. -/
theorem not_of_mem {d : Char} {ds : List Char} (hd : d ∈ ds) {p : Char → Bool}
    (h : ds.any p = false) : p d = false := by
  rw [← Bool.not_eq_true]
  intro hp
  rw [List.any_eq_true.mpr ⟨d, hd, hp⟩] at h
  cases h

theorem Stops.not {text : List Char} (htext : Stops text) {p : Char → Bool}
    (h : stops.any p = false) : ∀ d ∈ text.head?, p d = false :=
  fun d hd => not_of_mem (htext d hd) h

theorem Stops.head?_ne {text : List Char} (htext : Stops text) {c : Char} (hc : c ∉ stops) :
    text.head? ≠ some c :=
  fun h => hc (htext c h)

theorem stops_of_separator {sep : Char} (hsep : sep ∈ separators) (text : List Char) :
    Stops (sep :: text) := by
  intro d hd
  obtain rfl := Option.some.inj hd
  exact List.mem_cons_of_mem _ (List.mem_cons_of_mem _ hsep)

section Cut

variable {first rest behind : List Char}

/-- A run that ends in the first part of a text ends there whatever follows, if that part ends the
run or a character does that follows it. -/
theorem runLength_cut {p : Char → Bool} (h : runLength p (first ++ rest) ≤ first.length)
    (hends : (∀ d ∈ behind.head?, p d = false) ∨ ∃ d ∈ rest.head?, p d = true) :
    runLength p (first ++ behind) = runLength p (first ++ rest) := by
  induction first with
  | nil =>
    have hnone : runLength p rest = 0 := Nat.le_zero.mp h
    rcases hends with hbehind | ⟨d, hd, hp⟩
    · have hends : runLength p behind = 0 := by
        cases behind with
        | nil => rfl
        | cons d behind => simp [runLength, hbehind d rfl]
      exact hends.trans hnone.symm
    · obtain ⟨rest, rfl⟩ := List.head?_eq_some_iff.mp hd
      simp [runLength, hp] at hnone
  | cons c first ih =>
    cases hc : p c with
    | false => simp [runLength, hc]
    | true =>
      simp only [runLength, List.cons_append, List.takeWhile_cons, hc, if_true, List.length_cons,
        Nat.add_le_add_iff_right, Nat.add_right_cancel_iff] at h ⊢
      exact ih h

theorem fractionLength_of_head?_ne {text : List Char} (h : text.head? ≠ some '.') :
    fractionLength text = 0 := by
  unfold fractionLength
  split
  · exact absurd rfl h
  · rfl

theorem fractionLength_cut (h : fractionLength (first ++ rest) ≤ first.length)
    (hbehind : Stops behind) :
    fractionLength (first ++ behind) = fractionLength (first ++ rest) := by
  cases first with
  | nil =>
    have hnone : fractionLength rest = 0 := Nat.le_zero.mp h
    rw [List.nil_append, List.nil_append, hnone]
    exact fractionLength_of_head?_ne (hbehind.head?_ne (by decide))
  | cons c first =>
    by_cases hc : c = '.'
    · subst hc
      simp only [List.cons_append, fractionLength] at h ⊢
      rw [runLength_cut _ (.inl (hbehind.not (by decide)))]
      simp only [List.length_cons] at h
      split at h <;> omega
    · simp [fractionLength, hc]

/-- The mark of an exponent does not make an exponent alone. -/
theorem exponentLength_ne_one (text : List Char) : exponentLength text ≠ 1 := by
  unfold exponentLength
  grind

/-- No exponent begins where a token ends. -/
theorem exponentLength_of_stops {text : List Char} (h : Stops text) : exponentLength text = 0 := by
  cases text with
  | nil => rfl
  | cons d text =>
    have hmark := @Stops.not _ h (fun c => c == 'e' || c == 'E') (by decide) d rfl
    simp only [exponentLength, hmark, Bool.false_eq_true, if_false]

/-- A mark alone makes no exponent there, unless a sign follows it. -/
theorem exponentLength_of_mark {c : Char} {text : List Char} (h : Stops text)
    (hsign : text.head? ≠ some '-') : exponentLength (c :: text) = 0 := by
  cases text with
  | nil => simp [exponentLength, runLength]
  | cons d text =>
    cases hc : c == 'e' || c == 'E' with
    | false => simp only [exponentLength, hc, Bool.false_eq_true, if_false]
    | true =>
      have hplus : d ≠ '+' := by
        rintro rfl
        exact h.head?_ne (by decide) rfl
      have hminus : d ≠ '-' := by
        rintro rfl
        exact hsign rfl
      have hdigit : d.isDigit = false := h.not (by decide) d rfl
      have hends : runLength Char.isDigit (d :: text) = 0 := by simp [runLength, hdigit]
      rw [exponentLength_of_no_sign hc (by simp [hplus, hminus]), if_pos hends]

theorem exponentLength_cut (h : exponentLength (first ++ rest) ≤ first.length)
    (hbehind : Stops behind)
    (hsign : behind.head? ≠ some '-' ∨ exponentLength (first ++ rest) = first.length) :
    exponentLength (first ++ behind) = exponentLength (first ++ rest) := by
  rcases first with _ | ⟨c, _ | ⟨d, first⟩⟩
  · have hnone : exponentLength rest = 0 := Nat.le_zero.mp h
    rw [List.nil_append, List.nil_append, hnone, exponentLength_of_stops hbehind]
  · have hnone : exponentLength ([c] ++ rest) = 0 :=
      Nat.lt_one_iff.mp (Nat.lt_of_le_of_ne h (exponentLength_ne_one _))
    rw [hnone, List.length_singleton] at hsign
    rw [hnone]
    exact exponentLength_of_mark hbehind (hsign.resolve_right (by decide))
  have hdigit : ∀ d ∈ behind.head?, d.isDigit = false := hbehind.not (by decide)
  cases hc : c == 'e' || c == 'E' with
  | false => simp only [List.cons_append, exponentLength, hc, Bool.false_eq_true, if_false]
  | true =>
    simp only [List.cons_append, List.length_cons] at h ⊢
    cases hd : d == '+' || d == '-' with
    | true =>
      rw [exponentLength_of_sign hc hd] at h
      rw [exponentLength_of_sign hc hd, exponentLength_of_sign hc hd,
        runLength_cut _ (.inl hdigit)]
      split at h <;> omega
    | false =>
      rw [exponentLength_of_no_sign hc hd] at h
      rw [exponentLength_of_no_sign hc hd, exponentLength_of_no_sign hc hd, ← List.cons_append,
        ← List.cons_append, runLength_cut _ (.inl hdigit)]
      rw [List.cons_append, List.length_cons]
      split at h <;> omega

theorem blockCommentLength?_pos {depth n : Nat} {text : List Char}
    (h : blockCommentLength? depth text = some n) : 0 < n := by
  have hmap : ∀ {m : Nat} {rest : Option Nat}, rest.map (· + (m + 1)) = some n → 0 < n := by
    intro m rest h
    obtain ⟨k, -, rfl⟩ := Option.map_eq_some_iff.mp h
    exact Nat.succ_pos _
  fun_induction blockCommentLength? depth text with
  | case1 => cases h
  | case2 => exact hmap h
  | case3 => cases h; decide
  | case4 => exact hmap h
  | case5 => exact hmap h

/-- A block comment that is closed within the first part of a text is closed there. -/
theorem blockCommentLength?_cut {depth n : Nat}
    (h : blockCommentLength? depth (first ++ rest) = some n) (hn : n ≤ first.length)
    (behind : List Char) :
    blockCommentLength? depth (first ++ behind) = some n := by
  generalize htext : first ++ rest = text at h
  fun_induction blockCommentLength? depth text generalizing first n with
  | case1 => cases h
  | case2 depth later ih =>
    obtain ⟨m, hm, rfl⟩ := Option.map_eq_some_iff.mp h
    rcases first with _ | ⟨c, _ | ⟨d, first⟩⟩
    · simp at hn
    · simp at hn
    · cases htext
      have hlater := ih (by simpa using hn) rfl hm
      simp only [List.cons_append, blockCommentLength?, hlater, Option.map_some]
  | case3 depth later hdepth =>
    cases h
    rcases first with _ | ⟨c, _ | ⟨d, first⟩⟩
    · simp at hn
    · simp at hn
    · cases htext
      simp only [List.cons_append, blockCommentLength?, if_pos hdepth]
  | case4 depth later hdepth ih =>
    obtain ⟨m, hm, rfl⟩ := Option.map_eq_some_iff.mp h
    rcases first with _ | ⟨c, _ | ⟨d, first⟩⟩
    · simp at hn
    · simp at hn
    · cases htext
      have hlater := ih (by simpa using hn) rfl hm
      simp only [List.cons_append, blockCommentLength?, if_neg hdepth, hlater, Option.map_some]
  | case5 depth c later hopen hclose ih =>
    obtain ⟨m, hm, rfl⟩ := Option.map_eq_some_iff.mp h
    -- the comment goes on behind this character, and so does the first part
    have hpos := blockCommentLength?_pos hm
    rcases first with _ | ⟨d, _ | ⟨e, first⟩⟩
    · simp at hn
    · simp at hn
      omega
    · cases htext
      have hlater : blockCommentLength? depth ((e :: first) ++ behind) = some m :=
        ih (by simpa using hn) rfl hm
      rw [List.cons_append, blockCommentLength?, hlater, Option.map_some]
      · rintro more rfl heq
        cases heq
        exact hopen _ rfl rfl
      · rintro more rfl heq
        cases heq
        exact hclose _ rfl rfl

theorem quotation_cons_of_ne {c close : Char} (h : c ≠ close) (text : List Char) :
    quotation close (c :: text) = (quotation close text).cons c 1 := by
  cases text with
  | nil => simp [quotation, Quotation.cons, h]
  | cons d text => rw [quotation, if_neg h]

/-- A closing mark that is not written twice ends a quotation. -/
theorem quotation_close {close : Char} {text : List Char} (h : text.head? ≠ some close) :
    quotation close (close :: text) = ⟨[], some 1⟩ := by
  cases text with
  | nil => rw [quotation, if_pos rfl]
  | cons d text =>
    have hd : d ≠ close := by
      rintro rfl
      exact h rfl
    rw [quotation, if_pos rfl, if_neg hd]

/-- So is a quotation. -/
theorem quotation_cut {close : Char} {n : Nat}
    (h : (quotation close (first ++ rest)).length? = some n) (hn : n ≤ first.length)
    (hbehind : behind.head? ≠ some close) :
    quotation close (first ++ behind) = quotation close (first ++ rest) := by
  generalize htext : first ++ rest = text at h ⊢
  fun_induction quotation close text generalizing first n with
  | case1 => cases h
  | case2 =>
    cases h
    obtain ⟨d, rfl⟩ : ∃ d, first = [d] := by
      rcases first with _ | ⟨d, _ | ⟨e, first⟩⟩
      · simp at hn
      · exact ⟨d, rfl⟩
      · simp at htext
    cases htext
    exact quotation_close hbehind
  | case3 => cases h
  | case4 later ih =>
    obtain ⟨m, hm, rfl⟩ := Option.map_eq_some_iff.mp h
    rcases first with _ | ⟨c, _ | ⟨d, first⟩⟩
    · simp at hn
    · simp at hn
    · cases htext
      have hlater := ih (by simpa using hn) rfl hm
      simp only [List.cons_append, quotation, hlater, if_true]
  | case5 d later hd =>
    cases h
    rcases first with _ | ⟨c, _ | ⟨e, first⟩⟩
    · simp at hn
    · cases htext
      exact quotation_close hbehind
    · cases htext
      simp only [List.cons_append, quotation, if_true, if_neg hd]
  | case6 c d later hc ih =>
    obtain ⟨m, hm, rfl⟩ := Option.map_eq_some_iff.mp h
    rcases first with _ | ⟨e, first⟩
    · simp at hn
    · obtain ⟨rfl, hrest⟩ := List.cons.inj htext
      have hlater := ih (by simpa using hn) hrest hm
      rw [List.cons_append, quotation_cons_of_ne hc, hlater]

theorem scanNumber_cut (h : (scanNumber (first ++ rest)).2 ≤ first.length)
    (hbehind : Stops behind)
    (hsign : behind.head? ≠ some '-' ∨ (scanNumber (first ++ rest)).2 = first.length) :
    scanNumber (first ++ behind) = scanNumber (first ++ rest) := by
  simp only [scanNumber] at h hsign ⊢
  generalize hwhole : runLength Char.isDigit (first ++ rest) = whole at h hsign ⊢
  generalize hfraction : fractionLength ((first ++ rest).drop whole) = fraction at h hsign ⊢
  generalize hexponent : exponentLength ((first ++ rest).drop (whole + fraction)) = exponent
    at h hsign ⊢
  have hmore : whole + fraction + exponent ≤ first.length := by split at h <;> exact h
  have hsign' : behind.head? ≠ some '-' ∨ whole + fraction + exponent = first.length := by
    split at hsign <;> exact hsign
  have hwhole' : runLength Char.isDigit (first ++ behind) = whole := by
    rw [← hwhole]
    exact runLength_cut (by omega) (.inl (hbehind.not (by decide)))
  have hfraction' : fractionLength ((first ++ behind).drop whole) = fraction := by
    rw [List.drop_append_of_le_length (by omega)] at hfraction ⊢
    rw [← hfraction]
    exact fractionLength_cut (by rw [List.length_drop]; omega) hbehind
  have hexponent' : exponentLength ((first ++ behind).drop (whole + fraction)) = exponent := by
    rw [List.drop_append_of_le_length (by omega)] at hexponent ⊢
    rw [← hexponent]
    refine exponentLength_cut (by rw [List.length_drop]; omega) hbehind (hsign'.imp_right ?_)
    intro hexact
    rw [hexponent, List.length_drop]
    omega
  simp only [hwhole', hfraction', hexponent', List.take_append_of_le_length hmore]

theorem Stops.not_isNamePart (h : Stops behind) : ∀ d ∈ behind.head?, isNamePart d = false :=
  h.not (by decide +kernel)

theorem scanWord_cut (h : (scanWord (first ++ rest)).2 ≤ first.length) (hbehind : Stops behind) :
    scanWord (first ++ behind) = scanWord (first ++ rest) := by
  have hmore : runLength isNamePart (first ++ rest) ≤ first.length := by
    dsimp only [scanWord] at h
    split at h <;> exact h
  simp only [scanWord, runLength_cut hmore (.inl hbehind.not_isNamePart),
    List.take_append_of_le_length hmore]

/-- What does not follow a part of a text does not follow if the text goes on otherwise. -/
theorem head?_append_ne {c : Char} (h : (first ++ rest).head? ≠ some c)
    (hbehind : behind.head? ≠ some c) : (first ++ behind).head? ≠ some c := by
  cases first with
  | nil => exact hbehind
  | cons d first => exact h

theorem scanVariable_cut {position length : Nat} {kind : TokenKind}
    (h : scanVariable position (first ++ rest) = .ok (kind, length))
    (hlength : length ≤ first.length + 1) (hbehind : Stops behind) :
    scanVariable position (first ++ behind) = .ok (kind, length) := by
  have hpart := hbehind.not_isNamePart
  by_cases hhead : (first ++ rest).head? = some '@'
  · obtain ⟨text, htext⟩ : ∃ text, first ++ rest = '@' :: text := List.head?_eq_some_iff.mp hhead
    rw [htext, scanVariable_double] at h
    split at h
    · cases h
    cases h
    rcases first with _ | ⟨c, first⟩
    · simp at hlength
    obtain ⟨rfl, -⟩ := List.cons.inj htext
    have hrest : first ++ rest = text := (List.cons.inj htext).2
    subst hrest
    rename_i hnonempty
    have hrun : runLength isNamePart (first ++ rest) ≤ first.length := by simpa using hlength
    rw [List.cons_append, scanVariable_double, runLength_cut hrun (.inl hpart), if_neg hnonempty,
      List.take_append_of_le_length hrun, List.take_append_of_le_length hrun]
  · rw [scanVariable_single _ hhead] at h
    split at h
    · cases h
    cases h
    rename_i hnonempty
    have hhead' := head?_append_ne hhead (hbehind.head?_ne (by decide))
    have hrun : runLength isNamePart (first ++ rest) ≤ first.length := Nat.le_of_succ_le_succ hlength
    rw [scanVariable_single _ hhead', runLength_cut hrun (.inl hpart), if_neg hnonempty,
      List.take_append_of_le_length hrun, List.take_append_of_le_length hrun]

theorem scanQuotation_cut {close : Char} {before length : Nat} {kind : String → TokenKind}
    {answer : TokenKind}
    (h : scanQuotation close before kind (first ++ rest) = .ok (answer, length))
    (hlength : length ≤ before + first.length) (hbehind : behind.head? ≠ some close) :
    scanQuotation close before kind (first ++ behind) = .ok (answer, length) := by
  rw [← h]
  dsimp only [scanQuotation] at h ⊢
  split at h
  · rename_i further hfurther
    cases h
    rw [quotation_cut hfurther (by omega) hbehind, hfurther]
  · cases h

end Cut

end Lexer

/-! ## Places -/

/-- The failure, if so many characters stand before the text. -/
def Error.shift (n : Nat) : Error → Error
  | .unexpectedCharacter c i => .unexpectedCharacter c (i + n)
  | e => e

namespace Lexer

theorem scanQuotation_shift (n : Nat) (close : Char) (before : Nat) (kind : String → TokenKind)
    (text : List Char) : scanQuotation close before kind text =
      (scanQuotation close before kind text).mapError (Error.shift n) := by
  dsimp only [scanQuotation]
  split <;> rfl

/-- Where a token stands is seen only in the failure if no token begins there. -/
theorem scan_shift (n position : Nat) (c : Char) (rest : List Char) :
    scan (position + n) c rest = (scan position c rest).mapError (Error.shift n) := by
  simp only [scan, scanVariable, apply_ite (Except.mapError (Error.shift n)),
    ← scanQuotation_shift]
  congr
  split <;> rfl

theorem scan_ok_anywhere {position length : Nat} {c : Char} {rest : List Char} {kind : TokenKind}
    (h : scan position c rest = .ok (kind, length)) (position' : Nat) :
    scan position' c rest = .ok (kind, length) := by
  have hzero : scan 0 c rest = .ok (kind, length) := by
    rw [← Nat.zero_add position, scan_shift] at h
    cases hscan : scan 0 c rest <;> rw [hscan] at h <;> cases h
    rfl
  rw [← Nat.zero_add position', scan_shift, hzero]
  rfl

/-! ## Every token -/

section Token

variable {position length : Nat} {c : Char} {first rest behind : List Char} {kind : TokenKind}

theorem scan_minus_cut (h : scan position '-' (first ++ rest) = .ok (kind, length))
    (hlength : length ≤ first.length + 1) (hbehind : ∃ d ∈ behind.head?, d ≠ '-')
    (hline : kind = .comment → (∀ d ∈ behind.head?, isLineBreak d = true) ∨
      ∃ d ∈ rest.head?, isLineBreak d = false) :
    scan position '-' (first ++ behind) = .ok (kind, length) := by
  rcases first with _ | ⟨d, first⟩
  · rcases rest with _ | ⟨d, rest⟩
    · cases h
    by_cases hd : d = '-'
    · -- a comment has two characters at least
      subst hd
      rw [List.nil_append, scan_lineComment, runLength_cons (by decide)] at h
      cases h
      simp at hlength
    · obtain ⟨e, he, hminus⟩ := hbehind
      obtain ⟨behind, rfl⟩ := List.head?_eq_some_iff.mp he
      rw [List.nil_append, scan_minus _ _ hd] at h
      rw [List.nil_append, scan_minus _ _ hminus, h]
  · by_cases hd : d = '-'
    · subst hd
      rw [List.cons_append, scan_lineComment, ← List.cons_append] at h ⊢
      cases h
      rw [runLength_cut (Nat.le_of_succ_le_succ hlength)]
      rcases hline rfl with hbreak | ⟨d, hd, hbreak⟩
      · exact .inl fun d hd => by rw [hbreak d hd]; rfl
      · exact .inr ⟨d, hd, by rw [hbreak]; rfl⟩
    · rw [List.cons_append, scan_minus _ _ hd] at h ⊢
      exact h

theorem scan_slash_cut (h : scan position '/' (first ++ rest) = .ok (kind, length))
    (hlength : length ≤ first.length + 1)
    (hbehind : (first ++ rest).head? ≠ some '*' → behind.head? ≠ some '*') :
    scan position '/' (first ++ behind) = .ok (kind, length) := by
  by_cases hhead : (first ++ rest).head? = some '*'
  · obtain ⟨text, htext⟩ : ∃ text, first ++ rest = '*' :: text := List.head?_eq_some_iff.mp hhead
    rw [htext, scan_blockComment] at h
    split at h
    · rename_i further hfurther
      cases h
      rcases first with _ | ⟨d, first⟩
      · simp at hlength
      obtain ⟨rfl, -⟩ := List.cons.inj htext
      have hrest : first ++ rest = text := (List.cons.inj htext).2
      subst hrest
      rw [List.cons_append, scan_blockComment,
        blockCommentLength?_cut hfurther (by simpa using hlength)]
    · cases h
  · rw [scan_slash _ _ hhead] at h
    rw [scan_slash _ _ (head?_append_ne hhead (hbehind hhead)), h]

theorem scan_name_cut (h : scan position c (first ++ rest) = .ok (kind, length))
    (hlength : length ≤ first.length + 1) (hplain : IsPlain c) (hname : isNameStart c = true)
    (hbehind : Stops behind) : scan position c (first ++ behind) = .ok (kind, length) := by
  have hquote : behind.head? ≠ some '\'' := hbehind.head?_ne (by decide)
  by_cases hnational : (c = 'N' ∨ c = 'n') ∧ (first ++ rest).head? = some '\''
  · obtain ⟨text, htext⟩ : ∃ text, first ++ rest = '\'' :: text :=
      List.head?_eq_some_iff.mp hnational.2
    rw [htext, scan_national _ _ hnational.1] at h
    rcases first with _ | ⟨d, first⟩
    · -- the opening mark has two characters
      exact absurd (Nat.le_trans (scanQuotation_le h).1 hlength) (Nat.lt_irrefl 1)
    obtain ⟨rfl, -⟩ := List.cons.inj htext
    have hrest : first ++ rest = text := (List.cons.inj htext).2
    subst hrest
    rw [List.cons_append, scan_national _ _ hnational.1]
    exact scanQuotation_cut h (by rw [List.length_cons] at hlength; omega) hquote
  · have hnational' : ¬((c = 'N' ∨ c = 'n') ∧ (first ++ behind).head? = some '\'') :=
      fun hn => head?_append_ne (fun hhead => hnational ⟨hn.1, hhead⟩) hquote hn.2
    rw [scan_word _ _ hplain hname hnational, Except.ok.injEq] at h
    have hword : (scanWord (c :: first ++ rest)).2 ≤ (c :: first).length := by
      rw [List.cons_append, h]
      exact hlength
    rw [scan_word _ _ hplain hname hnational', ← List.cons_append, scanWord_cut hword hbehind,
      List.cons_append, h]

/-- A token that ends in the first part of a text is the same if the text goes on otherwise behind
that part, with a character that ends tokens. It must be no white space. A comment that runs to the
end of its line still ends there; a minus sign is followed by something, and not by another one; and
none follows what could become a number with an exponent. -/
theorem scan_behind
    (h : scan position c (first ++ rest) = .ok (kind, length)) (hlength : length ≤ first.length + 1)
    (hspace : isSpace c = false) (hbehind : Stops behind)
    (hline : kind = .comment → (∀ d ∈ behind.head?, isLineBreak d = true) ∨
      ∃ d ∈ rest.head?, isLineBreak d = false)
    (hminus : c = '-' → ∃ d ∈ behind.head?, d ≠ '-')
    (hsign : behind.head? ≠ some '-' ∨ length = first.length + 1) (position' : Nat) :
    scan position' c (first ++ behind) = .ok (kind, length) := by
  suffices hhere : scan position c (first ++ behind) = .ok (kind, length) from
    scan_ok_anywhere hhere position'
  rcases sort_cases c with hblank | rfl | rfl | hdigit | rfl | rfl | rfl | hplain
  · rw [hspace] at hblank
    cases hblank
  · exact scan_minus_cut h hlength (hminus rfl) hline
  · exact scan_slash_cut h hlength fun _ => hbehind.head?_ne (by decide)
  · rw [scan_digit _ _ hdigit, Except.ok.injEq] at h ⊢
    rw [← List.cons_append] at h ⊢
    have hnumber : (scanNumber (c :: first ++ rest)).2 = length := by rw [h]
    rw [scanNumber_cut (by rwa [hnumber]) hbehind (by rwa [hnumber]), h]
  · exact scanVariable_cut h hlength hbehind
  · rw [scan_bracket] at h ⊢
    exact scanQuotation_cut h (by omega) (hbehind.head?_ne (by decide))
  · rw [scan_quote] at h ⊢
    exact scanQuotation_cut h (by omega) (hbehind.head?_ne (by decide))
  cases hname : isNameStart c with
  | true => exact scan_name_cut h hlength hplain hname hbehind
  | false => rwa [scan_mark _ _ hplain hname] at h ⊢

/-- A token that ends in the first part of a text is the same if a separator follows that part; it
must be no white space. If it is a comment, the separator is a line break, or the line went on
behind the part. -/
theorem scan_cut {sep : Char}
    (h : scan position c (first ++ rest) = .ok (kind, length)) (hlength : length ≤ first.length + 1)
    (hsep : sep ∈ separators) (hspace : isSpace c = false)
    (hline : kind = .comment → isLineBreak sep = true ∨ ∃ d ∈ rest.head?, isLineBreak d = false)
    (position' : Nat) (rest' : List Char) :
    scan position' c (first ++ sep :: rest') = .ok (kind, length) := by
  have hminus : sep ≠ '-' := by rintro rfl; exact absurd hsep (by decide)
  refine scan_behind h hlength hspace (stops_of_separator hsep rest') (fun hcomment => ?_)
    (fun _ => ⟨sep, rfl, hminus⟩) (.inl fun hhead => hminus (Option.some.inj hhead)) position'
  exact (hline hcomment).imp_left fun hbreak d hd => Option.some.inj hd ▸ hbreak

end Token

end Lexer
end TransactSql
