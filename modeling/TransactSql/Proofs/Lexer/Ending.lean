/-
TransactSql.Proofs.Lexer.Ending — blanks at the end of a text.

A cursor sees the same tokens, and the same failure behind them, if
blanks follow a text (`cursor_append_blanks`). Two sorts of texts are
excepted: those that end inside a quotation or a comment, to which the
blanks would belong, and those that end in a minus sign where a token
should begin, which is no token at the very end but one before a blank.
-/
import TransactSql.Proofs.Lexer.Kinds

namespace TransactSql

namespace Lexer

variable {c : Char} {rest : List Char} {position : Nat} {e : Error}

/-! ## How a text can end -/

/-- The failure says that a quotation, a bracketed name or a comment has no end. -/
def isUnclosed : Error → Bool
  | .unclosedQuotation _ | .missingEndCommentMark => true
  | _ => false

/-- The text ends inside a quotation, a bracketed name or a block comment. -/
def EndsOpen (text : String) : Prop := ∃ e ∈ (ofText text).tokens.2, isUnclosed e = true

instance (text : String) : Decidable (EndsOpen text) :=
  inferInstanceAs (Decidable (∃ e ∈ (ofText text).tokens.2, _))

/-- The last character of the text is a minus sign with which a token would begin. -/
def EndsInMinus (text : String) : Prop := (ofText text).tokens.2 = some (.incorrectSyntax "-")

instance (text : String) : Decidable (EndsInMinus text) :=
  inferInstanceAs (Decidable (_ = _))

/-! ## Failures before a separator -/

theorem isUnclosed_of_scanQuotation {close : Char} {before : Nat} {kind : String → TokenKind}
    {text : List Char} (h : scanQuotation close before kind text = .error e) :
    isUnclosed e = true := by
  dsimp only [scanQuotation] at h
  split at h <;> cases h
  rfl

theorem eq_of_scanVariable_error {text : List Char} (h : scanVariable position text = .error e) :
    e = .unexpectedCharacter '@' position := by
  dsimp only [scanVariable] at h
  repeat' split at h
  all_goals cases h
  all_goals rfl

/-- An `@` without a name does not get one from a separator. -/
theorem scanVariable_error_cut {sep : Char} {text : List Char}
    (h : scanVariable position text = .error e) (hsep : sep ∈ separators) (more : List Char) :
    scanVariable position (text ++ sep :: more) = .error e := by
  have hends := (stops_of_separator hsep more).not_isNamePart
  have hat : sep ≠ '@' := by rintro rfl; exact absurd hsep (by decide)
  have hcut : ∀ text, runLength isNamePart text = 0 →
      runLength isNamePart (text ++ sep :: more) = 0 := by
    intro text hnone
    have hlength : runLength isNamePart (text ++ []) ≤ text.length := by
      rw [List.append_nil]
      exact runLength_le _ _
    have hcut := runLength_cut hlength (.inl hends)
    rwa [List.append_nil, hnone] at hcut
  by_cases hhead : text.head? = some '@'
  · obtain ⟨text, rfl⟩ := List.head?_eq_some_iff.mp hhead
    rw [scanVariable_double] at h
    split at h
    · rename_i hnone
      rw [List.cons_append, scanVariable_double, if_pos (hcut text hnone), h]
    · cases h
  · have hhead' : (text ++ sep :: more).head? ≠ some '@' := by
      cases text with
      | nil => simpa using hat
      | cons d text => exact hhead
    rw [scanVariable_single _ hhead] at h
    split at h
    · rename_i hnone
      rw [scanVariable_single _ hhead', if_pos (hcut text hnone), h]
    · cases h

/-- Where no token begins, the text ends inside something or in a minus sign, or no token begins
there either if a separator follows the text. -/
theorem scan_error_cases (h : scan position c rest = .error e) :
    isUnclosed e = true ∨ (e = .incorrectSyntax "-" ∧ c = '-' ∧ rest = []) ∨
      e = .unexpectedCharacter c position ∧
        ∀ sep ∈ separators, ∀ more, scan position c (rest ++ sep :: more) = .error e := by
  rcases sort_cases c with hspace | rfl | rfl | hdigit | rfl | rfl | rfl | hplain
  · rw [scan_space _ _ hspace] at h
    cases h
  · rcases rest with _ | ⟨d, rest⟩
    · cases h
      exact .inr (.inl ⟨rfl, rfl, rfl⟩)
    · by_cases hd : d = '-'
      · subst hd
        cases h
      · rw [scan_minus _ _ hd] at h
        cases h
  · by_cases hopen : rest.head? = some '*'
    · obtain ⟨rest, rfl⟩ := List.head?_eq_some_iff.mp hopen
      rw [scan_blockComment] at h
      split at h <;> cases h
      exact .inl rfl
    · rw [scan_slash _ _ hopen] at h
      cases h
  · rw [scan_digit _ _ hdigit] at h
    cases h
  · exact .inr (.inr ⟨eq_of_scanVariable_error h, fun sep hsep more =>
      scanVariable_error_cut h hsep more⟩)
  · rw [scan_bracket] at h
    exact .inl (isUnclosed_of_scanQuotation h)
  · rw [scan_quote] at h
    exact .inl (isUnclosed_of_scanQuotation h)
  cases hname : isNameStart c with
  | true =>
    by_cases hnational : (c = 'N' ∨ c = 'n') ∧ rest.head? = some '\''
    · obtain ⟨rest, rfl⟩ := List.head?_eq_some_iff.mp hnational.2
      rw [scan_national _ _ hnational.1] at h
      exact .inl (isUnclosed_of_scanQuotation h)
    · rw [scan_word _ _ hplain hname hnational] at h
      cases h
  | false =>
    have hmark := fun rest => scan_mark position rest hplain hname
    refine .inr (.inr ⟨?_, fun sep _ more => by rw [hmark, ← hmark rest, h]⟩)
    rw [hmark] at h
    repeat' split at h
    all_goals cases h
    rfl

/-! ## Tokens before blanks -/

theorem mem_separators_of_isSpace (h : isSpace c = true) : c ∈ separators := by
  rcases isSpace_iff.mp h with rfl | rfl | rfl | rfl <;> decide

/-- A text of blanks has no significant tokens. -/
theorem significant_blanks {blanks : List Char} (h : ∀ c ∈ blanks, isSpace c = true)
    (position : Nat) : significant blanks position = ([], none) := by
  have hskip := significant_spaces h [] position
  rwa [List.append_nil, significant_nil] at hskip

/-- A line comment is skipped, up to the end of its line. -/
theorem significant_lineComment {line behind : List Char}
    (hline : ∀ d ∈ line, isLineBreak d = false) (hbehind : ∀ d ∈ behind.head?, isLineBreak d = true)
    (position : Nat) :
    significant ('-' :: '-' :: (line ++ behind)) position =
      significant behind (position + line.length + 2) := by
  have hstop : behind.takeWhile (fun d => !isLineBreak d) = [] := by
    cases behind with
    | nil => rfl
    | cons d behind => simp [hbehind d rfl]
  have hrun : runLength (fun d => !isLineBreak d) ('-' :: (line ++ behind)) =
      ('-' :: line).length := by
    have hdashed : ∀ d ∈ '-' :: line, (!isLineBreak d) = true := by
      simpa [isLineBreak] using hline
    rw [runLength, ← List.cons_append, List.takeWhile_append_of_pos hdashed, hstop,
      List.append_nil]
  have hscan : scan position '-' (('-' :: line) ++ behind) =
      .ok (.comment, ('-' :: line).length + 1) := by
    rw [List.cons_append, scan_lineComment, hrun]
  exact significant_of_trivia hscan (.inr rfl)

/-- The rest of a line, and the lines behind it. -/
theorem exists_line (text : List Char) : ∃ line behind, text = line ++ behind ∧
    (∀ d ∈ line, isLineBreak d = false) ∧ ∀ d ∈ behind.head?, isLineBreak d = true := by
  refine ⟨text.takeWhile fun d => !isLineBreak d, text.dropWhile fun d => !isLineBreak d,
    List.takeWhile_append_dropWhile.symm, fun d hd => ?_, fun d hd => ?_⟩
  · simpa using List.all_eq_true.mp List.all_takeWhile d hd
  · have hnot := List.head?_dropWhile_not (fun d => !isLineBreak d) text
    rw [Option.mem_def.mp hd] at hnot
    simpa using hnot

/-- A token that is not white space and does not run to the end of its line is the same if a
separator follows the text it stands in. -/
theorem scan_append_separator {sep : Char} {first : List Char} {kind : TokenKind}
    (h : scan position c (first ++ rest) = .ok (kind, first.length + 1))
    (hspace : isSpace c = false) (hline : ∀ later, c :: first ≠ '-' :: '-' :: later) (hsep : sep ∈ separators)
    (more : List Char) :
    scan position c (first ++ (rest ++ sep :: more)) = .ok (kind, first.length + 1) := by
  have hle : first.length + 1 ≤ (first ++ rest).length + 1 := by simp
  rw [← List.append_assoc]
  by_cases hkind : kind = .comment
  · subst hkind
    -- it is a block comment, which ends with its mark
    obtain ⟨later, hdash | hslash⟩ := fits_of_split h
    · exact absurd (String.toList_ofList.symm.trans hdash) (hline later)
    · obtain ⟨rfl, -⟩ := List.cons.inj (String.toList_ofList.symm.trans hslash)
      rw [← List.append_nil (first ++ rest)] at h
      exact scan_slash_cut h hle fun _ => (stops_of_separator hsep more).head?_ne (by decide)
  · rw [← List.append_nil (first ++ rest)] at h
    exact scan_cut h hle hsep hspace (fun hcomment => absurd hcomment hkind) position more

/-- A line comment at the end of a text may be followed by blanks, some of them on its line. -/
theorem significant_last_lineComment {line blanks : List Char}
    (hline : ∀ d ∈ line, isLineBreak d = false) (hblanks : ∀ c ∈ blanks, isSpace c = true)
    (position : Nat) : significant ('-' :: '-' :: (line ++ blanks)) position = ([], none) := by
  obtain ⟨more, behind, rfl, hmore, hbehind⟩ := exists_line blanks
  have hsameLine : ∀ d ∈ line ++ more, isLineBreak d = false :=
    List.forall_mem_append.mpr ⟨hline, hmore⟩
  rw [← List.append_assoc, significant_lineComment hsameLine hbehind]
  exact significant_blanks (List.forall_mem_append.mp hblanks).2 _

/-- What can stand at the start of a text: a blank, a line comment with the rest of the text behind
its line, any other token, or something that is no token. -/
theorem beginning_cases (position : Nat) (text : List Char) :
    text = [] ∨ (∃ c rest, text = c :: rest ∧ isSpace c = true) ∨
      (∃ line behind, text = '-' :: '-' :: (line ++ behind) ∧ (∀ d ∈ line, isLineBreak d = false) ∧
        ∀ d ∈ behind.head?, isLineBreak d = true) ∨
      (∃ c first rest kind, text = c :: (first ++ rest) ∧ isSpace c = false ∧
        (∀ later, c :: first ≠ '-' :: '-' :: later) ∧
        scan position c (first ++ rest) = .ok (kind, first.length + 1)) ∨
      ∃ c rest e, text = c :: rest ∧ scan position c rest = .error e := by
  rcases text_cases position text with rfl | ⟨c, rest, e, rfl, hscan⟩ |
    ⟨c, first, rest, kind, rfl, hscan⟩
  · exact .inl rfl
  · exact .inr (.inr (.inr (.inr ⟨c, rest, e, rfl, hscan⟩)))
  cases hspace : isSpace c with
  | true => exact .inr (.inl ⟨c, first ++ rest, rfl, hspace⟩)
  | false =>
    by_cases hline : ∃ later, c :: first = '-' :: '-' :: later
    · obtain ⟨later, hdashes⟩ := hline
      obtain ⟨line, behind, hlater, hcomment, hbehind⟩ := exists_line (later ++ rest)
      refine .inr (.inr (.inl ⟨line, behind, ?_, hcomment, hbehind⟩))
      rw [← List.cons_append, hdashes, List.cons_append, List.cons_append, hlater]
    · have hnot := not_exists.mp hline
      exact .inr (.inr (.inr (.inl ⟨c, first, rest, kind, rfl, hspace, hnot, hscan⟩)))

/-- Blanks behind a text are not seen, unless the text ends inside something or in a minus sign. -/
theorem significant_append_blanks {text blanks : List Char}
    (hblanks : ∀ c ∈ blanks, isSpace c = true)
    (hend : ∀ e, (significant text position).2 = some e →
      isUnclosed e = false ∧ e ≠ .incorrectSyntax "-") :
    significant (text ++ blanks) position = significant text position := by
  rcases blanks with _ | ⟨sep, more⟩
  · rw [List.append_nil]
  have hsep : sep ∈ separators := mem_separators_of_isSpace (hblanks sep List.mem_cons_self)
  induction hn : text.length using Nat.strongRecOn generalizing text position with
  | ind length ih =>
    rcases beginning_cases position text with rfl | ⟨c, rest, rfl, hspace⟩ |
      ⟨line, behind, rfl, hline, hbehind⟩ | ⟨c, first, rest, kind, rfl, hspace, hline, hscan⟩ |
        ⟨c, rest, e, rfl, hscan⟩
    · rw [List.nil_append, significant_blanks hblanks, significant_nil]
    · rw [significant_space hspace] at hend ⊢
      rw [List.cons_append, significant_space hspace, ih rest.length (by simp [← hn]) hend rfl]
    · have hless : behind.length < length := by
        simp only [← hn, List.length_cons, List.length_append]
        omega
      rw [List.cons_append, List.cons_append, List.append_assoc]
      rw [significant_lineComment hline hbehind] at hend ⊢
      rcases behind with _ | ⟨d, behind⟩
      · rw [List.nil_append, significant_last_lineComment hline hblanks, significant_nil]
      · rw [significant_lineComment hline (by exact hbehind), ih _ hless hend rfl]
    · have hless := hn ▸ length_lt_of_token c first rest
      have hcut := scan_append_separator hscan hspace hline hsep more
      rw [List.cons_append, List.append_assoc]
      by_cases hkind : IsTrivia kind
      · rw [significant_of_trivia hscan hkind] at hend ⊢
        rw [significant_of_trivia hcut hkind, ih rest.length hless hend rfl]
      · rw [significant_of_token hscan hkind] at hend ⊢
        rw [significant_of_token hcut hkind, ih rest.length hless hend rfl]
    · rw [significant_of_error hscan] at hend ⊢
      obtain ⟨hclosed, hminus⟩ := hend e rfl
      rcases scan_error_cases hscan with hopen | ⟨hdash, -, -⟩ | ⟨-, hsame⟩
      · rw [hclosed] at hopen
        cases hopen
      · exact absurd hdash hminus
      · exact significant_of_error (hsame sep hsep more)

/-! ## Cursors -/

/-- A cursor does not see the blanks at the end of a text. -/
theorem cursor_append_blanks {text blanks : String} (hopen : ¬EndsOpen text)
    (hminus : ¬EndsInMinus text) (hblanks : ∀ c ∈ blanks.toList, isSpace c = true) :
    Cursor.ofText (text ++ blanks) = Cursor.ofText text := by
  have hsame : significant (text.toList ++ blanks.toList) 0 = significant text.toList 0 := by
    refine significant_append_blanks hblanks fun e he => ⟨?_, ?_⟩
    · rw [← Bool.not_eq_true]
      exact fun hunclosed => hopen ⟨e, he, hunclosed⟩
    · rintro rfl
      exact hminus he
  rw [cursor_ofText, cursor_ofText, String.toList_append, hsame]

/-- Where a minus sign is refused for its place, the text ends in it. -/
theorem getLast?_of_significant {text : List Char}
    (h : (significant text position).2 = some (.incorrectSyntax "-")) :
    text.getLast? = some '-' := by
  induction hn : text.length using Nat.strongRecOn generalizing text position with
  | ind length ih =>
    rcases text_cases position text with rfl | ⟨c, rest, e, rfl, hscan⟩ |
      ⟨c, first, rest, kind, rfl, hscan⟩
    · rw [significant_nil] at h
      cases h
    · rw [significant_of_error hscan] at h
      cases h
      rcases scan_error_cases hscan with hopen | ⟨-, rfl, rfl⟩ | ⟨hother, -⟩
      · cases hopen
      · rfl
      · cases hother
    · have hrest : (significant rest (position + first.length + 1)).2 =
          some (.incorrectSyntax "-") := by
        by_cases hkind : IsTrivia kind
        · rwa [significant_of_trivia hscan hkind] at h
        · rwa [significant_of_token hscan hkind] at h
      have hlast := ih rest.length (hn ▸ length_lt_of_token c first rest) hrest rfl
      rw [← List.cons_append, List.getLast?_append, hlast]
      rfl

theorem EndsInMinus.getLast? {text : String} (h : EndsInMinus text) :
    text.toList.getLast? = some '-' := getLast?_of_significant h

end Lexer
end TransactSql
