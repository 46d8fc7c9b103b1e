/-
TransactSql.Proofs.Lexer.Separators — separators never change tokens.

Tokens can be taken from any texts and put behind each other with blanks
and comments between them (`interleave`): the lexer finds the same tokens
again, each of the same kind and with all that its kind decodes
(`tokens_interleave`).

A token is found again where it is followed by what begins a separator,
a blank, `-` or `/` (`scan_of_emitted`). A separator is a text that is
read as blanks and comments alone (`IsSeparator`), and each of its line
comments ends in it. So it ends where the next token begins, whatever
that is (`IsSeparator.significant_append`).
-/
import TransactSql.Proofs.Lexer.Ending

namespace TransactSql

namespace Token

/-- The token is not trivia, and the lexer finds it in some text. -/
def Emitted (t : Token) : Prop :=
  t.isTrivia = false ∧ ∃ text, t ∈ (Lexer.ofText text).tokens.1

/-- What the token is, apart from its place: its kind, with what the kind decodes, and its text. -/
def content (t : Token) : TokenKind × String := (t.kind, t.literal)

/-- The token is a comment up to the end of its line. -/
def IsLineComment (t : Token) : Prop := t.kind = .comment ∧ ['-', '-'] <+: t.literal.toList

instance (t : Token) : Decidable t.IsLineComment := inferInstanceAs (Decidable (_ ∧ _))

end Token

namespace Lexer

variable {c : Char} {first rest text before : List Char} {kind : TokenKind} {position : Nat}
  {ts : List Token} {t : Token}

/-! ## Trivia -/

theorem not_isTrivia_of_scanQuotation {close : Char} {before length : Nat}
    {make : String → TokenKind} (h : scanQuotation close before make text = .ok (kind, length))
    (hmake : ∀ s, ¬IsTrivia (make s)) : ¬IsTrivia kind := by
  dsimp only [scanQuotation] at h
  split at h <;> cases h
  exact hmake _

/-- Only a blank, a minus sign and a slash can begin trivia. -/
theorem not_isTrivia_of_scan {length : Nat} (h : scan position c rest = .ok (kind, length))
    (hspace : isSpace c = false) (hminus : c ≠ '-') (hslash : c ≠ '/') : ¬IsTrivia kind := by
  rcases sort_cases c with hblank | rfl | rfl | hdigit | rfl | rfl | rfl | hplain
  · rw [hspace] at hblank
    cases hblank
  · exact absurd rfl hminus
  · exact absurd rfl hslash
  · rw [scan_digit _ _ hdigit] at h
    dsimp only [scanNumber] at h
    split at h <;> cases h <;> simp [IsTrivia]
  · change scanVariable position rest = _ at h
    dsimp only [scanVariable] at h
    repeat' split at h
    all_goals cases h
    all_goals simp [IsTrivia]
  · rw [scan_bracket] at h
    exact not_isTrivia_of_scanQuotation h (by simp [IsTrivia])
  · rw [scan_quote] at h
    exact not_isTrivia_of_scanQuotation h (by simp [IsTrivia])
  cases hname : isNameStart c with
  | true =>
    by_cases hnational : (c = 'N' ∨ c = 'n') ∧ rest.head? = some '\''
    · obtain ⟨rest, rfl⟩ := List.head?_eq_some_iff.mp hnational.2
      rw [scan_national _ _ hnational.1] at h
      exact not_isTrivia_of_scanQuotation h (by simp [IsTrivia])
    · rw [scan_word _ _ hplain hname hnational] at h
      dsimp only [scanWord] at h
      split at h <;> cases h <;> simp [IsTrivia]
  | false =>
    rw [scan_mark _ _ hplain hname] at h
    repeat' split at h
    all_goals cases h
    all_goals simp [IsTrivia]

/-- Trivia are blanks, a line comment with the end of the text or a line break behind it, or a block
comment, which is one before any other text too. -/
theorem trivia_cases (h : scan position c (first ++ rest) = .ok (kind, first.length + 1))
    (hkind : IsTrivia kind) :
    (∀ d ∈ c :: first, isSpace d = true) ∨
    (∃ line, c = '-' ∧ first = '-' :: line ∧ kind = .comment ∧
      (∀ d ∈ line, isLineBreak d = false) ∧ ∀ d ∈ rest.head?, isLineBreak d = true) ∨
    c = '/' ∧
      ∀ position' behind, scan position' c (first ++ behind) = .ok (kind, first.length + 1) := by
  cases hspace : isSpace c with
  | true => exact .inl (isSpace_of_scan hspace h)
  | false =>
    right
    by_cases hminus : c = '-'
    · subst hminus
      left
      rcases htext : first ++ rest with _ | ⟨d, text⟩
      · rw [htext] at h
        cases h
      by_cases hd : d = '-'
      · subst hd
        rw [htext, scan_lineComment, ← htext, Except.ok.injEq, Prod.mk.injEq] at h
        obtain ⟨hline, hbehind⟩ := split_of_runLength (Nat.succ.inj h.2)
        rcases first with _ | ⟨e, line⟩
        · obtain rfl : rest = '-' :: text := htext
          exact absurd (hbehind '-' rfl) (by decide)
        · obtain ⟨rfl, -⟩ := List.cons.inj htext
          obtain ⟨-, hline⟩ := List.forall_mem_cons.mp hline
          exact ⟨line, rfl, rfl, h.1.symm, by simpa using hline, by simpa using hbehind⟩
      · rw [htext, scan_minus _ _ hd, Except.ok.injEq, Prod.mk.injEq] at h
        simp [← h.1, IsTrivia] at hkind
    by_cases hslash : c = '/'
    · subst hslash
      right
      refine ⟨rfl, fun position' behind => ?_⟩
      by_cases hopen : (first ++ rest).head? = some '*'
      · have hbehind : scan position '/' (first ++ behind) = .ok (kind, first.length + 1) :=
          scan_slash_cut h (Nat.le_refl _) (absurd hopen)
        exact scan_ok_anywhere hbehind position'
      · rw [scan_slash _ _ hopen, Except.ok.injEq, Prod.mk.injEq] at h
        simp [← h.1, IsTrivia] at hkind
    · exact absurd hkind (not_isTrivia_of_scan h hspace hminus hslash)

/-! ## Separators -/

/-- Blanks and comments are skipped whatever is behind them, if each line comment is ended by a line
break among them. -/
theorem Lexes.significant_append_of_trivia (h : Lexes text position ts)
    (hplace : position = before.length) (htrivia : ∀ t ∈ ts, t.isTrivia = true)
    (hbreak : ∀ t ∈ ts, t.IsLineComment → ((before ++ text).drop t.stop).any isLineBreak = true)
    (behind : List Char) (position' : Nat) :
    significant (text ++ behind) position' = significant behind (position' + text.length) := by
  induction h generalizing before position' with
  | nil => rfl
  | @cons c first rest kind position ts hscan _ ih =>
    obtain ⟨hkind, htrivia⟩ := List.forall_mem_cons.mp htrivia
    obtain ⟨hfirst, hbreak⟩ := List.forall_mem_cons.mp hbreak
    have hwhole : before ++ c :: (first ++ rest) = before ++ c :: first ++ rest := by simp
    have hplace' : position + first.length + 1 = (before ++ c :: first).length := by
      simp only [hplace, List.length_append, List.length_cons, Nat.add_assoc]
    have hstop : Token.stop ⟨kind, String.ofList (c :: first), position⟩ =
        (before ++ c :: first).length := by
      rw [Token.stop, String.length_ofList, hplace, List.length_append]
    rw [hwhole] at hfirst hbreak
    rw [hstop, List.drop_left] at hfirst
    have hrest := ih hplace' htrivia hbreak (position' + first.length + 1)
    have hlength : position' + (c :: (first ++ rest)).length =
        position' + first.length + 1 + rest.length := by
      simp only [List.length_append, List.length_cons]
      omega
    rw [hlength, ← hrest, List.cons_append, List.append_assoc]
    rcases trivia_cases hscan (isTrivia_iff.mp hkind) with
      hblanks | ⟨line, rfl, rfl, rfl, hline, hbehind⟩ | ⟨rfl, hanywhere⟩
    · exact significant_spaces hblanks (rest ++ behind) position'
    · have hlater := hfirst ⟨rfl, String.toList_ofList ▸ ⟨line, rfl⟩⟩
      obtain ⟨d, hd, -⟩ := List.any_eq_true.mp hlater
      obtain ⟨e, later, rfl⟩ := List.exists_cons_of_ne_nil (List.ne_nil_of_mem hd)
      have hbehind' : ∀ d ∈ (e :: (later ++ behind)).head?, isLineBreak d = true := hbehind
      exact significant_lineComment hline hbehind' position'
    · exact significant_of_trivia (hanywhere position' (rest ++ behind)) (isTrivia_iff.mp hkind)

/-- The text is read as blanks and comments alone, and each of its line comments has a line break
behind it. -/
structure IsSeparator (text : String) : Prop where
  complete : (ofText text).tokens.2 = none
  trivia : ∀ t ∈ (ofText text).tokens.1, t.isTrivia = true
  broken : ∀ t ∈ (ofText text).tokens.1, t.IsLineComment →
    (text.toList.drop t.stop).any isLineBreak = true

instance (text : String) : Decidable (IsSeparator text) :=
  decidable_of_iff ((ofText text).tokens.2 = none ∧
      (∀ t ∈ (ofText text).tokens.1, t.isTrivia = true) ∧
      ∀ t ∈ (ofText text).tokens.1, t.IsLineComment →
        (text.toList.drop t.stop).any isLineBreak = true)
    ⟨fun ⟨complete, trivia, broken⟩ => ⟨complete, trivia, broken⟩,
      fun h => ⟨h.complete, h.trivia, h.broken⟩⟩

variable {separator : String}

/-- A separator is skipped, whatever is behind it. -/
theorem IsSeparator.significant_append (h : IsSeparator separator) (behind : List Char)
    (position : Nat) :
    significant (separator.toList ++ behind) position =
      significant behind (position + separator.toList.length) := by
  have hlexes : Lexes separator.toList ([] : List Char).length (ofText separator).tokens.1 :=
    lexes_of_tokens (Prod.ext rfl h.complete)
  exact hlexes.significant_append_of_trivia rfl h.trivia h.broken behind position

/-- A separator begins with a character that ends a token. -/
theorem IsSeparator.stops (h : IsSeparator separator) : Stops separator.toList := by
  have hlexes : Lexes separator.toList 0 (ofText separator).tokens.1 :=
    lexes_of_tokens (Prod.ext rfl h.complete)
  have htrivia := h.trivia
  generalize separator.toList = text at hlexes ⊢
  generalize (ofText separator).tokens.1 = ts at hlexes htrivia
  cases hlexes with
  | nil => nofun
  | @cons c first rest kind _ later hscan _ =>
    intro d hd
    obtain rfl := Option.some.inj hd
    have hkind := isTrivia_iff.mp (htrivia _ List.mem_cons_self)
    rcases trivia_cases hscan hkind with hblanks | ⟨_, rfl, -⟩ | ⟨rfl, -⟩
    · have hspace := mem_separators_of_isSpace (hblanks c List.mem_cons_self)
      exact List.mem_cons_of_mem _ (List.mem_cons_of_mem _ hspace)
    · decide
    · decide

/-! ## Tokens -/

/-- A token that is found in a text is read from its first character on. -/
theorem exists_scan_of_mem (h : t ∈ (⟨text, position, false⟩ : Lexer).tokens.1) :
    ∃ place c first rest, t.literal.toList = c :: first ∧
      scan place c (first ++ rest) = .ok (t.kind, first.length + 1) := by
  induction hn : text.length using Nat.strongRecOn generalizing text position with
  | ind length ih =>
    rcases text_cases position text with rfl | ⟨c, rest, e, rfl, hscan⟩ |
      ⟨c, first, rest, kind, rfl, hscan⟩
    · simp [tokens_nil] at h
    · simp [tokens_of_error hscan] at h
    · rw [tokens_of_scan hscan] at h
      rcases List.mem_cons.mp h with rfl | h
      · exact ⟨position, c, first, rest, String.toList_ofList, hscan⟩
      · exact ih rest.length (hn ▸ length_lt_of_token c first rest) h rfl

/-- A minus sign that begins no comment is a token by itself. -/
theorem eq_nil_of_scan_minus (h : scan position '-' (first ++ rest) = .ok (kind, first.length + 1))
    (hkind : ¬IsTrivia kind) : first = [] := by
  rcases htext : first ++ rest with _ | ⟨d, text⟩
  · rw [htext] at h
    cases h
  rw [htext] at h
  by_cases hd : d = '-'
  · subst hd
    rw [scan_lineComment, Except.ok.injEq, Prod.mk.injEq] at h
    exact absurd (.inr h.1.symm) hkind
  · rw [scan_minus _ _ hd, Except.ok.injEq, Prod.mk.injEq] at h
    exact List.length_eq_zero_iff.mp (Nat.succ.inj h.2).symm

/-- A token that is not trivia is found again before everything that ends a token. A minus sign must
be followed by something, and not by another one. -/
theorem scan_of_emitted (h : t.Emitted) {behind : List Char} (hbehind : Stops behind)
    (hminus : t.literal = "-" → ∃ d ∈ behind.head?, d ≠ '-') :
    ∃ c first, t.literal.toList = c :: first ∧
      ∀ position, scan position c (first ++ behind) = .ok (t.kind, first.length + 1) := by
  obtain ⟨htrivia, text, hmem⟩ := h
  obtain ⟨place, c, first, rest, hliteral, hscan⟩ := exists_scan_of_mem hmem
  refine ⟨c, first, hliteral, fun position => ?_⟩
  have hkind : ¬IsTrivia t.kind := not_isTrivia htrivia
  have hspace := isSpace_eq_false_of_scan hscan hkind
  refine scan_behind hscan (Nat.le_refl _) hspace hbehind
    (fun hcomment => absurd (.inr hcomment) hkind) (fun hc => hminus ?_) (.inr rfl) position
  subst hc
  rw [eq_nil_of_scan_minus hscan hkind] at hliteral
  exact String.toList_inj.mp hliteral

/-! ## Tokens between separators -/

/-- A text of tokens, each with the separator behind it, after a first separator. -/
def interleave (start : String) (pieces : List (Token × String)) : String :=
  start ++ String.join (pieces.map fun piece => piece.1.literal ++ piece.2)

/-- What is put between the tokens keeps them apart: the tokens come from some texts, there are
blanks or comments between any two of them, and a minus sign is followed by some that do not begin
with another minus sign. -/
structure Separates (start : String) (pieces : List (Token × String)) : Prop where
  start : IsSeparator start
  emitted : ∀ piece ∈ pieces, piece.1.Emitted
  separators : ∀ piece ∈ pieces, IsSeparator piece.2
  between : ∀ piece ∈ pieces.dropLast, piece.2 ≠ ""
  minus : ∀ piece ∈ pieces, piece.1.literal = "-" →
    piece.2 ≠ "" ∧ piece.2.toList.head? ≠ some '-'

variable {start : String} {piece : Token × String} {pieces : List (Token × String)}

theorem Separates.tail (h : Separates start (piece :: pieces)) : Separates piece.2 pieces where
  start := h.separators piece List.mem_cons_self
  emitted p hp := h.emitted p (List.mem_cons_of_mem _ hp)
  separators p hp := h.separators p (List.mem_cons_of_mem _ hp)
  between p hp := by
    refine h.between p ?_
    cases pieces with
    | nil => cases hp
    | cons next pieces => exact List.mem_cons_of_mem _ hp
  minus p hp := h.minus p (List.mem_cons_of_mem _ hp)

/-- The last separator alone can be empty. -/
theorem Separates.ne_empty_or (h : Separates start (piece :: pieces)) :
    piece.2 ≠ "" ∨ pieces = [] := by
  cases pieces with
  | nil => exact .inr rfl
  | cons next pieces => exact .inl (h.between piece List.mem_cons_self)

theorem interleave_cons (start : String) (piece : Token × String) (pieces : List (Token × String)) :
    (interleave start (piece :: pieces)).toList =
      start.toList ++ (piece.1.literal.toList ++ (interleave piece.2 pieces).toList) := by
  simp [interleave]

/-- A token ends where the separator behind it begins, or at the end of the text. -/
theorem Separates.stops (h : Separates start (piece :: pieces)) :
    Stops (interleave piece.2 pieces).toList ∧
      (piece.1.literal = "-" → ∃ d ∈ (interleave piece.2 pieces).toList.head?, d ≠ '-') := by
  have hseparator := h.separators piece List.mem_cons_self
  have htext : (interleave piece.2 pieces).toList =
      piece.2.toList ++ (interleave "" pieces).toList := by
    simp [interleave]
  rw [htext]
  cases hcharacters : piece.2.toList with
  | nil =>
    have hempty : piece.2 = "" := String.toList_eq_nil_iff.mp hcharacters
    obtain rfl := h.ne_empty_or.resolve_left (not_not_intro hempty)
    exact ⟨nofun, fun hminus => absurd hempty (h.minus piece List.mem_cons_self hminus).1⟩
  | cons d later =>
    have hstops := hseparator.stops
    rw [hcharacters] at hstops
    refine ⟨hstops, fun hminus => ⟨d, rfl, ?_⟩⟩
    rintro rfl
    exact (h.minus piece List.mem_cons_self hminus).2 (by rw [hcharacters]; rfl)

/-- The lexer finds the tokens between the separators, and nothing else. -/
theorem Separates.significant (h : Separates start pieces) (position : Nat) :
    ∃ ts, significant (interleave start pieces).toList position = (ts, none) ∧
      ts.map Token.content = pieces.map (·.1.content) := by
  induction pieces generalizing start position with
  | nil =>
    have hskip := h.start.significant_append [] position
    rw [List.append_nil, significant_nil] at hskip
    exact ⟨[], by simpa [interleave] using hskip, rfl⟩
  | cons piece pieces ih =>
    obtain ⟨hstops, hminus⟩ := h.stops
    obtain ⟨c, first, hliteral, hscan⟩ :=
      scan_of_emitted (h.emitted piece List.mem_cons_self) hstops hminus
    have hkind := not_isTrivia (h.emitted piece List.mem_cons_self).1
    obtain ⟨ts, hts, hcontents⟩ := ih h.tail (position + start.toList.length + first.length + 1)
    refine ⟨⟨piece.1.kind, String.ofList (c :: first), position + start.toList.length⟩ :: ts,
      ?_, ?_⟩
    · rw [interleave_cons, h.start.significant_append, hliteral, List.cons_append,
        significant_of_token (hscan _) hkind, hts]
    · rw [List.map_cons, List.map_cons, hcontents, ← hliteral]
      simp [Token.content]

/-- Separators never change tokens. Tokens that come from any texts, put behind each other with
blanks and comments between them, are found again: no failure is reported, and the significant
tokens are these in their order, of the same kinds and with all that the kinds decode. -/
theorem tokens_interleave (h : Separates start pieces) :
    (ofText (interleave start pieces)).tokens.2 = none ∧
      ((ofText (interleave start pieces)).tokens.1.filter fun t => !t.isTrivia).map Token.content =
        pieces.map (·.1.content) := by
  obtain ⟨ts, hts, hcontents⟩ := h.significant 0
  obtain ⟨hfilter, hnone⟩ := Prod.mk.inj hts
  exact ⟨hnone, by rw [← hcontents, ← hfilter]; rfl⟩

/-- A number, what could be the mark of its exponent, a minus sign and another number stay apart,
with comments of both sorts between them. -/
theorem tokens_interleave_of_minus :
    let pieces : List (Token × String) := [(⟨.number (.int 1), "1", 0⟩, "--e\n"),
      (⟨.word, "e", 1⟩, "/*/**/*/"), (⟨.operator '-', "-", 1⟩, " --\n"),
      (⟨.number (.int 5), "5", 2⟩, "")]
    Separates "/**/" pieces ∧ (ofText (interleave "/**/" pieces)).tokens.2 = none ∧
      ((ofText (interleave "/**/" pieces)).tokens.1.filter fun t => !t.isTrivia).map Token.content =
        pieces.map (·.1.content) := by
  intro pieces
  have h : Separates "/**/" pieces :=
    { start := by decide +kernel
      emitted := by
        simp only [pieces, List.forall_mem_cons]
        refine ⟨⟨rfl, "1", ?_⟩, ⟨rfl, "1e", ?_⟩, ⟨rfl, "e-5", ?_⟩, ⟨rfl, "e-5", ?_⟩, nofun⟩ <;>
          decide +kernel
      separators := by decide +kernel
      between := by decide
      minus := by decide }
  exact ⟨h, tokens_interleave h⟩

end Lexer
end TransactSql
