/-
TransactSql.Proofs.Lexer.Significant — the significant tokens of a text.

`Lexes` says that a text is cut into tokens to its end, token by token.
`significant` is what a cursor sees of a text: the tokens that are not
trivia, and the failure behind them. It has one equation for each thing
that can stand at the start of a text, and blanks are skipped one by one.

Two facts about whole texts follow. A text behind a line break is read
as it is read alone, only further on (`Lexes.significant_append`), and
what stands before a text moves the places in it (`significant_shift`).
-/
import TransactSql.Cursor
import TransactSql.Proofs.Lexer.Boundaries

namespace TransactSql

/-- The token, if so many characters stand before the text. -/
def Token.shift (n : Nat) (t : Token) : Token := { t with position := t.position + n }

namespace Lexer

variable {c : Char} {first rest : List Char} {kind : TokenKind} {position : Nat}

/-! ## Token by token -/

/-- A token that is read has its characters at the start of the text. -/
theorem split_of_scan {length : Nat} (h : scan position c rest = .ok (kind, length)) :
    ∃ first later, rest = first ++ later ∧ first.length + 1 = length := by
  obtain ⟨more, rfl⟩ := Nat.exists_eq_add_one.mpr (scan_pos h)
  have hmore : more ≤ rest.length := Nat.le_of_succ_le_succ (scan_le h)
  exact ⟨rest.take more, rest.drop more, (List.take_append_drop more rest).symm,
    congrArg (· + 1) (List.length_take_of_le hmore)⟩

theorem tokens_nil (position : Nat) : (⟨[], position, false⟩ : Lexer).tokens = ([], none) := by
  rw [tokens]
  rfl

theorem tokens_of_error {e : Error} (h : scan position c rest = .error e) :
    (⟨c :: rest, position, false⟩ : Lexer).tokens = ([], some e) := by
  have hnext : (⟨c :: rest, position, false⟩ : Lexer).next =
      (some (.error e), ⟨c :: rest, position, true⟩) := by
    simp only [next, h, Bool.false_eq_true, if_false]
  rw [tokens]
  split <;> rename_i heq <;> rw [hnext] at heq <;> cases heq
  rfl

theorem tokens_of_scan (h : scan position c (first ++ rest) = .ok (kind, first.length + 1)) :
    (⟨c :: (first ++ rest), position, false⟩ : Lexer).tokens =
      (⟨kind, String.ofList (c :: first), position⟩ ::
        (⟨rest, position + first.length + 1, false⟩ : Lexer).tokens.1,
        (⟨rest, position + first.length + 1, false⟩ : Lexer).tokens.2) := by
  have hnext : (⟨c :: (first ++ rest), position, false⟩ : Lexer).next =
      (some (.ok ⟨kind, String.ofList (c :: first), position⟩),
        ⟨rest, position + first.length + 1, false⟩) := by
    simp only [next, h, Bool.false_eq_true, if_false, List.take_succ_cons, List.drop_succ_cons,
      List.take_left', List.drop_left']
    rfl
  rw [tokens]
  split <;> rename_i heq <;> rw [hnext] at heq <;> cases heq
  rfl

/-- The text is cut into tokens, to its end. -/
inductive Lexes : List Char → Nat → List Token → Prop
  | nil (position : Nat) : Lexes [] position []
  | cons {c : Char} {first rest : List Char} {kind : TokenKind} {position : Nat}
      {later : List Token} (hscan : scan position c (first ++ rest) = .ok (kind, first.length + 1))
      (hrest : Lexes rest (position + first.length + 1) later) :
      Lexes (c :: (first ++ rest)) position (⟨kind, String.ofList (c :: first), position⟩ :: later)

/-- Every text is cut into tokens, up to its end or to where no token begins. -/
theorem text_cases (position : Nat) (text : List Char) :
    text = [] ∨ (∃ c rest e, text = c :: rest ∧ scan position c rest = .error e) ∨
      ∃ c first rest kind, text = c :: (first ++ rest) ∧
        scan position c (first ++ rest) = .ok (kind, first.length + 1) := by
  rcases text with _ | ⟨c, rest⟩
  · exact .inl rfl
  rcases hscan : scan position c rest with e | ⟨kind, length⟩
  · exact .inr (.inl ⟨c, rest, e, rfl, hscan⟩)
  · obtain ⟨first, later, rfl, rfl⟩ := split_of_scan hscan
    exact .inr (.inr ⟨c, first, later, kind, rfl, hscan⟩)

/-- Less text is left behind a token. -/
theorem length_lt_of_token (c : Char) (first rest : List Char) :
    rest.length < (c :: (first ++ rest)).length := by
  simp only [List.length_cons, List.length_append]
  omega

theorem lexes_of_tokens {text : List Char} {position : Nat} {ts : List Token}
    (h : (⟨text, position, false⟩ : Lexer).tokens = (ts, none)) : Lexes text position ts := by
  induction hn : text.length using Nat.strongRecOn generalizing text position ts with
  | ind n ih =>
    rcases text_cases position text with rfl | ⟨c, rest, e, rfl, hscan⟩ |
      ⟨c, first, rest, kind, rfl, hscan⟩
    · rw [tokens_nil] at h
      cases h
      exact .nil position
    · rw [tokens_of_error hscan] at h
      cases h
    · rw [tokens_of_scan hscan] at h
      obtain ⟨hts, hnone⟩ := Prod.mk.inj h
      subst hts
      have hless := hn ▸ length_lt_of_token c first rest
      exact .cons hscan (ih rest.length hless (Prod.ext rfl hnone) rfl)

/-- A text that is a single token is read as this token. -/
theorem scan_of_tokens {text : String} {t : Token} (h : (ofText text).tokens = ([t], none)) :
    ∃ c first, text.toList = c :: first ∧ scan 0 c first = .ok (t.kind, first.length + 1) := by
  have hlexes : Lexes text.toList 0 [t] := lexes_of_tokens h
  generalize text.toList = characters at hlexes
  cases hlexes with
  | cons hscan hrest =>
    cases hrest
    rw [List.append_nil] at hscan ⊢
    exact ⟨_, _, rfl, hscan⟩

/-! ## The significant tokens -/

/-- What a cursor sees of a text that begins at a place: the tokens that are not trivia, and the
failure behind them. -/
def significant (text : List Char) (position : Nat) : List Token × Option Error :=
  let tokens := (⟨text, position, false⟩ : Lexer).tokens
  (tokens.1.filter fun t => !t.isTrivia, tokens.2)

theorem cursor_ofText (text : String) :
    Cursor.ofText text = ⟨(significant text.toList 0).1, (significant text.toList 0).2, ""⟩ := rfl

theorem significant_nil (position : Nat) : significant [] position = ([], none) := by
  simp only [significant, tokens_nil, List.filter_nil]

theorem significant_of_error {e : Error} (h : scan position c rest = .error e) :
    significant (c :: rest) position = ([], some e) := by
  simp only [significant, tokens_of_error h, List.filter_nil]

/-- The token is trivia. -/
def IsTrivia (kind : TokenKind) : Prop := kind = .whitespace ∨ kind = .comment

theorem isTrivia_iff {t : Token} : t.isTrivia = true ↔ IsTrivia t.kind := by
  simp [Token.isTrivia, IsTrivia]

theorem not_isTrivia {t : Token} (h : t.isTrivia = false) : ¬IsTrivia t.kind := by
  rwa [← isTrivia_iff, Bool.not_eq_true]

theorem isSpace_eq_false_of_scan {length : Nat} (h : scan position c rest = .ok (kind, length))
    (hkind : ¬IsTrivia kind) : isSpace c = false := by
  rw [← Bool.not_eq_true]
  intro hspace
  rw [scan_space _ _ hspace] at h
  exact hkind (.inl (congrArg Prod.fst (Except.ok.inj h)).symm)

/-- A token that is a text by itself is also read where a separator follows it. -/
theorem scan_of_whole (hscan : scan 0 c first = .ok (kind, first.length + 1)) (hkind : ¬IsTrivia kind)
    {sep : Char} (hsep : sep ∈ separators) (position : Nat) (rest : List Char) :
    scan position c (first ++ sep :: rest) = .ok (kind, first.length + 1) := by
  have hspace := isSpace_eq_false_of_scan hscan hkind
  have hwhole : scan 0 c (first ++ []) = .ok (kind, first.length + 1) := by rwa [List.append_nil]
  exact scan_cut hwhole (Nat.le_refl _) hsep hspace
    (fun hcomment => absurd (.inr hcomment) hkind) position rest

theorem significant_of_trivia (h : scan position c (first ++ rest) = .ok (kind, first.length + 1))
    (hkind : IsTrivia kind) :
    significant (c :: (first ++ rest)) position =
      significant rest (position + first.length + 1) := by
  have htrivia : Token.isTrivia ⟨kind, String.ofList (c :: first), position⟩ = true :=
    isTrivia_iff.mpr hkind
  simp only [significant, tokens_of_scan h, List.filter_cons, htrivia, Bool.not_true,
    Bool.false_eq_true, if_false]

theorem significant_of_token (h : scan position c (first ++ rest) = .ok (kind, first.length + 1))
    (hkind : ¬IsTrivia kind) :
    significant (c :: (first ++ rest)) position =
      (⟨kind, String.ofList (c :: first), position⟩ ::
        (significant rest (position + first.length + 1)).1,
        (significant rest (position + first.length + 1)).2) := by
  have htrivia : Token.isTrivia ⟨kind, String.ofList (c :: first), position⟩ = false := by
    rw [← Bool.not_eq_true]
    exact fun h => hkind (isTrivia_iff.mp h)
  simp only [significant, tokens_of_scan h, List.filter_cons, htrivia, Bool.not_false, if_true]

/-- Blanks are skipped, one by one. -/
theorem significant_space (h : isSpace c = true) (rest : List Char) (position : Nat) :
    significant (c :: rest) position = significant rest (position + 1) := by
  rcases rest with _ | ⟨d, rest⟩
  · have hscan : scan position c ([] ++ []) = .ok (.whitespace, 1) := scan_space _ _ h
    exact significant_of_trivia hscan (.inl rfl)
  cases hd : isSpace d with
  | false =>
    have hscan : scan position c ([] ++ d :: rest) = .ok (.whitespace, 1) := by
      rw [scan_space _ _ h]
      simp [runLength, hd]
    exact significant_of_trivia hscan (.inl rfl)
  | true =>
    -- the second blank is read together with the first
    have hsecond := scan_space (position + 1) rest hd
    obtain ⟨blanks, later, rfl, hblanks⟩ := split_of_scan hsecond
    have hfirst : scan position c (d :: blanks ++ later) =
        .ok (.whitespace, (d :: blanks).length + 1) := by
      rw [scan_space _ _ h, List.length_cons, hblanks]
      simp [runLength, hd]
    rw [← hblanks] at hsecond
    rw [significant_of_trivia hsecond (.inl rfl), ← List.cons_append,
      significant_of_trivia hfirst (.inl rfl), List.length_cons]
    congr 1
    omega

theorem significant_spaces {blanks : List Char} (h : ∀ c ∈ blanks, isSpace c = true)
    (rest : List Char) (position : Nat) :
    significant (blanks ++ rest) position = significant rest (position + blanks.length) := by
  induction blanks generalizing position with
  | nil => rfl
  | cons c blanks ih =>
    obtain ⟨hc, hblanks⟩ := List.forall_mem_cons.mp h
    rw [List.cons_append, significant_space hc, ih hblanks, List.length_cons]
    congr 1
    omega

/-! ## Places -/

theorem significant_shift (n position : Nat) (text : List Char) :
    significant text (position + n) =
      ((significant text position).1.map (Token.shift n),
        (significant text position).2.map (Error.shift n)) := by
  induction hn : text.length using Nat.strongRecOn generalizing text position with
  | ind length ih =>
    rcases text_cases position text with rfl | ⟨c, rest, e, rfl, hscan⟩ |
      ⟨c, first, rest, kind, rfl, hscan⟩
    · rw [significant_nil, significant_nil]
      rfl
    · have hshift : scan (position + n) c rest = .error (e.shift n) := by
        rw [scan_shift, hscan]
        rfl
      rw [significant_of_error hscan, significant_of_error hshift]
      rfl
    · have hshift := scan_ok_anywhere hscan (position + n)
      have hless := hn ▸ length_lt_of_token c first rest
      have hrest := ih rest.length hless (position + first.length + 1) rest rfl
      rw [show position + first.length + 1 + n = position + n + first.length + 1 by omega] at hrest
      by_cases hkind : IsTrivia kind
      · rw [significant_of_trivia hscan hkind, significant_of_trivia hshift hkind, hrest]
      · rw [significant_of_token hscan hkind, significant_of_token hshift hkind, hrest]
        rfl

/-- The tokens stand in the text. -/
theorem position_le_of_mem {t : Token} {text : List Char}
    (h : t ∈ (significant text position).1) : position ≤ t.position := by
  induction hn : text.length using Nat.strongRecOn generalizing text position with
  | ind length ih =>
    rcases text_cases position text with rfl | ⟨c, rest, e, rfl, hscan⟩ |
      ⟨c, first, rest, kind, rfl, hscan⟩
    · simp [significant_nil] at h
    · simp [significant_of_error hscan] at h
    · have hrest : t ∈ (significant rest (position + first.length + 1)).1 →
          position ≤ t.position := by
        intro ht
        have hlater := ih rest.length (hn ▸ length_lt_of_token c first rest) ht rfl
        omega
      by_cases hkind : IsTrivia kind
      · rw [significant_of_trivia hscan hkind] at h
        exact hrest h
      · rw [significant_of_token hscan hkind] at h
        rcases List.mem_cons.mp h with rfl | h
        · exact Nat.le_refl _
        · exact hrest h

/-! ## Texts behind each other -/

/-- A run is made of characters of its sort, and no such character is behind it. -/
theorem split_of_runLength {p : Char → Bool} (h : runLength p (first ++ rest) = first.length) :
    (∀ d ∈ first, p d = true) ∧ ∀ d ∈ rest.head?, p d = false := by
  induction first with
  | nil =>
    refine ⟨List.forall_mem_nil _, fun d hd => ?_⟩
    obtain ⟨rest, rfl⟩ := List.head?_eq_some_iff.mp hd
    rw [← Bool.not_eq_true]
    intro hp
    simp [runLength, hp] at h
  | cons d first ih =>
    cases hd : p d with
    | false => simp [runLength, hd] at h
    | true =>
      obtain ⟨hfirst, hrest⟩ := ih (by simpa [runLength, hd] using h)
      exact ⟨List.forall_mem_cons.mpr ⟨hd, hfirst⟩, hrest⟩

/-- A token of white space is made of blanks. -/
theorem isSpace_of_scan (hc : isSpace c = true)
    (h : scan position c (first ++ rest) = .ok (kind, first.length + 1)) :
    ∀ d ∈ c :: first, isSpace d = true := by
  rw [scan_space _ _ hc] at h
  have hlength : runLength isSpace (first ++ rest) = first.length :=
    Nat.succ.inj (congrArg Prod.snd (Except.ok.inj h))
  exact List.forall_mem_cons.mpr ⟨hc, (split_of_runLength hlength).1⟩

/-- A text without failures is read as it is alone if a line break and another text follow. -/
theorem Lexes.significant_append {text : List Char} {ts : List Token}
    (h : Lexes text position ts) {sep : Char} (hsep : isLineBreak sep = true) (rest : List Char) :
    significant (text ++ sep :: rest) position =
      ((significant text position).1 ++ (significant (sep :: rest) (position + text.length)).1,
        (significant (sep :: rest) (position + text.length)).2) := by
  have hseparator : sep ∈ separators := by
    rcases (by simpa [isLineBreak] using hsep : sep = '\r' ∨ sep = '\n') with rfl | rfl <;> decide
  induction h with
  | nil position =>
    rw [significant_nil]
    rfl
  | @cons c first later kind position ts hscan _ ih =>
    have hplace : position + (c :: (first ++ later)).length =
        position + first.length + 1 + later.length := by
      simp only [List.length_cons, List.length_append]
      omega
    cases hspace : isSpace c with
    | true =>
      have hblanks := isSpace_of_scan hspace hscan
      have hskip := fun more => significant_spaces hblanks more position
      simp only [List.cons_append, List.length_cons, ← Nat.add_assoc] at hskip
      rw [List.cons_append, List.append_assoc, hskip, hskip, ih, hplace]
    | false =>
      rw [hplace, List.cons_append, List.append_assoc]
      have hlength : first.length + 1 ≤ (first ++ later).length + 1 := by simp
      have hwhole : scan position c ((first ++ later) ++ []) = .ok (kind, first.length + 1) := by
        rwa [List.append_nil]
      have hcut := scan_cut hwhole hlength hseparator hspace (fun _ => .inl hsep) position rest
      rw [List.append_assoc] at hcut
      by_cases hkind : IsTrivia kind
      · rw [significant_of_trivia hscan hkind, significant_of_trivia hcut hkind, ih]
      · rw [significant_of_token hscan hkind, significant_of_token hcut hkind, ih]
        rfl

end Lexer
end TransactSql
