/-
TransactSql.Proofs.Lexer.Writing — tokens that are written and read back.

A name in brackets and a quoted text may hold any characters: the closing
mark is written twice where it belongs to the text (`whole_bracketed`,
`whole_quoted`). Such tokens, put one behind the other, are found by the
lexer again, as long as each of them ends where it should.

`Written` says so of a text as a whole. It is put together from its end.
`Renders` and `Opens` say what a piece of a text adds to it in front: a
piece that renders some tokens must be followed by a blank, by a
punctuation mark or by nothing, a piece that opens by whatever it may be.
-/
import TransactSql.Proofs.Lexer.Significant
import TransactSql.Proofs.Parse.Layout

namespace TransactSql

/-! ## Marks within a quotation -/

/-- The characters of a text, with a mark written twice wherever it stands. -/
def doubled (mark : Char) (text : List Char) : List Char :=
  text.flatMap fun c => if c = mark then [c, c] else [c]

/-- A name in brackets. -/
def bracketed (name : String) : String :=
  "[" ++ String.ofList (doubled ']' name.toList) ++ "]"

/-- A text in quotation marks. -/
def quoted (text : String) : String :=
  "'" ++ String.ofList (doubled '\'' text.toList) ++ "'"

/-- A token at the start of a text. -/
def Token.written (kind : TokenKind) (literal : String) : Token := ⟨kind, literal, 0⟩

namespace Lexer

open Token (written)

variable {c : Char} {first rest : List Char} {t : Token} {ts us : List Token} {a b : String}

/-- A quotation is read back. -/
theorem quotation_doubled (mark : Char) (text : List Char) :
    quotation mark (doubled mark text ++ [mark]) =
      ⟨text, some (doubled mark text ++ [mark]).length⟩ := by
  induction text with
  | nil => simp [doubled, quotation]
  | cons c text ih =>
    by_cases hc : c = mark
    · subst hc
      have hdoubled : doubled c (c :: text) = c :: c :: doubled c text := by simp [doubled]
      rw [hdoubled, List.cons_append, List.cons_append, quotation, if_pos rfl, if_pos rfl, ih]
      rfl
    · have hdoubled : doubled mark (c :: text) = c :: doubled mark text := by simp [doubled, hc]
      rw [hdoubled, List.cons_append, quotation_cons_of_ne hc, ih]
      rfl

theorem scanQuotation_doubled (mark : Char) (before : Nat) (kind : String → TokenKind)
    (text : String) :
    scanQuotation mark before kind (doubled mark text.toList ++ [mark]) =
      .ok (kind text, before + (doubled mark text.toList ++ [mark]).length) := by
  simp only [scanQuotation, quotation_doubled, String.ofList_toList]

/-- A number that is made of digits alone is read to its end. -/
theorem scanNumber_of_isDigit {digits : List Char} (h : ∀ d ∈ digits, d.isDigit = true) :
    scanNumber digits = (.number (wholeNumber digits), digits.length) := by
  have hrun : digits.takeWhile Char.isDigit = digits := by
    have happend : (digits ++ []).takeWhile Char.isDigit = digits ++ [].takeWhile Char.isDigit :=
      List.takeWhile_append_of_pos h
    rwa [List.takeWhile_nil, List.append_nil] at happend
  have hwhole : runLength Char.isDigit digits = digits.length := by rw [runLength, hrun]
  simp [scanNumber, hwhole, fractionLength, exponentLength]

/-! ## Single tokens -/

/-- The token is read from its literal, and it is neither trivia nor an operator. -/
structure Whole (t : Token) : Prop where
  scan_eq : ∃ c first, t.literal.toList = c :: first ∧
    scan 0 c first = .ok (t.kind, first.length + 1)
  trivia : t.isTrivia = false
  symbol : t.isSymbol = false

theorem whole_bracketed (name : String) : Whole (written (.bracketed name) (bracketed name)) where
  scan_eq := by
    refine ⟨'[', doubled ']' name.toList ++ [']'], ?_, ?_⟩
    · simp [written, bracketed]
    · rw [scan_bracket, scanQuotation_doubled, Nat.add_comm]
      rfl
  trivia := rfl
  symbol := rfl

theorem whole_quoted (text : String) : Whole (written (.quoted text false) (quoted text)) where
  scan_eq := by
    refine ⟨'\'', doubled '\'' text.toList ++ ['\''], ?_, ?_⟩
    · simp [written, quoted]
    · rw [scan_quote, scanQuotation_doubled, Nat.add_comm]
      rfl
  trivia := rfl
  symbol := rfl

theorem whole_national (text : String) :
    Whole (written (.quoted text true) ("N" ++ quoted text)) where
  scan_eq := by
    refine ⟨'N', '\'' :: (doubled '\'' text.toList ++ ['\'']), ?_, ?_⟩
    · simp [written, quoted]
    · rw [scan_national 0 _ (.inl rfl), scanQuotation_doubled, List.length_cons, Nat.add_comm]
      rfl
  trivia := rfl
  symbol := rfl

theorem whole_natDigits (n : Nat) :
    Whole (written (.number (wholeNumber (Numeral.natDigits n)))
      (String.ofList (Numeral.natDigits n))) where
  scan_eq := by
    have hdigits := Numeral.all_isDigit_natDigits n
    cases hwritten : Numeral.natDigits n with
    | nil => exact absurd hwritten (Numeral.natDigits_ne_nil n)
    | cons c digits =>
      rw [hwritten, List.all_eq_true] at hdigits
      refine ⟨c, digits, String.toList_ofList, ?_⟩
      rw [scan_digit _ _ (hdigits c List.mem_cons_self), scanNumber_of_isDigit hdigits]
      rfl
  trivia := rfl
  symbol := rfl

/-- A token is whole if the lexer finds it in its literal. -/
theorem whole_of_tokens {kind : TokenKind} {literal : String}
    (h : (ofText literal).tokens = ([written kind literal], none))
    (htrivia : (written kind literal).isTrivia = false)
    (hsymbol : (written kind literal).isSymbol = false) : Whole (written kind literal) where
  scan_eq := scan_of_tokens h
  trivia := htrivia
  symbol := hsymbol

/-! ## Texts, from their end -/

/-- The lexer finds these tokens in the text, and no failure. -/
def Written (text : List Char) (ts : List Token) : Prop :=
  ∀ position, ∃ us, significant text position = (us, none) ∧ SameTokens ts us

/-- A token can end where the text begins. -/
def Ends (text : List Char) : Prop := ∀ c ∈ text.head?, c ∈ separators

theorem written_nil : Written [] [] := fun position => ⟨[], significant_nil position, .nil⟩

theorem Written.space (h : Written rest ts) : Written (' ' :: rest) ts := by
  intro position
  rw [significant_space rfl]
  exact h (position + 1)

/-- A token that the lexer finds there may be written before a text. An operator must not come to
stand before another one. -/
theorem Written.cons (hliteral : t.literal.toList = c :: first)
    (hscan : scan 0 c (first ++ rest) = .ok (t.kind, first.length + 1)) (htrivia : t.isTrivia = false)
    (hsymbol : t.isSymbol = true → ∀ u ∈ ts.head?, u.isSymbol = false) (h : Written rest ts) :
    Written (t.literal.toList ++ rest) (t :: ts) := by
  intro position
  obtain ⟨us, hus, hsame⟩ := h (position + first.length + 1)
  have htoken := significant_of_token (scan_ok_anywhere hscan position) (not_isTrivia htrivia)
  rw [hus, ← hliteral, String.ofList_toList] at htoken
  rw [hliteral]
  refine ⟨_, htoken, .cons rfl (fun u hu _ _ ht hu' => ?_) hsame⟩
  rw [hsymbol ht u hu] at hu'
  cases hu'

theorem Written.token (ht : Whole t) (hends : Ends rest) (h : Written rest ts) :
    Written (t.literal.toList ++ rest) (t :: ts) := by
  obtain ⟨⟨c, first, hliteral, hscan⟩, htrivia, hsymbol⟩ := ht
  refine .cons hliteral ?_ htrivia (fun h => absurd h (by simp [hsymbol])) h
  cases rest with
  | nil => rwa [List.append_nil]
  | cons sep rest => exact scan_of_whole hscan (not_isTrivia htrivia) (hends sep rfl) 0 rest

/-! ## Pieces of texts -/

/-- Before the end of a token, or at the end of a text, the piece adds these tokens. -/
def Renders (text : String) (ts : List Token) : Prop :=
  ∀ rest us, Ends rest → Written rest us → Written (text.toList ++ rest) (ts ++ us)

/-- Before any text the piece adds these tokens. -/
def Opens (text : String) (ts : List Token) : Prop :=
  ∀ rest us, Written rest us → Written (text.toList ++ rest) (ts ++ us)

/-- A token can end where the piece begins. -/
def EndsBefore (text : String) : Prop := ∃ c ∈ separators, text.toList.head? = some c

theorem Whole.renders (h : Whole t) : Renders t.literal [t] := fun _ _ => .token h

theorem Opens.renders (h : Opens a ts) : Renders a ts := fun rest us _ => h rest us

theorem opens_space : Opens " " [] := fun _ _ => .space

/-- A mark is a token by itself, whatever follows it. -/
theorem opens_mark {kind : TokenKind} {literal : String} (hliteral : literal.toList = [c])
    (hscan : ∀ rest, scan 0 c rest = .ok (kind, 1))
    (htrivia : (written kind literal).isTrivia = false)
    (hsymbol : (written kind literal).isSymbol = false) : Opens literal [written kind literal] :=
  fun rest _ => .cons (t := written kind literal) hliteral (hscan rest) htrivia
    fun h => absurd h (by simp [hsymbol])

theorem ends_append (h : EndsBefore b) (rest : List Char) : Ends (b.toList ++ rest) := by
  obtain ⟨c, hc, hhead⟩ := h
  intro d hd
  rw [List.head?_append, hhead] at hd
  cases hd
  exact hc

theorem Opens.append_renders (ha : Opens a ts) (hb : Renders b us) :
    Renders (a ++ b) (ts ++ us) := by
  intro rest vs hends hrest
  rw [String.toList_append, List.append_assoc, List.append_assoc]
  exact ha _ _ (hb _ _ hends hrest)

theorem Renders.append_opens (ha : Renders a ts) (hends : EndsBefore b) (hb : Opens b us) :
    Opens (a ++ b) (ts ++ us) := by
  intro rest vs hrest
  rw [String.toList_append, List.append_assoc, List.append_assoc]
  exact ha _ _ (ends_append hends rest) (hb _ _ hrest)

theorem Opens.append_opens (ha : Opens a ts) (hb : Opens b us) : Opens (a ++ b) (ts ++ us) := by
  intro rest vs hrest
  rw [String.toList_append, List.append_assoc, List.append_assoc]
  exact ha _ _ (hb _ _ hrest)

theorem opens_comma : Opens ", " [written .comma ","] := by
  have hcomma : Opens "," [written .comma ","] :=
    opens_mark rfl (fun _ => rfl) rfl rfl
  exact hcomma.append_opens opens_space

theorem opens_semicolon : Opens "; " [written .terminator ";"] := by
  have hsemicolon : Opens ";" [written .terminator ";"] :=
    opens_mark rfl (fun _ => rfl) rfl rfl
  exact hsemicolon.append_opens opens_space

/-- A text that renders tokens is one in which the lexer finds them. -/
theorem Renders.written (h : Renders a ts) : Written a.toList ts := by
  have hwhole := h [] [] (fun _ => nofun) written_nil
  rwa [List.append_nil, List.append_nil] at hwhole

/-- An operator before a text that does not begin with another one. -/
theorem renders_operator {symbol : String} (hsymbol : symbol.toList = [c])
    (hscan : ∀ rest, scan 0 c (a.toList ++ rest) = .ok (.operator c, 1)) (ht : t.isSymbol = false)
    (ha : Renders a (t :: ts)) :
    Renders (symbol ++ a) (written (.operator c) symbol :: t :: ts) := by
  intro rest us hends hrest
  rw [String.toList_append, List.append_assoc]
  refine .cons (t := written (.operator c) symbol) hsymbol (hscan rest) rfl
    (fun _ u hu => ?_) (ha rest us hends hrest)
  cases hu
  exact ht

/-! ## Words with blanks between them -/

variable {more : List String}

theorem renders_word (ha : Renders a ts) : Renders (" ".intercalate [a]) ts := by
  rwa [String.intercalate_singleton]

theorem renders_words (ha : Renders a ts) (hmore : Renders (" ".intercalate (b :: more)) us) :
    Renders (" ".intercalate (a :: b :: more)) (ts ++ us) := by
  have hopens : Opens (a ++ " ") (ts ++ []) :=
    ha.append_opens ⟨' ', by decide, rfl⟩ opens_space
  rw [String.intercalate_cons_cons]
  rw [List.append_nil] at hopens
  exact hopens.append_renders hmore

/-- An asterisk by itself is a token. -/
theorem renders_asterisk (ht : t.isSymbol = false)
    (hmore : Renders (" ".intercalate (b :: more)) (t :: ts)) :
    Renders (" ".intercalate ("*" :: b :: more))
      (written (.operator '*') "*" :: t :: ts) := by
  have hscan : ∀ rest, scan 0 '*' ((" " ++ " ".intercalate (b :: more)).toList ++ rest) =
      .ok (.operator '*', 1) := fun rest => rfl
  rw [String.intercalate_cons_cons, String.append_assoc]
  exact renders_operator rfl hscan ht (opens_space.append_renders hmore)

end Lexer
end TransactSql
