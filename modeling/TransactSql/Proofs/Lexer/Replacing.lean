/-
TransactSql.Proofs.Lexer.Replacing — a literal in the place of a parameter.

A `Replacement` puts a literal in the place of a parameter, wherever the
parameter stands in a text, and a blank on each side of it. The tokens
of the text stay what they are: the blanks end the token before and the
literal itself (`reread_of_lexes`). Whether two operators touch each
other does not change either.
-/
import TransactSql.Proofs.Collation.Laws
import TransactSql.Proofs.Expression.Literals
import TransactSql.Proofs.Lexer.Kinds
import TransactSql.Proofs.Parse.Layout

namespace TransactSql

/-- A parameter, and a literal to be written in its place. -/
structure Replacement where
  /-- The name of the parameter, without the `@`. -/
  name : String
  /-- It says under which other spellings the parameter is found. -/
  collation : Collation
  lawful : collation.Lawful
  /-- The literal as it is written. -/
  text : String
  token : Token
  value : Value
  /-- The text is that of a single token. -/
  tokens_eq : (Lexer.ofText text).tokens = ([token], none)
  /-- That token is a literal. -/
  value_eq : token.literalValue? = some value

namespace Replacement

variable (r : Replacement)

/-- The token is the parameter. -/
def replaces (t : Token) : Bool :=
  match t.kind with
  | .parameter name => r.collation.equals name r.name
  | _ => false

/-- What is written for a token. -/
def write (t : Token) : List Char :=
  if r.replaces t then ' ' :: (r.text.toList ++ [' ']) else t.literal.toList

/-- The text of some tokens with the literal in the place of the parameter. -/
def apply (tokens : List Token) : String := String.ofList (tokens.flatMap r.write)

/-- The second token stands where the first one stood. -/
def Stands (t u : Token) : Prop :=
  if r.replaces t then u.literalValue? = some r.value else t.meaning = u.meaning

/-- The tokens of a text, and those of the text with the literal in it. -/
inductive Replaced : List Token → List Token → Prop
  | nil : Replaced [] []
  | cons {t u : Token} {left right : List Token} (hstands : r.Stands t u)
      (htouches : ∀ t' ∈ left.head?, ∀ u' ∈ right.head?, t.isSymbol → t'.isSymbol →
        (t.Touches t' ↔ u.Touches u')) (hrest : Replaced left right) :
      Replaced (t :: left) (u :: right)

end Replacement

namespace Lexer

variable {c : Char} {first rest text : List Char} {kind : TokenKind} {position : Nat}

/-! ## Kinds and first characters -/

/-- Only a parameter begins with a single `@`. -/
theorem eq_at_of_parameter {name : String}
    (h : scan position c (first ++ rest) = .ok (.parameter name, first.length + 1)) : c = '@' := by
  have hliteral : String.ofList (c :: first) = "@" ++ name := fits_of_split h
  have hcharacters := congrArg String.toList hliteral
  rw [String.toList_ofList, String.toList_append] at hcharacters
  exact (List.cons.inj hcharacters).1

/-- A literal is no trivia. -/
theorem not_isTrivia_of_literalValue? {t : Token} {v : Value} (h : t.literalValue? = some v) :
    ¬IsTrivia t.kind := by
  unfold Token.literalValue? at h
  rintro (hkind | hkind) <;> rw [hkind] at h <;> cases h

theorem Lexes.position_le {ts : List Token} (h : Lexes text position ts) :
    ∀ t ∈ ts, position ≤ t.position := by
  induction h with
  | nil => exact List.forall_mem_nil _
  | cons _ _ ih =>
    refine List.forall_mem_cons.mpr ⟨Nat.le_refl _, fun t ht => ?_⟩
    have hle := ih t ht
    omega

end Lexer

open Lexer

namespace Replacement

variable {r : Replacement} {c : Char} {first rest text : List Char} {kind : TokenKind}
  {position : Nat} {ts : List Token}

theorem kind_of_replaces {t : Token} (h : r.replaces t = true) :
    ∃ name, t.kind = .parameter name := by
  unfold replaces at h
  split at h
  · exact ⟨_, by assumption⟩
  · cases h

/-- The literal is read as one token where a blank follows it. -/
theorem significant_literal (r : Replacement) (rest : List Char) (position : Nat) :
    ∃ u : Token, u.literalValue? = some r.value ∧
      significant (r.text.toList ++ ' ' :: rest) position =
        (u :: (significant rest (position + r.text.length + 1)).1,
          (significant rest (position + r.text.length + 1)).2) := by
  obtain ⟨c, first, htext, hscan⟩ := scan_of_tokens r.tokens_eq
  have hkind : ¬IsTrivia r.token.kind := not_isTrivia_of_literalValue? r.value_eq
  have hspace : ' ' ∈ separators := by decide
  have hcut := scan_of_whole hscan hkind hspace position rest
  have hlength : r.text.length = first.length + 1 := by
    rw [← String.length_toList, htext, List.length_cons]
  refine ⟨⟨r.token.kind, String.ofList (c :: first), position⟩, r.value_eq, ?_⟩
  rw [htext, List.cons_append, significant_of_token hcut hkind, significant_space (by decide),
    hlength, ← Nat.add_assoc]

/-- The text with the literal begins like the text without it, up to where they differ: there a
blank stands in the place of an `@`. -/
theorem flatMap_write_cases (r : Replacement) (h : Lexes text position ts) :
    ts.flatMap r.write = text ∨ ∃ common behind behind', text = common ++ '@' :: behind ∧
      ts.flatMap r.write = common ++ ' ' :: behind' := by
  induction h with
  | nil => exact .inl rfl
  | @cons c first rest kind position later hscan _ ih =>
    rw [List.flatMap_cons, write]
    cases hreplaces : r.replaces ⟨kind, String.ofList (c :: first), position⟩ with
    | true =>
      obtain ⟨name, rfl⟩ := kind_of_replaces hreplaces
      obtain rfl := eq_at_of_parameter hscan
      exact .inr ⟨[], first ++ rest, _, rfl, rfl⟩
    | false =>
      simp only [Bool.false_eq_true, if_false, String.toList_ofList]
      rcases ih with hsame | ⟨common, behind, behind', htext, hwritten⟩
      · exact .inl (by rw [hsame]; rfl)
      · exact .inr ⟨c :: (first ++ common), behind, behind', by simp [htext], by simp [hwritten]⟩

/-- A token that stays is read as before, whatever happens to the tokens behind it. -/
theorem scan_write (r : Replacement) (hspace : isSpace c = false)
    (hscan : scan position c (first ++ rest) = .ok (kind, first.length + 1))
    (h : Lexes rest (position + first.length + 1) ts) (position' : Nat) :
    scan position' c (first ++ ts.flatMap r.write) = .ok (kind, first.length + 1) := by
  rcases r.flatMap_write_cases h with hsame | ⟨common, behind, behind', rfl, hwritten⟩
  · rw [hsame]
    exact scan_ok_anywhere hscan position'
  · rw [hwritten, ← List.append_assoc]
    rw [← List.append_assoc] at hscan
    refine scan_cut hscan (by simp) (by decide) hspace ?_ position' behind'
    exact fun _ => .inr ⟨'@', rfl, rfl⟩

/-- The tokens, which begin at some place, are found in the text that is written for them: the
literal changes no token but the parameter. An operator that begins the text does so in both. -/
def Reread (r : Replacement) (ts : List Token) (position : Nat) : Prop :=
  ∀ position', ∃ us, significant (ts.flatMap r.write) position' = (us, none) ∧
    r.Replaced (ts.filter fun t => !t.isTrivia) us ∧
    ∀ t ∈ (ts.filter fun t => !t.isTrivia).head?, ∀ u ∈ us.head?, t.isSymbol →
      (t.position = position ↔ u.position = position')

variable {t : Token} {place : Nat}

/-- Trivia are skipped in both texts. -/
theorem Reread.skip (h : r.Reread ts place) (ht : t.isTrivia = true)
    (hbehind : ∀ u ∈ ts, position < u.position)
    (hskip : ∀ position', ∃ later, position' < later ∧
      significant ((t :: ts).flatMap r.write) position' =
        significant (ts.flatMap r.write) later) : r.Reread (t :: ts) position := by
  intro position'
  obtain ⟨later, hless, hskip⟩ := hskip position'
  obtain ⟨us, hus, hreplaced, -⟩ := h later
  have hfilter : ((t :: ts).filter fun t => !t.isTrivia) = ts.filter fun t => !t.isTrivia := by
    rw [List.filter_cons, ht]
    rfl
  rw [hfilter]
  refine ⟨us, hskip.trans hus, hreplaced, fun u hu v hv _ => iff_of_false ?_ ?_⟩
  · exact Nat.ne_of_gt (hbehind u (List.mem_filter.mp (List.mem_of_mem_head? hu)).1)
  · have hle : later ≤ v.position :=
      position_le_of_mem (by rw [hus]; exact List.mem_of_mem_head? hv)
    omega

/-- The literal is read in the place of the parameter. -/
theorem Reread.parameter (h : r.Reread ts place) (ht : r.replaces t = true) :
    r.Reread (t :: ts) position := by
  intro position'
  obtain ⟨name, hkind⟩ := kind_of_replaces ht
  obtain ⟨u, hvalue, hliteral⟩ :=
    r.significant_literal (ts.flatMap r.write) (position' + 1)
  obtain ⟨us, hus, hreplaced, -⟩ := h (position' + 1 + r.text.length + 1)
  have hsymbol' : t.isSymbol = false := by simp only [Token.isSymbol, hkind]
  have htrivia : t.isTrivia = false := by simp [Token.isTrivia, hkind]
  have hstands : r.Stands t u := by
    rw [Stands, if_pos ht]
    exact hvalue
  simp only [List.filter_cons, htrivia, Bool.not_false, if_true]
  refine ⟨u :: us, ?_, .cons hstands (fun _ _ _ _ hsymbol => ?_) hreplaced, ?_⟩
  · rw [List.flatMap_cons, write, if_pos ht, List.cons_append, List.append_assoc,
      List.singleton_append, significant_space (by decide), hliteral, hus]
  · rw [hsymbol'] at hsymbol
    cases hsymbol
  · rintro _ ⟨⟩ _ _ hsymbol
    rw [hsymbol'] at hsymbol
    cases hsymbol

/-- Any other token is read as it is. -/
theorem Reread.token (h : r.Reread ts (position + first.length + 1))
    (hreplaces : r.replaces ⟨kind, String.ofList (c :: first), position⟩ = false)
    (hkind : ¬IsTrivia kind) (hscan : ∀ position',
      scan position' c (first ++ ts.flatMap r.write) = .ok (kind, first.length + 1)) :
    r.Reread (⟨kind, String.ofList (c :: first), position⟩ :: ts) position := by
  intro position'
  obtain ⟨us, hus, hreplaced, hhead⟩ := h (position' + first.length + 1)
  have htrivia : Token.isTrivia ⟨kind, String.ofList (c :: first), position⟩ = false := by
    rw [← Bool.not_eq_true]
    exact fun h => hkind (isTrivia_iff.mp h)
  have hstands : r.Stands ⟨kind, String.ofList (c :: first), position⟩
      ⟨kind, String.ofList (c :: first), position'⟩ := by
    rw [Stands, if_neg (by rw [hreplaces]; exact Bool.false_ne_true)]
    rfl
  simp only [List.filter_cons, htrivia, Bool.not_false, if_true]
  refine ⟨⟨kind, String.ofList (c :: first), position'⟩ :: us, ?_,
    .cons hstands (fun t' ht' u' hu' _ hsymbol => ?_) hreplaced, ?_⟩
  · rw [List.flatMap_cons, write, hreplaces, if_neg Bool.false_ne_true, String.toList_ofList,
      List.cons_append, significant_of_token (hscan position') hkind, hus]
  · simp only [Token.Touches, Token.stop, String.length_ofList, List.length_cons, ← Nat.add_assoc]
    exact hhead t' ht' u' hu' hsymbol
  · rintro _ ⟨⟩ _ ⟨⟩ _
    exact iff_of_true rfl rfl

/-- What is written for the tokens of a text is read again. -/
theorem reread_of_lexes (r : Replacement) (h : Lexes text position ts) : r.Reread ts position := by
  induction h with
  | nil => exact fun position' => ⟨[], significant_nil position', .nil, fun _ ht => by cases ht⟩
  | @cons c first rest kind position later hscan hlater ih =>
    have hbehind : ∀ u ∈ later, position < u.position := by
      intro u hu
      have hle := hlater.position_le u hu
      omega
    cases hreplaces : r.replaces ⟨kind, String.ofList (c :: first), position⟩ with
    | true => exact ih.parameter hreplaces
    | false =>
      have hwritten : ∀ position', significant
          ((⟨kind, String.ofList (c :: first), position⟩ :: later).flatMap r.write) position' =
            significant (c :: first ++ later.flatMap r.write) position' := by
        intro position'
        rw [List.flatMap_cons, write, hreplaces, if_neg Bool.false_ne_true, String.toList_ofList]
      cases hspace : isSpace c with
      | true =>
        obtain rfl : .whitespace = kind := by
          rw [scan_space _ _ hspace] at hscan
          exact congrArg Prod.fst (Except.ok.inj hscan)
        refine ih.skip rfl hbehind fun position' => ⟨position' + (c :: first).length, by simp, ?_⟩
        rw [hwritten, significant_spaces (isSpace_of_scan hspace hscan)]
      | false =>
        have hwrite := r.scan_write hspace hscan hlater
        by_cases hkind : IsTrivia kind
        · refine ih.skip (isTrivia_iff.mpr hkind) hbehind fun position' =>
            ⟨position' + first.length + 1, by omega, ?_⟩
          rw [hwritten, List.cons_append, significant_of_trivia (hwrite position') hkind]
        · exact ih.token hreplaces hkind hwrite

end Replacement
end TransactSql
