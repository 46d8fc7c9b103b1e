/-
TransactSql.Proofs.Lexer.Spelling — tokens up to the case of their
letters.

`Token.SameButForCase` compares what is written: the tokens are
identical, or they are both bare words, or both variables, with the same
letters. As a token fits its text, so do their kinds then, up to the
spelling of the name of a variable (`Token.Respelled`): a bare word is
reserved in every case or in none. Their places in the two texts are the
same, because every token is as long as the one it corresponds to.
-/
import TransactSql.Proofs.Collation.Spelling
import TransactSql.Proofs.Lexer.Kinds

namespace TransactSql

/-! ## What is written -/

/-- The token is a word without brackets, reserved or not. -/
def Token.isBareWord (t : Token) : Bool :=
  match t.kind with
  | .keyword _ | .word => true
  | _ => false

def Token.isParameter (t : Token) : Bool :=
  match t.kind with
  | .parameter _ => true
  | _ => false

def Token.isSystemVariable (t : Token) : Bool :=
  match t.kind with
  | .systemVariable _ => true
  | _ => false

/-- The tokens are identical, but a bare word or a variable may be written in another case. -/
def Token.SameButForCase (t u : Token) : Prop :=
  (t.kind = u.kind ∧ t.literal = u.literal) ∨
    ((t.isBareWord ∧ u.isBareWord ∨ t.isParameter ∧ u.isParameter ∨
      t.isSystemVariable ∧ u.isSystemVariable) ∧ SameLetters t.literal u.literal)

instance (s t : String) : Decidable (SameLetters s t) :=
  inferInstanceAs (Decidable (_ = _))

instance (t u : Token) : Decidable (t.SameButForCase u) :=
  inferInstanceAs (Decidable (_ ∨ _))

/-! ## What is read -/

/-- The kinds are the same, up to the spelling of the name of a variable. -/
inductive TokenKind.Respelled : TokenKind → TokenKind → Prop
  | refl (kind : TokenKind) : Respelled kind kind
  | parameter {a b : String} (h : SameLetters a b) : Respelled (.parameter a) (.parameter b)
  | systemVariable {a b : String} (h : SameLetters a b) :
      Respelled (.systemVariable a) (.systemVariable b)

/-- The tokens stand in one place and are read alike. -/
structure Token.Respelled (t u : Token) : Prop where
  kind : t.kind.Respelled u.kind
  literal : SameLetters t.literal u.literal
  position : t.position = u.position

namespace Token

variable {t u : Token}

theorem SameButForCase.sameLetters (h : t.SameButForCase u) :
    SameLetters t.literal u.literal := by
  rcases h with ⟨-, hliteral⟩ | ⟨-, hletters⟩
  · exact congrArg Collation.asciiLowercase hliteral
  · exact hletters

/-- What kind a bare word is of depends on its letters alone. -/
theorem kind_of_isBareWord (h : t.isBareWord = true) (hfits : t.Fits) :
    t.kind = match Keyword.ofWord? t.literal with
      | some keyword => .keyword keyword
      | none => .word := by
  obtain ⟨kind, literal, position⟩ := t
  cases kind with
  | keyword keyword =>
    have hword : Keyword.ofWord? literal = some keyword := hfits
    rw [hword]
  | word =>
    have hword : Keyword.ofWord? literal = none := hfits
    rw [hword]
  | _ => cases h

theorem eq_of_isParameter (h : t.isParameter = true) (hfits : t.Fits) :
    ∃ name, t.kind = .parameter name ∧ t.literal = "@" ++ name := by
  obtain ⟨kind, literal, position⟩ := t
  cases kind <;> cases h
  exact ⟨_, rfl, hfits⟩

theorem eq_of_isSystemVariable (h : t.isSystemVariable = true) (hfits : t.Fits) :
    ∃ name, t.kind = .systemVariable name ∧ t.literal = "@@" ++ name := by
  obtain ⟨kind, literal, position⟩ := t
  cases kind <;> cases h
  exact ⟨_, rfl, hfits⟩

/-- Tokens that are written alike are of the same kind, up to spelling. -/
theorem SameButForCase.kind (h : t.SameButForCase u) (hfits : t.Fits) (hfits' : u.Fits) :
    t.kind.Respelled u.kind := by
  rcases h with ⟨hkind, -⟩ | ⟨⟨ht, hu⟩ | ⟨ht, hu⟩ | ⟨ht, hu⟩, hletters⟩
  · exact hkind ▸ .refl _
  · rw [kind_of_isBareWord ht hfits, kind_of_isBareWord hu hfits', hletters.ofWord?_eq]
    exact .refl _
  · obtain ⟨name, hkind, hliteral⟩ := eq_of_isParameter ht hfits
    obtain ⟨name', hkind', hliteral'⟩ := eq_of_isParameter hu hfits'
    rw [hliteral, hliteral'] at hletters
    rw [hkind, hkind']
    exact .parameter hletters.of_append
  · obtain ⟨name, hkind, hliteral⟩ := eq_of_isSystemVariable ht hfits
    obtain ⟨name', hkind', hliteral'⟩ := eq_of_isSystemVariable hu hfits'
    rw [hliteral, hliteral'] at hletters
    rw [hkind, hkind']
    exact .systemVariable hletters.of_append

end Token

namespace Lexer

/-- The tokens of two texts that are written alike are read alike. -/
theorem Lexes.respelled {text text' : List Char} {position : Nat} {ts us : List Token}
    (h : Lexes text position ts) (h' : Lexes text' position us)
    (hcase : List.Forall₂ Token.SameButForCase ts us) : List.Forall₂ Token.Respelled ts us := by
  induction h generalizing text' us with
  | nil => cases hcase with | nil => exact .nil
  | cons hscan hrest ih =>
    cases hcase with
    | cons hfirst hlater =>
      cases h' with
      | cons hscan' hrest' =>
        have hletters := hfirst.sameLetters
        have hlength := hletters.length_eq
        simp only [String.length_ofList, List.length_cons, Nat.add_right_cancel_iff] at hlength
        refine .cons ⟨hfirst.kind (fits_of_split hscan) (fits_of_split hscan'), hletters, rfl⟩ ?_
        exact ih (hlength ▸ hrest') hlater

end Lexer
end TransactSql
