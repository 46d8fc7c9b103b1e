/-
TransactSql.Proofs.Lexer.Kinds — what the kind of a token says of its text.

A bare word is a keyword exactly if its text is one, a variable is its
name behind one `@` or two, and a comment begins with its mark. The
first characters of a text are gone through once here, so that what a
token is can be read off its kind (`fits_of_split`).
-/
import TransactSql.Proofs.Lexer.Significant

namespace TransactSql

/-- The kind of the token is what its text says. Nothing is said of kinds that hold all that a
reader sees of the token. -/
def Token.Fits (t : Token) : Prop :=
  match t.kind with
  | .comment =>
    ∃ rest, t.literal.toList = '-' :: '-' :: rest ∨ t.literal.toList = '/' :: '*' :: rest
  | .keyword keyword => Keyword.ofWord? t.literal = some keyword
  | .word => Keyword.ofWord? t.literal = none
  | .parameter name => t.literal = "@" ++ name
  | .systemVariable name => t.literal = "@@" ++ name
  | _ => True

namespace Lexer

variable {c : Char} {first rest text : List Char} {kind : TokenKind} {position length : Nat}

theorem fits_of_scanVariable (h : scanVariable position rest = .ok (kind, length)) :
    Token.Fits ⟨kind, String.ofList (('@' :: rest).take length), position⟩ := by
  have hliteral : ∀ (marks : String) (name : List Char),
      String.ofList (marks.toList ++ name) = marks ++ String.ofList name := by
    intro marks name
    rw [String.ofList_append, String.ofList_toList]
  by_cases hhead : rest.head? = some '@'
  · obtain ⟨rest, rfl⟩ := List.head?_eq_some_iff.mp hhead
    rw [scanVariable_double] at h
    split at h <;> cases h
    exact hliteral "@@" _
  · rw [scanVariable_single _ hhead] at h
    split at h <;> cases h
    exact hliteral "@" _

theorem fits_of_scanQuotation {close : Char} {before : Nat} {make : String → TokenKind}
    {literal : String} (h : scanQuotation close before make rest = .ok (kind, length))
    (hmake : ∀ s, Token.Fits ⟨make s, literal, position⟩) :
    Token.Fits ⟨kind, literal, position⟩ := by
  dsimp only [scanQuotation] at h
  split at h <;> cases h
  exact hmake _

theorem fits_of_scanWord (h : scanWord text = (kind, length)) :
    Token.Fits ⟨kind, String.ofList (text.take length), position⟩ := by
  dsimp only [scanWord] at h
  split at h <;> cases h <;> assumption

theorem fits_of_scan (h : scan position c rest = .ok (kind, length)) :
    Token.Fits ⟨kind, String.ofList ((c :: rest).take length), position⟩ := by
  rcases sort_cases c with hspace | rfl | rfl | hdigit | rfl | rfl | rfl | hplain
  · rw [scan_space _ _ hspace] at h
    cases h
    trivial
  · rcases rest with _ | ⟨d, rest⟩
    · cases h
    by_cases hd : d = '-'
    · subst hd
      rw [scan_lineComment] at h
      cases h
      exact ⟨_, .inl String.toList_ofList⟩
    · rw [scan_minus _ _ hd] at h
      cases h
      trivial
  · by_cases hopen : rest.head? = some '*'
    · obtain ⟨rest, rfl⟩ := List.head?_eq_some_iff.mp hopen
      rw [scan_blockComment] at h
      split at h <;> cases h
      exact ⟨_, .inr String.toList_ofList⟩
    · rw [scan_slash _ _ hopen] at h
      cases h
      trivial
  · rw [scan_digit _ _ hdigit] at h
    dsimp only [scanNumber] at h
    split at h <;> cases h <;> trivial
  · exact fits_of_scanVariable h
  · rw [scan_bracket] at h
    exact fits_of_scanQuotation h fun _ => trivial
  · rw [scan_quote] at h
    exact fits_of_scanQuotation h fun _ => trivial
  cases hname : isNameStart c with
  | true =>
    by_cases hnational : (c = 'N' ∨ c = 'n') ∧ rest.head? = some '\''
    · obtain ⟨rest, rfl⟩ := List.head?_eq_some_iff.mp hnational.2
      rw [scan_national _ _ hnational.1] at h
      exact fits_of_scanQuotation h fun _ => trivial
    · rw [scan_word _ _ hplain hname hnational] at h
      exact fits_of_scanWord (Except.ok.inj h)
  | false =>
    rw [scan_mark _ _ hplain hname] at h
    repeat' split at h
    all_goals cases h
    all_goals trivial

theorem fits_of_split (h : scan position c (first ++ rest) = .ok (kind, first.length + 1)) :
    Token.Fits ⟨kind, String.ofList (c :: first), position⟩ := by
  have hfits := fits_of_scan h
  rwa [List.take_succ_cons, List.take_left] at hfits

end Lexer
end TransactSql
