/-
TransactSql.Cursor — a place in the sequence of significant tokens.

A `Cursor` stands before the tokens of a text that are not trivia. The
text may hold a lexical fault behind the last of them. The first request
for a token beyond that one reports the fault, and only this one does:
afterwards the tokens simply end there. Where the tokens end but one is
needed, the failure names the last token that was read.
-/
import TransactSql.Lexer

namespace TransactSql

/-- The tokens still to be read. -/
structure Cursor where
  tokens : List Token
  /-- What went wrong behind the tokens, until it is reported. -/
  fault : Option Error
  /-- The text of the last token that was read, or nothing before the first. -/
  lastLiteral : String

namespace Cursor

/-- The cursor at the start of a text. -/
def ofText (text : String) : Cursor :=
  let (tokens, fault) := (Lexer.ofText text).tokens
  ⟨tokens.filter fun token => !token.isTrivia, fault, ""⟩

/-- How many tokens are still to be read. -/
def remaining (c : Cursor) : Nat := c.tokens.length

/-- The failure if a token is needed and there is none. -/
def unexpectedEnd (c : Cursor) : Error :=
  .incorrectSyntax c.lastLiteral

/-- The token so many places ahead, where the next one is at place zero. -/
def peekNth (c : Cursor) (n : Nat) : Except Error (Option Token) × Cursor :=
  match c.tokens[n]?, c.fault with
  | some token, _ => (.ok (some token), c)
  | none, some e => (.error e, { c with fault := none })
  | none, none => (.ok none, c)

/-- Reads the next token, if there is one. -/
def next (c : Cursor) : Except Error (Option Token) × Cursor :=
  match c.tokens, c.fault with
  | token :: rest, _ => (.ok (some token), { c with tokens := rest, lastLiteral := token.literal })
  | [], some e => (.error e, { c with fault := none })
  | [], none => (.ok none, c)

/-! ## What is left after a request -/

theorem remaining_peekNth (c : Cursor) (n : Nat) : (c.peekNth n).2.remaining = c.remaining := by
  unfold peekNth
  split <;> rfl

theorem remaining_next (c : Cursor) : c.next.2.remaining = c.remaining - 1 := by
  obtain ⟨tokens, fault, last⟩ := c
  cases tokens <;> cases fault <;> rfl

/-- A token is read only where there is one. -/
theorem remaining_pos_of_next {c c' : Cursor} {token : Token}
    (h : c.next = (.ok (some token), c')) : 0 < c.remaining := by
  obtain ⟨tokens, fault, last⟩ := c
  cases tokens with
  | nil => cases fault <;> cases h
  | cons first rest => exact Nat.succ_pos _

end Cursor
end TransactSql
