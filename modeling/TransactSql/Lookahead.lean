/-
TransactSql.Lookahead — the significant tokens of a text, read on demand.

A `Lookahead` goes through a text only as far as it is asked to. Tokens
that were looked at but not read yet wait in a buffer. Where a request
needs more of them, further ones are drawn from the lexer, and trivia is
dropped on the way. A lexical fault is reported by the request that meets
it; the lexer yields nothing after that, and what is in the buffer stays.

The readers of `Parse` run on a cursor that holds all tokens from the
start. The requests here are the same ones, and `Proofs.Parse.Lookahead`
proves that they have the same answers.
-/
import TransactSql.Lexer
import TransactSql.QualifiedName

namespace TransactSql

/-- A place in the tokens of a text, which are drawn from a lexer when they are needed. -/
structure Lookahead where
  lexer : Lexer
  /-- The tokens that were drawn and not read yet. -/
  buffer : List Token
  /-- The text of the last token that was read, or nothing before the first. -/
  lastLiteral : String

/-- Reads something through a lookahead, or fails. A failure does not undo what was read. -/
abbrev LookaheadM := EStateM Error Lookahead

namespace Lookahead

variable {α β : Type}

/-- The start of a text. -/
def ofText (text : String) : Lookahead := ⟨Lexer.ofText text, [], ""⟩

/-! ## Drawing tokens -/

/-- Draws tokens until there are so many in the buffer, and tells whether there are as many. -/
def draw (n : Nat) (l : Lookahead) : EStateM.Result Error Lookahead Bool :=
  if n ≤ l.buffer.length then .ok true l
  else
    match _h : l.lexer.next with
    | (none, lexer) => .ok false { l with lexer }
    | (some (.error e), lexer) => .error e { l with lexer }
    | (some (.ok token), lexer) =>
      let buffer := if token.isTrivia then l.buffer else l.buffer ++ [token]
      draw n { l with lexer, buffer }
termination_by l.lexer.rest.length
decreasing_by exact Lexer.length_rest_lt_of_next _h

/-- Sees to it that so many tokens are in the buffer, if the text has as many. -/
def fill (n : Nat) : LookaheadM Bool := draw n

/-- The token so many places ahead, where the next one is at place zero. -/
def peekNth (n : Nat) : LookaheadM (Option Token) := do
  let _ ← fill (n + 1)
  return (← get).buffer[n]?

/-- Reads the next token, if there is one. -/
def next : LookaheadM (Option Token) := do
  let _ ← fill 1
  let l ← get
  match l.buffer with
  | [] => return none
  | token :: buffer =>
    set { l with buffer, lastLiteral := token.literal }
    return some token

/-- The failure if a token is needed and there is none. -/
def unexpectedEnd : LookaheadM Error := do
  return .incorrectSyntax (← get).lastLiteral

/-! ## Looking ahead -/

/-- The next token. -/
def peek : LookaheadM (Option Token) := peekNth 0

/-- The next token has a property. -/
def peekIs (p : Token → Bool) : LookaheadM Bool := do
  let token ← peek
  return token.any p

def peekKeyword (keyword : Keyword) : LookaheadM Bool :=
  peekIs (·.isKeyword keyword)

/-! ## Reading one token -/

/-- Reads the next token; there has to be one. -/
def expectNext : LookaheadM Token := do
  match ← next with
  | some token => return token
  | none => throw (← unexpectedEnd)

/-- Reads the next token if it has a property. -/
def nextIf (p : Token → Bool) : LookaheadM (Option Token) := do
  if ← peekIs p then next else return none

/-- Reads the next token if it has a property, and tells whether it has. -/
def consume (p : Token → Bool) : LookaheadM Bool := do
  let token ← nextIf p
  return token.isSome

def consumeKeyword (keyword : Keyword) : LookaheadM Bool :=
  consume (·.isKeyword keyword)

def consumeKind (kind : TokenKind) : LookaheadM Bool :=
  consume (·.kind == kind)

/-- Reads an operator that follows another token without a gap. -/
def consumeAdjacent (previous : Token) (symbol : Char) : LookaheadM Bool :=
  consume fun token => token.isOperator symbol && token.position == previous.stop

/-- Reads the next token, which has to have a property. -/
def expect (p : Token → Bool) : LookaheadM Token := do
  let token ← expectNext
  if p token then return token else throw token.unexpected

def expectKeyword (keyword : Keyword) : LookaheadM Token :=
  expect (·.isKeyword keyword)

def expectKind (kind : TokenKind) : LookaheadM Token :=
  expect (·.kind == kind)

/-- Reads a token that stands for a text of some sort. -/
def expectText (text? : Token → Option String) : LookaheadM String := do
  let token ← expectNext
  match text? token with
  | some text => return text
  | none => throw token.unexpected

/-- Reads a name. -/
def expectIdentifier : LookaheadM String :=
  expectText Token.identifier?

/-- Reads a name or a quoted text. -/
def expectAlias : LookaheadM String :=
  expectText Token.aliasText?

/-- Reads an alias without the word `AS` before it. -/
def implicitAlias? : LookaheadM (Option String) := do
  let token ← nextIf fun token => token.aliasText?.isSome
  return token.bind Token.aliasText?

/-! ## What is left after a request -/

/-- A bound for the number of tokens that are still to be read. -/
def remaining (l : Lookahead) : Nat := l.buffer.length + l.lexer.rest.length

theorem run_bind_ok {x : LookaheadM α} {f : α → LookaheadM β} {l l' : Lookahead} {b : β} :
    (x >>= f).run l = .ok b l' ↔ ∃ a l₁, x.run l = .ok a l₁ ∧ (f a).run l₁ = .ok b l' := by
  rw [EStateM.run_bind]
  cases x.run l with
  | ok a l₁ => exact ⟨fun h => ⟨a, l₁, rfl, h⟩, fun ⟨_, _, h, hf⟩ => by cases h; exact hf⟩
  | error e l₁ => exact ⟨nofun, fun ⟨_, _, h, _⟩ => nomatch h⟩

/-- A token that is drawn takes at least one character from the text. -/
theorem remaining_fill {n : Nat} {l l' : Lookahead} {filled : Bool}
    (h : (fill n).run l = .ok filled l') : l'.remaining ≤ l.remaining := by
  replace h : draw n l = .ok filled l' := h
  fun_induction draw n l with
  | case1 l henough =>
    cases h
    exact Nat.le_refl _
  | case2 l hfew lexer hnext =>
    cases h
    cases Lexer.eq_of_next_none hnext
    exact Nat.le_refl _
  | case3 => cases h
  | case4 l hfew token lexer hnext buffer ih =>
    have hshorter := Lexer.length_rest_lt_of_next hnext
    have hbuffer : buffer.length ≤ l.buffer.length + 1 := by
      simp only [buffer]
      split <;> simp
    refine Nat.le_trans (ih h) ?_
    simp only [remaining]
    omega

theorem remaining_peekNth {n : Nat} {l l' : Lookahead} {token : Option Token}
    (h : (peekNth n).run l = .ok token l') : l'.remaining ≤ l.remaining := by
  obtain ⟨filled, l₁, hfill, h⟩ := run_bind_ok.mp h
  cases h
  exact remaining_fill hfill

/-- Where a token is read, less is left. -/
theorem remaining_next {l l' : Lookahead} {token : Token}
    (h : next.run l = .ok (some token) l') : l'.remaining < l.remaining := by
  obtain ⟨filled, ⟨lexer, buffer, last⟩, hfill, h⟩ := run_bind_ok.mp h
  refine Nat.lt_of_lt_of_le ?_ (remaining_fill hfill)
  cases buffer with
  | nil => cases h
  | cons first rest =>
    cases h
    simp only [remaining, List.length_cons]
    omega

theorem remaining_nextIf {p : Token → Bool} {l l' : Lookahead} {token : Token}
    (h : (nextIf p).run l = .ok (some token) l') : l'.remaining < l.remaining := by
  obtain ⟨holds, l₁, hpeekIs, h⟩ := run_bind_ok.mp h
  obtain ⟨first, l₂, hpeek, hpeekIs⟩ := run_bind_ok.mp hpeekIs
  cases hpeekIs
  have hless : l'.remaining < l₁.remaining := by
    split at h
    · exact remaining_next h
    · cases h
  exact Nat.lt_of_lt_of_le hless (remaining_peekNth hpeek)

theorem remaining_expectText {text? : Token → Option String} {l l' : Lookahead} {text : String}
    (h : (expectText text?).run l = .ok text l') : l'.remaining < l.remaining := by
  obtain ⟨token, l₁, hexpect, h⟩ := run_bind_ok.mp h
  obtain ⟨first, l₂, hnext, hexpect⟩ := run_bind_ok.mp hexpect
  cases first with
  | none => cases hexpect
  | some first =>
    cases hexpect
    cases htext : text? token <;> rw [htext] at h <;> cases h
    exact remaining_next hnext

/-! ## Reading names -/

/-- Reads a name, and further parts of it as long as a dot comes first. -/
def readParts (l : Lookahead) : EStateM.Result Error Lookahead QualifiedName :=
  match _hpart : expectIdentifier.run l with
  | .error e l₁ => .error e l₁
  | .ok part l₁ =>
    match _hdot : (nextIf (·.isOperator '.')).run l₁ with
    | .error e l₂ => .error e l₂
    | .ok none l₂ => .ok [part] l₂
    | .ok (some _) l₂ =>
      match readParts l₂ with
      | .error e l₃ => .error e l₃
      | .ok parts l₃ => .ok (part :: parts) l₃
termination_by l.remaining
decreasing_by exact Nat.lt_trans (remaining_nextIf _hdot) (remaining_expectText _hpart)

/-- Reads a name with its qualifiers. -/
def expectObjectName : LookaheadM QualifiedName := readParts

end Lookahead
end TransactSql
