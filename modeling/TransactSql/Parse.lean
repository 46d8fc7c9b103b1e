/-
TransactSql.Parse — functions that read from a cursor.

A `Parse` moves a cursor and answers, or fails; it can look ahead as far
as it likes. It never puts tokens back: a proof that the cursor has no
more tokens after it than before is a part of it, so that whatever reads
one token in each round comes to an end.

All repetition in the grammar is `Parse.separatedNumbered`, a sequence of
items with separators between them.
-/
import TransactSql.Cursor
import TransactSql.QualifiedName

namespace TransactSql

/-- Reads something from a cursor, or fails. -/
structure Parse (α : Type) where
  run : Cursor → Except Error α × Cursor
  remaining_run_le : ∀ c, (run c).2.remaining ≤ c.remaining

namespace Parse

variable {α β : Type}

/-! ## Combining -/

/-- Answers without reading. -/
def answer (a : α) : Parse α := ⟨fun c => (.ok a, c), fun _ => Nat.le_refl _⟩

/-- Fails without reading. -/
def fail (e : Error) : Parse α := ⟨fun c => (.error e, c), fun _ => Nat.le_refl _⟩

/-- Goes on with what the first answer asks for; after a failure nothing more is read. -/
def thenRun (p : Parse α) (f : α → Parse β) (c : Cursor) : Except Error β × Cursor :=
  match p.run c with
  | (.ok a, c') => (f a).run c'
  | (.error e, c') => (.error e, c')

theorem remaining_thenRun_le (p : Parse α) (f : α → Parse β) (c : Cursor) :
    (thenRun p f c).2.remaining ≤ c.remaining := by
  have first := p.remaining_run_le c
  unfold thenRun
  split
  · next a c' heq =>
    rw [heq] at first
    exact Nat.le_trans ((f a).remaining_run_le c') first
  · next e c' heq =>
    rw [heq] at first
    exact first

instance : Monad Parse where
  pure := answer
  bind p f := ⟨thenRun p f, remaining_thenRun_le p f⟩

@[simp] theorem run_pure (a : α) (c : Cursor) : (pure a : Parse α).run c = (.ok a, c) := rfl

@[simp] theorem run_fail (e : Error) (c : Cursor) : (fail e : Parse α).run c = (.error e, c) := rfl

theorem run_bind (p : Parse α) (f : α → Parse β) (c : Cursor) :
    (p >>= f).run c =
      match p.run c with
      | (.ok a, c') => (f a).run c'
      | (.error e, c') => (.error e, c') := rfl

/-- Fails if the answer is a failure. -/
def ofExcept : Except Error α → Parse α
  | .ok a => pure a
  | .error e => fail e

/-! ## Looking ahead -/

/-- The token so many places ahead, where the next one is at place zero. -/
def peekNth (n : Nat) : Parse (Option Token) :=
  ⟨fun c => c.peekNth n, fun c => Nat.le_of_eq (c.remaining_peekNth n)⟩

/-- The next token. -/
def peek : Parse (Option Token) := peekNth 0

/-- The next token has a property. -/
def peekIs (p : Token → Bool) : Parse Bool := do
  let token ← peek
  pure (token.any p)

def peekKeyword (keyword : Keyword) : Parse Bool :=
  peekIs (·.isKeyword keyword)

/-! ## Reading one token -/

/-- Reads the next token, if there is one. -/
def next : Parse (Option Token) :=
  ⟨Cursor.next, fun c => by rw [Cursor.remaining_next]; exact Nat.sub_le _ _⟩

/-- Fails as the end of the text does where a token is needed. -/
def failAtEnd : Parse α :=
  ⟨fun c => (.error c.unexpectedEnd, c), fun _ => Nat.le_refl _⟩

/-- Reads the next token; there has to be one. -/
def expectNext : Parse Token := do
  match ← next with
  | some token => pure token
  | none => failAtEnd

/-- Reads the next token if it has a property. -/
def nextIf (p : Token → Bool) : Parse (Option Token) := do
  if ← peekIs p then next else pure none

/-- Reads the next token if it has a property, and tells whether it has. -/
def consume (p : Token → Bool) : Parse Bool := do
  let token ← nextIf p
  pure token.isSome

def consumeKeyword (keyword : Keyword) : Parse Bool :=
  consume (·.isKeyword keyword)

def consumeKind (kind : TokenKind) : Parse Bool :=
  consume (·.kind == kind)

/-- Reads an operator that follows another token without a gap. -/
def consumeAdjacent (previous : Token) (symbol : Char) : Parse Bool :=
  consume fun token => token.isOperator symbol && token.position == previous.stop

/-- Reads the next token, which has to have a property. -/
def expect (p : Token → Bool) : Parse Token := do
  let token ← expectNext
  if p token then pure token else fail token.unexpected

def expectKeyword (keyword : Keyword) : Parse Token :=
  expect (·.isKeyword keyword)

def expectKind (kind : TokenKind) : Parse Token :=
  expect (·.kind == kind)

/-- Reads a token that stands for a text of some sort. -/
def expectText (text? : Token → Option String) : Parse String := do
  let token ← expectNext
  match text? token with
  | some text => pure text
  | none => fail token.unexpected

/-- Reads a name. -/
def expectIdentifier : Parse String :=
  expectText Token.identifier?

/-- Reads a name or a quoted text. -/
def expectAlias : Parse String :=
  expectText Token.aliasText?

/-- Reads a token that stands for a text of some sort, if the next one does. -/
def nextText? (text? : Token → Option String) : Parse (Option String) := do
  let token ← nextIf fun token => (text? token).isSome
  pure (token.bind text?)

/-- Reads an alias without the word `AS` before it. -/
def implicitAlias? : Parse (Option String) :=
  nextText? Token.aliasText?

/-! ## Reading sequences -/

/-- Reads an item, and further ones as long as a separator comes first. The reader of an item is
told how many were read before it. A separator behind which no token is gone ends the sequence, so
there are not more items than tokens. -/
def runSeparated (separator : Parse Bool) (item : Nat → Parse α) (place : Nat) (c : Cursor) :
    Except Error (α × List α) × Cursor :=
  match (item place).run c with
  | (.error e, c₁) => (.error e, c₁)
  | (.ok first, c₁) =>
    match separator.run c₁ with
    | (.error e, c₂) => (.error e, c₂)
    | (.ok false, c₂) => (.ok (first, []), c₂)
    | (.ok true, c₂) =>
      if c₂.remaining < c.remaining then
        match runSeparated separator item (place + 1) c₂ with
        | (.error e, c₃) => (.error e, c₃)
        | (.ok more, c₃) => (.ok (first, more.1 :: more.2), c₃)
      else (.ok (first, []), c₂)
termination_by c.remaining

theorem remaining_runSeparated_le (separator : Parse Bool) (item : Nat → Parse α) (place : Nat)
    (c : Cursor) : (runSeparated separator item place c).2.remaining ≤ c.remaining := by
  induction place, c using runSeparated.induct separator item with
  | case1 place c e c₁ h =>
    have left := (item place).remaining_run_le c
    rw [h] at left
    rw [runSeparated, h]
    exact left
  | case2 place c first c₁ h e c₂ h' =>
    have left := (item place).remaining_run_le c
    have right := separator.remaining_run_le c₁
    rw [h] at left
    rw [h'] at right
    rw [runSeparated, h]
    simp only [h']
    exact Nat.le_trans right left
  | case3 place c first c₁ h c₂ h' =>
    have left := (item place).remaining_run_le c
    have right := separator.remaining_run_le c₁
    rw [h] at left
    rw [h'] at right
    rw [runSeparated, h]
    simp only [h']
    exact Nat.le_trans right left
  | case4 place c first c₁ h c₂ h' less e c₃ h'' ih =>
    rw [h''] at ih
    rw [runSeparated, h]
    simp only [h', if_pos less, h'']
    exact Nat.le_trans ih (Nat.le_of_lt less)
  | case5 place c first c₁ h c₂ h' less more c₃ h'' ih =>
    rw [h''] at ih
    rw [runSeparated, h]
    simp only [h', if_pos less, h'']
    exact Nat.le_trans ih (Nat.le_of_lt less)
  | case6 place c first c₁ h c₂ h' less =>
    have left := (item place).remaining_run_le c
    have right := separator.remaining_run_le c₁
    rw [h] at left
    rw [h'] at right
    rw [runSeparated, h]
    simp only [h', if_neg less]
    exact Nat.le_trans right left

/-- Reads one or more items with separators between them. The reader of an item is told how many
come before it. -/
def separatedNumbered (separator : Parse Bool) (item : Nat → Parse α) : Parse (α × List α) :=
  ⟨runSeparated separator item 0, remaining_runSeparated_le separator item 0⟩

/-- Reads one or more items with separators between them. -/
def separated (separator : Parse Bool) (item : Parse α) : Parse (α × List α) :=
  separatedNumbered separator fun _ => item

/-- Reads one or more items with commas between them. -/
def commaSeparated (item : Parse α) : Parse (List α) := do
  let (first, more) ← separated (consumeKind .comma) item
  pure (first :: more)

/-- Reads a name with its qualifiers. -/
def qualifiedName : Parse QualifiedName := do
  let (first, more) ← separated (consume (·.isOperator '.')) expectIdentifier
  pure (first :: more)

end Parse
end TransactSql
