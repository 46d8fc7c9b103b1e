/-
TransactSql.CursorRequest — what cursors are asked for.

A `CursorRequest` asks for the next tokens of a text: to look at them, to
read one if it is of some sort, or to read one that has to be of some
sort. The readers of the grammar are put together from such requests.

A lookahead and the cursor of the readers answer the same requests, each
in its own way. A request that fails is answered too, and others can come
after it.
-/
import TransactSql.Lookahead
import TransactSql.Parse

namespace TransactSql

/-- Something that is asked of the tokens of a text. -/
inductive CursorRequest where
  | next
  | expectNext
  | peek
  | peekNth (n : Nat)
  | peekIs (p : Token → Bool)
  | peekKeyword (keyword : Keyword)
  | nextIf (p : Token → Bool)
  | consumeKeyword (keyword : Keyword)
  | consumeKind (kind : TokenKind)
  | consumeAdjacent (previous : Token) (symbol : Char)
  | expectKeyword (keyword : Keyword)
  | expectKind (kind : TokenKind)
  | expectIdentifier
  | expectObjectName
  | expectAlias
  | implicitAlias
  | unexpectedEnd

/-- The answer to a request that does not fail. -/
inductive CursorAnswer where
  /-- The token that was read or looked at, if there is one. -/
  | token (found : Option Token)
  | truth (holds : Bool)
  /-- The text that the token stands for which was read, if one was read. -/
  | text (found : Option String)
  | name (parts : QualifiedName)
  /-- The failure that the end of the text would be here. -/
  | failure (e : Error)

namespace Lookahead

def perform : CursorRequest → LookaheadM CursorAnswer
  | .next => .token <$> next
  | .expectNext => (.token <| some ·) <$> expectNext
  | .peek => .token <$> peek
  | .peekNth n => .token <$> peekNth n
  | .peekIs p => .truth <$> peekIs p
  | .peekKeyword keyword => .truth <$> peekKeyword keyword
  | .nextIf p => .token <$> nextIf p
  | .consumeKeyword keyword => .truth <$> consumeKeyword keyword
  | .consumeKind kind => .truth <$> consumeKind kind
  | .consumeAdjacent previous symbol => .truth <$> consumeAdjacent previous symbol
  | .expectKeyword keyword => (.token <| some ·) <$> expectKeyword keyword
  | .expectKind kind => (.token <| some ·) <$> expectKind kind
  | .expectIdentifier => (.text <| some ·) <$> expectIdentifier
  | .expectObjectName => .name <$> expectObjectName
  | .expectAlias => (.text <| some ·) <$> expectAlias
  | .implicitAlias => .text <$> implicitAlias?
  | .unexpectedEnd => .failure <$> unexpectedEnd

/-- The answers to requests that are made one after the other. -/
def answers (l : Lookahead) : List CursorRequest → List (Except Error CursorAnswer)
  | [] => []
  | request :: later =>
    match (perform request).run l with
    | .ok answer l' => .ok answer :: l'.answers later
    | .error e l' => .error e :: l'.answers later

end Lookahead

/-- The reader that answers a request. -/
def Parse.perform : CursorRequest → Parse CursorAnswer
  | .next => .token <$> next
  | .expectNext => (.token <| some ·) <$> expectNext
  | .peek => .token <$> peek
  | .peekNth n => .token <$> peekNth n
  | .peekIs p => .truth <$> peekIs p
  | .peekKeyword keyword => .truth <$> peekKeyword keyword
  | .nextIf p => .token <$> nextIf p
  | .consumeKeyword keyword => .truth <$> consumeKeyword keyword
  | .consumeKind kind => .truth <$> consumeKind kind
  | .consumeAdjacent previous symbol => .truth <$> consumeAdjacent previous symbol
  | .expectKeyword keyword => (.token <| some ·) <$> expectKeyword keyword
  | .expectKind kind => (.token <| some ·) <$> expectKind kind
  | .expectIdentifier => (.text <| some ·) <$> expectIdentifier
  | .expectObjectName => .name <$> qualifiedName
  | .expectAlias => (.text <| some ·) <$> expectAlias
  | .implicitAlias => .text <$> implicitAlias?
  | .unexpectedEnd => ⟨fun c => (.ok (.failure c.unexpectedEnd), c), fun _ => Nat.le_refl _⟩

/-- The answers to requests that are made one after the other. -/
def Cursor.answers (c : Cursor) : List CursorRequest → List (Except Error CursorAnswer)
  | [] => []
  | request :: later =>
    ((Parse.perform request).run c).1 :: ((Parse.perform request).run c).2.answers later

end TransactSql
