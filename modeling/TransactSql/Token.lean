/-
TransactSql.Token — the tokens of a command text.

A token is a piece of the text with its kind, and with what the kind
decodes from it: the value of a number, the text of a quotation, the name
in brackets or behind an `@`. White space and comments are tokens too;
they are the trivia, which carry no meaning.
-/
import TransactSql.Error
import TransactSql.Value.Basic

namespace TransactSql

/-- The value of a number in a command text. -/
inductive Number where
  | int (value : Int32)
  | bigint (value : Int64)
  | float (value : Binary64)
deriving DecidableEq

def Number.toValue : Number → Value
  | int value => Value.int value
  | bigint value => Value.bigint value
  | float value => Value.float value

/-- What a token is. -/
inductive TokenKind where
  | whitespace
  | comment
  | number (value : Number)
  /-- A single character that is an operator or a part of one. -/
  | operator (symbol : Char)
  | comma
  | openParen
  | closeParen
  /-- The semicolon after a statement. -/
  | terminator
  | keyword (keyword : Keyword)
  /-- A name that is not reserved. -/
  | word
  /-- A name in square brackets. -/
  | bracketed (name : String)
  /-- A name behind one `@`. -/
  | parameter (name : String)
  /-- A name behind two. -/
  | systemVariable (name : String)
  /-- A quoted text; with an `N` before it, it is a `unicode` one. -/
  | quoted (text : String) (unicode : Bool)
deriving DecidableEq

/-- A piece of a command text. -/
structure Token where
  kind : TokenKind
  /-- The piece itself. -/
  literal : String
  /-- The place of its first character in the text. -/
  position : Nat
deriving DecidableEq

namespace Token

/-- The token carries no meaning. -/
def isTrivia (t : Token) : Bool :=
  t.kind == .whitespace || t.kind == .comment

def isKeyword (t : Token) (keyword : Keyword) : Bool :=
  t.kind == .keyword keyword

def isOperator (t : Token) (symbol : Char) : Bool :=
  t.kind == .operator symbol

/-- The name that the token is, if it is one. -/
def identifier? (t : Token) : Option String :=
  match t.kind with
  | .word => some t.literal
  | .bracketed name => some name
  | _ => none

/-- The alias that the token is: a name or a quoted text. -/
def aliasText? (t : Token) : Option String :=
  match t.kind with
  | .quoted text _ => some text
  | _ => t.identifier?

/-- The failure if the token cannot stand where it stands. -/
def unexpected (t : Token) : Error :=
  match t.kind with
  | .keyword keyword => .incorrectSyntaxNearKeyword keyword
  | .bracketed name => .incorrectSyntax name
  | .quoted text _ => .incorrectSyntax text
  | _ => .incorrectSyntax t.literal

/-- The place just behind the token. -/
def stop (t : Token) : Nat :=
  t.position + t.literal.length

end Token
end TransactSql
