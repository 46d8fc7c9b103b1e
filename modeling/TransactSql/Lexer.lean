/-
TransactSql.Lexer — a command text, cut into tokens.

`scan` looks at the characters from the start of a token on, and moves
over those that belong to it. It answers the kind of the token and how
far it has moved. It has always moved (`scan_pos`), so lexing ends; that
it does not move beyond the end of the text is proved with the lengths of
tokens.

A `Lexer` walks through a text token by token. At a place where no token
can start it reports the failure, once, and yields nothing after that.
`Lexer.tokens` collects what it yields.
-/
import TransactSql.Token
import TransactSql.Unicode.Letters

namespace TransactSql

namespace Lexer

/-! ## Characters -/

/-- The character separates tokens. -/
def isSpace (c : Char) : Bool :=
  c == ' ' || c == '\t' || c == '\r' || c == '\n'

def isLineBreak (c : Char) : Bool :=
  c == '\r' || c == '\n'

/-- A name can start with the character. -/
def isNameStart (c : Char) : Bool :=
  Unicode.isLetter c || c == '_' || c == '#'

/-- A name can go on with the character. -/
def isNamePart (c : Char) : Bool :=
  Unicode.isLetter c || Unicode.isNumber c || c == '_' || c == '@' || c == '#' || c == '$'

/-- The character is an operator or a part of one. -/
def isOperatorSymbol (c : Char) : Bool :=
  ['+', '-', '*', '/', '%', '&', '|', '^', '=', '<', '>', '!', '.'].contains c

/-- How many characters at the start of the text have a property. -/
def runLength (p : Char → Bool) (text : List Char) : Nat :=
  (text.takeWhile p).length

/-! ## Comments, quotations, numbers -/

/-- The length of the rest of a block comment in which `depth` comments are open. Comments nest:
each opening mark needs a closing one. -/
def blockCommentLength? (depth : Nat) : List Char → Option Nat
  | [] => none
  | '/' :: '*' :: rest => (blockCommentLength? (depth + 1) rest).map (· + 2)
  | '*' :: '/' :: rest =>
    if depth ≤ 1 then some 2 else (blockCommentLength? (depth - 1) rest).map (· + 2)
  | _ :: rest => (blockCommentLength? depth rest).map (· + 1)

/-- What follows an opening quotation mark: the quoted text, and the number of characters up to
the closing mark and with it. The number is missing if there is no closing mark. -/
structure Quotation where
  text : List Char
  length? : Option Nat

/-- The quotation with one more character at its start, written with `length` characters. -/
def Quotation.cons (c : Char) (length : Nat) (q : Quotation) : Quotation :=
  ⟨c :: q.text, q.length?.map (· + length)⟩

/-- Reads a quotation up to its closing mark; the mark itself is quoted by writing it twice. -/
def quotation (close : Char) : List Char → Quotation
  | [] => ⟨[], none⟩
  | [c] => if c = close then ⟨[], some 1⟩ else ⟨[c], none⟩
  | c :: d :: rest =>
    if c = close then
      if d = close then (quotation close rest).cons close 2 else ⟨[], some 1⟩
    else (quotation close (d :: rest)).cons c 1

/-- The length of a decimal point with digits behind it, at the start of the text. -/
def fractionLength : List Char → Nat
  | '.' :: rest =>
    let digits := runLength Char.isDigit rest
    if digits = 0 then 0 else digits + 1
  | _ => 0

/-- The length of an exponent at the start of the text. -/
def exponentLength : List Char → Nat
  | c :: rest =>
    if c == 'e' || c == 'E' then
      let signLength := match rest with
        | d :: _ => if d == '+' || d == '-' then 1 else 0
        | [] => 0
      let digits := runLength Char.isDigit (rest.drop signLength)
      if digits = 0 then 0 else digits + signLength + 1
    else 0
  | [] => 0

/-- The value of a number that is made of digits alone: the narrowest type that holds it. -/
def wholeNumber (digits : List Char) : Number :=
  let n : Int := Numeral.natValue digits
  match Numeral.int32? n, Numeral.int64? n with
  | some value, _ => .int value
  | none, some value => .bigint value
  | none, none => .float ((Binary64.read? digits).getD Binary64.infinity)

/-- Reads a number from its first digit on. -/
def scanNumber (text : List Char) : TokenKind × Nat :=
  let whole := runLength Char.isDigit text
  let fraction := fractionLength (text.drop whole)
  let exponent := exponentLength (text.drop (whole + fraction))
  let length := whole + fraction + exponent
  let literal := text.take length
  if fraction = 0 ∧ exponent = 0 then (.number (wholeNumber literal), length)
  else (.number (.float ((Binary64.read? literal).getD Binary64.infinity)), length)

/-! ## Tokens -/

/-- Reads a parameter or a system variable; `rest` is what stands behind the first `@`. -/
def scanVariable (position : Nat) (rest : List Char) : Except Error (TokenKind × Nat) :=
  let double := rest.head? == some '@'
  let text := if double then rest.drop 1 else rest
  let length := runLength isNamePart text
  let name := String.ofList (text.take length)
  if length = 0 then .error (.unexpectedCharacter '@' position)
  else if double then .ok (.systemVariable name, length + 2)
  else .ok (.parameter name, length + 1)

/-- Reads a quotation behind its opening mark, which ends with character number `before`. -/
def scanQuotation (close : Char) (before : Nat) (kind : String → TokenKind) (text : List Char) :
    Except Error (TokenKind × Nat) :=
  let q := quotation close text
  match q.length? with
  | some length => .ok (kind (String.ofList q.text), before + length)
  | none => .error (.unclosedQuotation (String.ofList q.text))

/-- Reads a name, which may be a reserved word. -/
def scanWord (text : List Char) : TokenKind × Nat :=
  let length := runLength isNamePart text
  match Keyword.ofWord? (String.ofList (text.take length)) with
  | some keyword => (.keyword keyword, length)
  | none => (.word, length)

/-- Reads one token from its first character on. The answer is its kind and the number of
characters that have been moved over. A minus sign at the very end of a text is no token. -/
def scan (position : Nat) (c : Char) (rest : List Char) : Except Error (TokenKind × Nat) :=
  let next := rest.head?
  if isSpace c then .ok (.whitespace, runLength isSpace (c :: rest))
  else if c = '-' ∧ next = some '-' then
    .ok (.comment, runLength (fun d => !isLineBreak d) (c :: rest))
  else if c = '-' ∧ next = none then .error (.incorrectSyntax "-")
  else if c = '/' ∧ next = some '*' then
    match blockCommentLength? 1 (rest.drop 1) with
    | some length => .ok (.comment, length + 2)
    | none => .error .missingEndCommentMark
  else if c.isDigit then .ok (scanNumber (c :: rest))
  else if c = '@' then scanVariable position rest
  else if c = '[' then scanQuotation ']' 1 .bracketed rest
  else if c = '\'' then scanQuotation '\'' 1 (.quoted · false) rest
  else if (c = 'N' ∨ c = 'n') ∧ next = some '\'' then
    scanQuotation '\'' 2 (.quoted · true) (rest.drop 1)
  else if isNameStart c then .ok (scanWord (c :: rest))
  else if c = ',' then .ok (.comma, 1)
  else if c = '(' then .ok (.openParen, 1)
  else if c = ')' then .ok (.closeParen, 1)
  else if c = ';' then .ok (.terminator, 1)
  else if isOperatorSymbol c then .ok (.operator c, 1)
  else .error (.unexpectedCharacter c position)

/-! ## Every token has a character -/

theorem runLength_cons {p : Char → Bool} {c : Char} (h : p c = true) (text : List Char) :
    runLength p (c :: text) = runLength p text + 1 := by
  rw [runLength, List.takeWhile_cons_of_pos h, List.length_cons, runLength]

theorem runLength_cons_pos {p : Char → Bool} {c : Char} (h : p c = true) (text : List Char) :
    0 < runLength p (c :: text) := by
  rw [runLength_cons h]
  exact Nat.succ_pos _

theorem isNamePart_of_isNameStart {c : Char} (h : isNameStart c = true) : isNamePart c = true := by
  simp only [isNameStart, isNamePart, Bool.or_eq_true] at h ⊢
  rcases h with (h | h) | h <;> simp [h]

/-- What has been read, if a token has, has at least one character. -/
def Moves (answer : Except Error (TokenKind × Nat)) : Prop :=
  ∀ token, answer = .ok token → 0 < token.2

theorem moves_ok {kind : TokenKind} {length : Nat} (h : 0 < length) :
    Moves (.ok (kind, length)) := by
  rintro _ ⟨⟩
  exact h

theorem moves_error (e : Error) : Moves (.error e) := nofun

theorem Moves.ite {p : Prop} [Decidable p] {x y : Except Error (TokenKind × Nat)}
    (hx : p → Moves x) (hy : Moves y) : Moves (if p then x else y) := by
  split
  · exact hx ‹p›
  · exact hy

theorem moves_scanNumber {c : Char} (h : c.isDigit = true) (rest : List Char) :
    Moves (.ok (scanNumber (c :: rest))) := by
  have hwhole := runLength_cons_pos h rest
  dsimp only [scanNumber]
  split <;> exact moves_ok (by omega)

theorem moves_scanVariable (position : Nat) (rest : List Char) :
    Moves (scanVariable position rest) := by
  dsimp only [scanVariable]
  refine .ite (fun _ => moves_error _) (.ite (fun _ => moves_ok ?_) (moves_ok ?_)) <;>
    exact Nat.succ_pos _

theorem moves_scanQuotation (close : Char) {before : Nat} (h : 0 < before)
    (kind : String → TokenKind) (text : List Char) :
    Moves (scanQuotation close before kind text) := by
  dsimp only [scanQuotation]
  split
  · exact moves_ok (Nat.add_pos_left h _)
  · exact moves_error _

theorem moves_scanWord {c : Char} (h : isNameStart c = true) (rest : List Char) :
    Moves (.ok (scanWord (c :: rest))) := by
  have hword := runLength_cons_pos (isNamePart_of_isNameStart h) rest
  dsimp only [scanWord]
  split <;> exact moves_ok hword

theorem moves_scan (position : Nat) (c : Char) (rest : List Char) :
    Moves (scan position c rest) := by
  unfold scan
  refine .ite (fun hspace => moves_ok (runLength_cons_pos hspace rest)) ?_
  refine .ite (fun hline => moves_ok (runLength_cons_pos (hline.1 ▸ by decide) rest)) ?_
  refine .ite (fun _ => moves_error _) ?_
  refine .ite (fun _ => ?_) ?_
  · cases blockCommentLength? 1 (rest.drop 1) with
    | none => exact moves_error _
    | some length => exact moves_ok (Nat.succ_pos _)
  refine .ite (fun hdigit => moves_scanNumber hdigit rest) ?_
  refine .ite (fun _ => moves_scanVariable position rest) ?_
  refine .ite (fun _ => moves_scanQuotation _ Nat.one_pos _ _) ?_
  refine .ite (fun _ => moves_scanQuotation _ Nat.one_pos _ _) ?_
  refine .ite (fun _ => moves_scanQuotation _ Nat.two_pos _ _) ?_
  refine .ite (fun hname => moves_scanWord hname rest) ?_
  repeat' refine .ite (fun _ => moves_ok Nat.one_pos) ?_
  exact moves_error _

/-- A token has at least one character. -/
theorem scan_pos {position length : Nat} {c : Char} {rest : List Char} {kind : TokenKind}
    (h : scan position c rest = .ok (kind, length)) : 0 < length :=
  moves_scan position c rest _ h

end Lexer

/-- A place in a text from which tokens are read. -/
structure Lexer where
  rest : List Char
  position : Nat
  /-- A failure has been reported; nothing more is yielded. -/
  failed : Bool

namespace Lexer

/-- The start of a text. -/
def ofText (text : String) : Lexer := ⟨text.toList, 0, false⟩

/-- What the lexer yields next, and the lexer after that. -/
def next (l : Lexer) : Option (Except Error Token) × Lexer :=
  if l.failed then (none, l)
  else
    match l.rest with
    | [] => (none, l)
    | c :: rest =>
      match scan l.position c rest with
      | .error e => (some (.error e), { l with failed := true })
      | .ok (kind, length) =>
        let literal := String.ofList (l.rest.take length)
        (some (.ok ⟨kind, literal, l.position⟩), ⟨l.rest.drop length, l.position + length, false⟩)

/-- A token shortens the rest of the text. -/
theorem length_rest_lt_of_next {l l' : Lexer} {token : Token}
    (h : l.next = (some (.ok token), l')) : l'.rest.length < l.rest.length := by
  unfold next at h
  split at h
  · cases h
  · split at h
    · cases h
    · next c rest heq =>
      split at h
      · cases h
      · next kind length hscan =>
        cases h
        have hpos := scan_pos hscan
        rw [heq, List.length_drop]
        exact Nat.sub_lt (Nat.succ_pos _) hpos

/-- Where nothing is yielded, nothing is read. -/
theorem eq_of_next_none {l l' : Lexer} (h : l.next = (none, l')) : l' = l := by
  unfold next at h
  split at h
  · cases h
    rfl
  · split at h
    · cases h
      rfl
    · split at h <;> cases h

/-- All tokens up to the end of the text or up to the first failure, which comes with them. -/
def tokens (l : Lexer) : List Token × Option Error :=
  match _h : l.next with
  | (none, _) => ([], none)
  | (some (.error e), _) => ([], some e)
  | (some (.ok token), l') =>
    let later := l'.tokens
    (token :: later.1, later.2)
termination_by l.rest.length
decreasing_by exact length_rest_lt_of_next _h

end Lexer
end TransactSql
