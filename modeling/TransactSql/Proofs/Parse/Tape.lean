/-
TransactSql.Proofs.Parse.Tape — what the requests to a cursor mean.

A `Tape` is the list of all tokens of a text that are not trivia. Behind
the last of them is the lexical fault of the text, or its end. It never
changes. Requests are made at a place, which is the number of tokens that
have been read. There are three sorts of them:

* `seen`: a token is looked at, and the place stays the same;
* `taken`: the next token is passed exactly if it has a property;
* `required`: the next token is passed, and it has to be of some sort.

Only `look` finds the fault, and it does so exactly where there is no
token. A request that finds it has no answer of its own and ends the walk
along the tape (`answers`). Any other failure is an answer, and the walk
goes on behind it.

`Follows p step` says that a reader of the grammar does on its cursor what
a request does on the tape.
-/
import TransactSql.CursorRequest
import TransactSql.Proofs.Parse.Nesting

namespace TransactSql

/-- The tokens of a text that are not trivia, and the lexical fault behind them. -/
structure Tape where
  tokens : List Token
  fault : Option Error

namespace Tape

variable {α : Type}

def ofText (text : String) : Tape :=
  let (tokens, fault) := (Lexer.ofText text).tokens
  ⟨tokens.filter fun token => !token.isTrivia, fault⟩

/-- What stands at a place: a token, or the end, unless the lexical fault is there. -/
def look (t : Tape) (place : Nat) : Except Error (Option Token) :=
  match t.tokens[place]?, t.fault with
  | some token, _ => .ok (some token)
  | none, some e => .error e
  | none, none => .ok none

/-- The text of the last token before a place, or nothing at the start. -/
def lastLiteral (t : Tape) : (place : Nat) → String
  | 0 => ""
  | place + 1 => (t.tokens[place]?.map Token.literal).getD ""

/-- The failure if a token is needed at a place where the tokens have ended. -/
def ending (t : Tape) (place : Nat) : Error := .incorrectSyntax (t.lastLiteral place)

/-! ## Requests -/

/-- What comes of a request: the lexical fault, or an answer, which may be a failure, and the place
from which the next request is made. -/
abbrev Step (α : Type) := Except Error (Except Error α × Nat)

/-- Does something with the answer. -/
def Step.map {β : Type} (g : α → β) (step : Step α) : Step β :=
  Except.map (fun (result, place) => (result.map g, place)) step

/-- Looks at the token so many places ahead. -/
def seen (t : Tape) (place n : Nat) (read : Option Token → α) : Step α :=
  (t.look (place + n)).map fun found => (.ok (read found), place)

/-- Passes the next token if it has a property. -/
def taken (t : Tape) (place : Nat) (p : Token → Bool) (read : Option Token → α) : Step α :=
  (t.look place).map fun found =>
    match found.filter p with
    | some token => (.ok (read (some token)), place + 1)
    | none => (.ok (read none), place)

/-- Passes the next token, which has to be there and to be of some sort. -/
def required (t : Tape) (place : Nat) (read : Token → Option α) : Step α :=
  (t.look place).map fun found =>
    match found with
    | some token => ((read token).elim (.error token.unexpected) .ok, place + 1)
    | none => (.error (t.ending place), place)

theorem lt_of_look {t : Tape} {place : Nat} {token : Token}
    (h : t.look place = .ok (some token)) : place < t.tokens.length := by
  unfold look at h
  split at h
  · next htoken => exact (List.getElem?_eq_some_iff.mp htoken).1
  · cases h
  · cases h

/-- Passes a name, and after a dot a further name, as often as there is a dot. -/
def objectName (t : Tape) (place : Nat) : Step QualifiedName :=
  match _h : t.look place with
  | .error e => .error e
  | .ok none => .ok (.error (t.ending place), place)
  | .ok (some token) =>
    match token.identifier? with
    | none => .ok (.error token.unexpected, place + 1)
    | some part =>
      match t.look (place + 1) with
      | .error e => .error e
      | .ok found =>
        if found.any (·.isOperator '.') then
          (t.objectName (place + 2)).map (part :: ·)
        else .ok (.ok [part], place + 1)
termination_by t.tokens.length - place
decreasing_by
  have := lt_of_look _h
  omega

/-- What comes of a request that is made at a place. -/
def answer (t : Tape) (place : Nat) : CursorRequest → Step CursorAnswer
  | .next => t.taken place (fun _ => true) .token
  | .expectNext => t.required place fun token => some (.token (some token))
  | .peek => t.seen place 0 .token
  | .peekNth n => t.seen place n .token
  | .peekIs p => t.seen place 0 fun found => .truth (found.any p)
  | .peekKeyword keyword => t.seen place 0 fun found => .truth (found.any (·.isKeyword keyword))
  | .nextIf p => t.taken place p .token
  | .consumeKeyword keyword => t.taken place (·.isKeyword keyword) (.truth ·.isSome)
  | .consumeKind kind => t.taken place (·.kind == kind) (.truth ·.isSome)
  | .consumeAdjacent previous symbol =>
    t.taken place (fun token => token.isOperator symbol && token.position == previous.stop)
      (.truth ·.isSome)
  | .expectKeyword keyword =>
    t.required place fun token => if token.isKeyword keyword then some (.token token) else none
  | .expectKind kind =>
    t.required place fun token => if token.kind == kind then some (.token token) else none
  | .expectIdentifier => t.required place fun token => token.identifier?.map (.text ·)
  | .expectObjectName => (t.objectName place).map .name
  | .expectAlias => t.required place fun token => token.aliasText?.map (.text ·)
  | .implicitAlias =>
    t.taken place (·.aliasText?.isSome) fun found => .text (found.bind Token.aliasText?)
  | .unexpectedEnd => .ok (.ok (.failure (t.ending place)), place)

/-- The answers to requests that are made one after the other, up to the one that finds the lexical
fault and with it. -/
def answers (t : Tape) (place : Nat) : List CursorRequest → List (Except Error CursorAnswer)
  | [] => []
  | request :: later =>
    match t.answer place request with
    | .error e => [.error e]
    | .ok (result, place') => result :: t.answers place' later

/-! ## Faults -/

/-- The fault is found exactly behind the tokens. -/
theorem look_error_iff {t : Tape} {place : Nat} {e : Error} :
    t.look place = .error e ↔ t.fault = some e ∧ t.tokens.length ≤ place := by
  rw [← List.getElem?_eq_none_iff, look]
  cases t.tokens[place]? <;> cases t.fault <;> simp

theorem error_of_map {β : Type} {x : Except Error α} {f : α → β} {e : Error}
    (h : x.map f = .error e) : x = .error e := by
  cases x <;> cases h
  rfl

theorem fault_of_objectName {t : Tape} {place : Nat} {e : Error}
    (h : t.objectName place = .error e) : t.fault = some e := by
  fun_induction t.objectName place with
  | case1 place e' hlook =>
    cases h
    exact (look_error_iff.mp hlook).1
  | case2 => cases h
  | case3 => cases h
  | case4 place token hlook part hpart e' hnext =>
    cases h
    exact (look_error_iff.mp hnext).1
  | case5 place token hlook part hpart found hnext hdot ih => exact ih (error_of_map h)
  | case6 => cases h

/-- A request that has no answer has found the lexical fault. -/
theorem fault_of_answer {t : Tape} {place : Nat} {request : CursorRequest} {e : Error}
    (h : t.answer place request = .error e) : t.fault = some e := by
  cases request with
  | expectObjectName => exact fault_of_objectName (error_of_map h)
  | unexpectedEnd => cases h
  | _ => exact (look_error_iff.mp (error_of_map h)).1

/-- Every request is answered, or the last answer is the lexical fault. -/
theorem answers_complete (t : Tape) (place : Nat) (requests : List CursorRequest) :
    (t.answers place requests).length = requests.length ∨
      ∃ e, t.fault = some e ∧ (t.answers place requests).getLast? = some (.error e) := by
  induction requests generalizing place with
  | nil => exact .inl rfl
  | cons request later ih =>
    unfold answers
    cases hanswer : t.answer place request with
    | error e => exact .inr ⟨e, fault_of_answer hanswer, rfl⟩
    | ok result =>
      rcases ih result.2 with hlength | ⟨e, hfault, hlast⟩
      · exact .inl (congrArg (· + 1) hlength)
      · refine .inr ⟨e, hfault, ?_⟩
        rw [List.getLast?_cons, hlast]
        rfl

/-! ## Readers -/

/-- The cursor of a reader at a place. -/
def cursor (t : Tape) (place : Nat) : Cursor :=
  ⟨t.tokens.drop place, t.fault, t.lastLiteral place⟩

theorem cursor_of_token {t : Tape} {place : Nat} {token : Token}
    (h : t.look place = .ok (some token)) :
    ∃ rest, t.cursor place = ⟨token :: rest, t.fault, t.lastLiteral place⟩ ∧
      t.cursor (place + 1) = ⟨rest, t.fault, token.literal⟩ := by
  unfold look at h
  split at h <;> cases h
  next htoken =>
    obtain ⟨hless, heq⟩ := List.getElem?_eq_some_iff.mp htoken
    refine ⟨t.tokens.drop (place + 1), ?_, ?_⟩
    · rw [cursor, List.drop_eq_getElem_cons hless, heq]
    · rw [cursor, lastLiteral, htoken]
      rfl

theorem cursor_of_fault {t : Tape} {place : Nat} {e : Error} (h : t.look place = .error e) :
    t.cursor place = ⟨[], some e, t.lastLiteral place⟩ := by
  unfold look at h
  split at h <;> cases h
  next hnone hfault =>
    rw [cursor, hfault, List.drop_eq_nil_of_le (List.getElem?_eq_none_iff.mp hnone)]

theorem cursor_of_ending {t : Tape} {place : Nat} (h : t.look place = .ok none) :
    t.cursor place = ⟨[], none, t.lastLiteral place⟩ := by
  unfold look at h
  split at h <;> cases h
  next hnone hfault =>
    rw [cursor, hfault, List.drop_eq_nil_of_le (List.getElem?_eq_none_iff.mp hnone)]

/-- What a reader has come to is what comes of a request. Behind the lexical fault nothing is said
of the cursor. -/
def Agrees (t : Tape) (run : Except Error α × Cursor) : Step α → Prop
  | .error e => run.1 = .error e
  | .ok (result, place) => run = (result, t.cursor place)

theorem agrees_ok {t : Tape} {run : Except Error α × Cursor} {result : Except Error α}
    {place : Nat} : t.Agrees run (.ok (result, place)) ↔ run = (result, t.cursor place) := Iff.rfl

end Tape

namespace Parse

variable {α β : Type}

/-- At every place the reader does on its cursor what the request does on the tape. -/
def Follows (p : Parse α) (step : Tape → Nat → Tape.Step α) : Prop :=
  ∀ (t : Tape) place, t.Agrees (p.run (t.cursor place)) (step t place)

theorem agrees_map {t : Tape} {p : Parse α} {c : Cursor} {step : Tape.Step α}
    (h : t.Agrees (p.run c) step) (g : α → β) :
    t.Agrees ((p >>= fun a => pure (g a)).run c) (step.map g) := by
  rw [run_bind]
  rcases step with e | ⟨result, place⟩
  · rcases hrun : p.run c with ⟨_ | a, c'⟩ <;> rw [hrun] at h <;> cases h
    rfl
  · rw [show p.run c = _ from h]
    cases result <;> rfl

theorem follows_peekNth (n : Nat) (read : Option Token → α) :
    Follows (peekNth n >>= fun found => pure (read found)) fun t place => t.seen place n read := by
  intro t place
  have hplace : (t.tokens.drop place)[n]? = t.tokens[place + n]? := List.getElem?_drop
  simp only [Tape.seen, Tape.look, run_bind, peekNth, Cursor.peekNth, Tape.cursor, hplace]
  cases t.tokens[place + n]? with
  | some token => rfl
  | none =>
    cases hfault : t.fault with
    | some e => rfl
    | none =>
      refine Tape.agrees_ok.mpr ?_
      rw [Tape.cursor, hfault]
      rfl

/-- A reader that reads no further than the next token follows a request if it does so before a
token, before a fault and at the end. -/
theorem follows_look {p : Parse α} {f : Tape → Nat → Option Token → Except Error α × Nat}
    (htoken : ∀ t place token rest, t.cursor place = ⟨token :: rest, t.fault, t.lastLiteral place⟩ →
      t.cursor (place + 1) = ⟨rest, t.fault, token.literal⟩ →
      p.run ⟨token :: rest, t.fault, t.lastLiteral place⟩ =
        ((f t place (some token)).1, t.cursor (f t place (some token)).2))
    (hfault : ∀ e last, (p.run ⟨[], some e, last⟩).1 = .error e)
    (hending : ∀ t place, t.cursor place = ⟨[], none, t.lastLiteral place⟩ →
      p.run ⟨[], none, t.lastLiteral place⟩ = ((f t place none).1, t.cursor (f t place none).2)) :
    Follows p fun t place => (t.look place).map (f t place) := by
  intro t place
  dsimp only
  rcases hlook : t.look place with e | _ | token
  · rw [Tape.cursor_of_fault hlook]
    exact hfault e _
  · rw [Tape.cursor_of_ending hlook]
    exact hending t place (Tape.cursor_of_ending hlook)
  · obtain ⟨rest, hcursor, hlater⟩ := Tape.cursor_of_token hlook
    rw [hcursor]
    exact htoken t place token rest hcursor hlater

theorem follows_nextIf (p : Token → Bool) (read : Option Token → α) :
    Follows (nextIf p >>= fun found => pure (read found)) fun t place => t.taken place p read := by
  refine follows_look ?_ (fun _ _ => rfl) ?_
  · intro t place token rest hcursor hlater
    rw [run_nextIf_bind]
    cases hp : p token with
    | true =>
      simp only [Option.filter_some, hp, if_true, hlater]
      rfl
    | false =>
      simp only [Option.filter_some, hp, Bool.false_eq_true, if_false, hcursor]
      rfl
  · intro t place hcursor
    simp only [Option.filter_none, hcursor]
    rfl

theorem follows_expectNext {f : Token → Parse α} {read : Token → Option α}
    (hf : ∀ token, f token = (read token).elim (fail token.unexpected) pure) :
    Follows (expectNext >>= f) fun t place => t.required place read := by
  refine follows_look ?_ (fun _ _ => rfl) ?_
  · intro t place token rest hcursor hlater
    show (f token).run ⟨rest, t.fault, token.literal⟩ = _
    simp only [hf, hlater]
    cases read token <;> rfl
  · intro t place hcursor
    simp only [hcursor]
    rfl

/-- To read the next token, if there is one, is to read it if it is any token. -/
theorem nextIf_any : nextIf (fun _ => true) = next := by
  refine ext fun c => ?_
  obtain ⟨tokens, fault, last⟩ := c
  cases tokens with
  | nil => cases fault <;> rfl
  | cons token rest => rfl

/-! ## Names -/

/-- A name is a part, and a further name if a dot comes next. -/
theorem qualifiedName_eq :
    qualifiedName = expectIdentifier >>= fun part => nextIf (·.isOperator '.') >>= fun dot =>
      if dot.isSome then qualifiedName >>= fun parts => pure (part :: parts)
      else pure [part] := by
  have hseparated := congrArg (fun p => p >>= fun parts => pure (parts.1 :: parts.2))
    (separated_eq (separates_consume (·.isOperator '.')) expectIdentifier)
  refine hseparated.trans ?_
  simp only [bind_assoc, consume_bind]
  congr 1
  funext part
  congr 1
  funext dot
  cases dot with
  | none => rfl
  | some dot =>
    simp only [Option.isSome_some, if_true]
    rw [qualifiedName, bind_assoc, bind_assoc]
    rfl

theorem run_expectIdentifier_bind (f : String → Parse α) (token : Token) (rest : List Token)
    (fault : Option Error) (last : String) :
    (expectIdentifier >>= f).run ⟨token :: rest, fault, last⟩ =
      (token.identifier?.elim (fail token.unexpected) f).run ⟨rest, fault, token.literal⟩ := by
  rw [expectIdentifier, expectText, bind_assoc, run_bind]
  show (_ >>= f).run ⟨rest, fault, token.literal⟩ = _
  cases token.identifier? <;> rfl

/-- The reader of names follows the names on the tape, from dot to dot. -/
theorem follows_qualifiedName : Follows qualifiedName Tape.objectName := by
  intro t place
  fun_induction t.objectName place with
  | case1 place e hlook =>
    rw [qualifiedName_eq, Tape.cursor_of_fault hlook]
    rfl
  | case2 place hlook =>
    rw [Tape.agrees_ok, qualifiedName_eq, Tape.cursor_of_ending hlook]
    rfl
  | case3 place token hlook hpart =>
    obtain ⟨rest, hcursor, hlater⟩ := Tape.cursor_of_token hlook
    rw [Tape.agrees_ok, qualifiedName_eq, hcursor, run_expectIdentifier_bind, hpart, hlater]
    rfl
  | case4 place token hlook part hpart e hnext =>
    obtain ⟨rest, hcursor, hlater⟩ := Tape.cursor_of_token hlook
    rw [qualifiedName_eq, hcursor, run_expectIdentifier_bind, hpart, ← hlater,
      Tape.cursor_of_fault hnext]
    rfl
  | case5 place token hlook part hpart found hnext hdot ih =>
    obtain ⟨rest, hcursor, hlater⟩ := Tape.cursor_of_token hlook
    cases found with
    | none => cases hdot
    | some dot =>
      obtain ⟨rest', hcursor', hlater'⟩ := Tape.cursor_of_token hnext
      rw [Option.any_some] at hdot
      rw [qualifiedName_eq, hcursor, run_expectIdentifier_bind, hpart, Option.elim_some, ← hlater,
        hcursor', run_nextIf_bind, if_pos hdot, ← hlater', Option.isSome_some, if_pos rfl]
      exact agrees_map ih (part :: ·)
  | case6 place token hlook part hpart found hnext hdot =>
    obtain ⟨rest, hcursor, hlater⟩ := Tape.cursor_of_token hlook
    rw [Tape.agrees_ok, qualifiedName_eq, hcursor, run_expectIdentifier_bind, hpart,
      Option.elim_some, ← hlater]
    cases found with
    | none =>
      rw [Tape.cursor_of_ending hnext]
      rfl
    | some next =>
      obtain ⟨rest', hcursor', -⟩ := Tape.cursor_of_token hnext
      rw [Option.any_some] at hdot
      rw [hcursor', run_nextIf_bind, if_neg hdot]
      rfl

/-! ## All requests -/

/-- To hand on an answer in two steps is to hand it on in one. -/
theorem map_bind_pure {γ : Type} (p : Parse α) (f : α → β) (g : β → γ) :
    g <$> (p >>= fun a => pure (f a)) = p >>= fun a => pure (g (f a)) :=
  bind_assoc p _ _

theorem follows_peekIs (p : Token → Bool) :
    Follows (.truth <$> peekIs p) fun t place =>
      t.seen place 0 fun found => CursorAnswer.truth (found.any p) := by
  rw [peekIs, map_bind_pure]
  exact follows_peekNth 0 _

theorem follows_consume (p : Token → Bool) :
    Follows (.truth <$> consume p) fun t place => t.taken place p (CursorAnswer.truth ·.isSome) := by
  rw [consume, map_bind_pure]
  exact follows_nextIf p _

theorem follows_expect (p : Token → Bool) :
    Follows ((.token <| some ·) <$> expect p) fun t place =>
      t.required place fun token => if p token then some (CursorAnswer.token token) else none := by
  show Follows (expect p >>= fun token => pure (CursorAnswer.token token)) _
  rw [expect, bind_assoc]
  refine follows_expectNext fun token => ?_
  cases p token <;> rfl

theorem follows_expectText (text? : Token → Option String) :
    Follows ((.text <| some ·) <$> expectText text?) fun t place =>
      t.required place fun token => (text? token).map (CursorAnswer.text ·) := by
  show Follows (expectText text? >>= fun text => pure (CursorAnswer.text text)) _
  rw [expectText, bind_assoc]
  refine follows_expectNext fun token => ?_
  cases text? token <;> rfl

theorem follows_perform (request : CursorRequest) :
    Follows (perform request) fun t place => t.answer place request := by
  cases request with
  | next =>
    have h := follows_nextIf (fun _ => true) CursorAnswer.token
    rwa [nextIf_any] at h
  | expectNext => exact follows_expectNext fun _ => rfl
  | peek => exact follows_peekNth 0 _
  | peekNth n => exact follows_peekNth n _
  | peekIs p => exact follows_peekIs p
  | peekKeyword keyword => exact follows_peekIs _
  | nextIf p => exact follows_nextIf p _
  | consumeKeyword keyword => exact follows_consume _
  | consumeKind kind => exact follows_consume _
  | consumeAdjacent previous symbol => exact follows_consume _
  | expectKeyword keyword => exact follows_expect _
  | expectKind kind => exact follows_expect _
  | expectIdentifier => exact follows_expectText _
  | expectObjectName => exact fun t place => agrees_map (follows_qualifiedName t place) _
  | expectAlias => exact follows_expectText _
  | implicitAlias =>
    show Follows (CursorAnswer.text <$> nextText? Token.aliasText?) _
    rw [nextText?, map_bind_pure]
    exact follows_nextIf _ _
  | unexpectedEnd => exact fun t place => rfl

end Parse

/-- Up to the lexical fault a cursor answers what is on the tape. -/
theorem Tape.cursor_answers (t : Tape) (place : Nat) (requests : List CursorRequest) :
    t.answers place requests <+: (t.cursor place).answers requests := by
  induction requests generalizing place with
  | nil => exact List.prefix_rfl
  | cons request later ih =>
    have hfirst : t.Agrees ((Parse.perform request).run (t.cursor place))
        (t.answer place request) := Parse.follows_perform request t place
    unfold Tape.answers Cursor.answers
    rcases hanswer : t.answer place request with e | ⟨result, place'⟩ <;> rw [hanswer] at hfirst
    · have hfault : ((Parse.perform request).run (t.cursor place)).1 = .error e := hfirst
      rw [hfault]
      exact List.cons_prefix_cons.mpr ⟨rfl, List.nil_prefix⟩
    · rw [Tape.agrees_ok.mp hfirst]
      exact List.cons_prefix_cons.mpr ⟨rfl, ih place'⟩

end TransactSql
