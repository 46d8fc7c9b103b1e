/-
TransactSql.Proofs.Parse.Lookahead — a lookahead misses nothing.

How many tokens are in the buffer of a lookahead depends on everything
that was looked at before. What is still to come does not: it is the
buffer, followed by what the lexer would yield. `view` puts the two
together, which gives the cursor of a reader.

To fill the buffer moves tokens from the lexer into it and leaves the view
alone, except that a fault which is met is reported and gone. So a request
to a lookahead does on its view what the reader of the same request does
(`Imitates`), and both answer what is on the tape of the text.
-/
import TransactSql.Proofs.Parse.Tape

namespace TransactSql

namespace Lexer

variable {l l' : Lexer}

/-! ## What a lexer yields -/

theorem tokens_of_next_none (h : l.next = (none, l')) : l.tokens = ([], none) := by
  rw [tokens]
  split <;> rename_i heq <;> rw [h] at heq <;> cases heq

theorem tokens_of_next_error {e : Error} (h : l.next = (some (.error e), l')) :
    l.tokens = ([], some e) := by
  rw [tokens]
  split <;> rename_i heq <;> rw [h] at heq <;> cases heq
  rfl

theorem tokens_of_next_token {token : Token} (h : l.next = (some (.ok token), l')) :
    l.tokens = (token :: l'.tokens.1, l'.tokens.2) := by
  rw [tokens]
  split <;> rename_i heq <;> rw [h] at heq <;> cases heq
  rfl

/-- Behind a failure nothing is yielded. -/
theorem tokens_behind_error {e : Error} (h : l.next = (some (.error e), l')) :
    l'.tokens = ([], none) := by
  have hfailed : l'.failed = true := by
    unfold next at h
    split at h
    · cases h
    · split at h
      · cases h
      · split at h <;> cases h
        rfl
  have hnext : l'.next = (none, l') := by
    rw [next, if_pos hfailed]
  exact tokens_of_next_none hnext

end Lexer

namespace Lookahead

variable {α β : Type}

/-! ## The view of a lookahead -/

/-- What is still to come: the tokens in the buffer, and what the lexer yields. -/
def view (l : Lookahead) : Cursor :=
  ⟨l.buffer ++ l.lexer.tokens.1.filter fun token => !token.isTrivia, l.lexer.tokens.2,
    l.lastLiteral⟩

theorem view_ofText (text : String) : (ofText text).view = Cursor.ofText text := rfl

/-- What has come of a request, seen as what has come of a reader. -/
def outcome : EStateM.Result Error Lookahead α → Except Error α × Cursor
  | .ok a l => (.ok a, l.view)
  | .error e l => (.error e, l.view)

/-- Whether it goes into the buffer or is dropped, a token that is drawn does not change the view. -/
theorem view_draw {l : Lookahead} {token : Token} {lexer : Lexer}
    (h : l.lexer.next = (some (.ok token), lexer)) :
    (⟨lexer, if token.isTrivia then l.buffer else l.buffer ++ [token], l.lastLiteral⟩ :
      Lookahead).view = l.view := by
  unfold view
  rw [Lexer.tokens_of_next_token h]
  cases htrivia : token.isTrivia <;> simp [htrivia]

/-- Filling the buffer leaves the view alone. Where too few tokens are in it, they are all that is
still to come. -/
theorem fill_ok {n : Nat} {l l' : Lookahead} {filled : Bool} (h : (fill n).run l = .ok filled l') :
    l'.view = l.view ∧
      (n ≤ l'.buffer.length ∨ l'.view = ⟨l'.buffer, none, l'.lastLiteral⟩) := by
  replace h : draw n l = .ok filled l' := h
  fun_induction draw n l with
  | case1 l henough =>
    cases h
    exact ⟨rfl, .inl henough⟩
  | case2 l hfew lexer hnext =>
    cases h
    rw [Lexer.eq_of_next_none hnext]
    refine ⟨rfl, .inr ?_⟩
    simp only [view, Lexer.tokens_of_next_none hnext, List.filter_nil, List.append_nil]
  | case3 => cases h
  | case4 l hfew token lexer hnext buffer ih =>
    obtain ⟨hview, hlength⟩ := ih h
    exact ⟨hview.trans (view_draw hnext), hlength⟩

/-- A failure is the fault of the text. It is met where there are too few tokens, and is gone after
that. -/
theorem fill_error {n : Nat} {l l' : Lookahead} {e : Error} (h : (fill n).run l = .error e l') :
    ∃ tokens last, l.view = ⟨tokens, some e, last⟩ ∧ l'.view = ⟨tokens, none, last⟩ ∧
      tokens.length < n := by
  replace h : draw n l = .error e l' := h
  fun_induction draw n l with
  | case1 => cases h
  | case2 => cases h
  | case3 l hfew e' lexer hnext =>
    cases h
    refine ⟨l.buffer, l.lastLiteral, ?_, ?_, Nat.lt_of_not_le hfew⟩
    · simp only [view, Lexer.tokens_of_next_error hnext, List.filter_nil, List.append_nil]
    · simp only [view, Lexer.tokens_behind_error hnext, List.filter_nil, List.append_nil]
  | case4 l hfew token lexer hnext buffer ih =>
    rw [← view_draw hnext]
    exact ih h

/-! ## Primitive requests -/

/-- On its view the request does what the reader does. -/
def Imitates (x : LookaheadM α) (p : Parse α) : Prop :=
  ∀ l, p.run l.view = outcome (x.run l)

theorem imitates_peekNth (n : Nat) : Imitates (peekNth n) (Parse.peekNth n) := by
  intro l
  show l.view.peekNth n = _
  rw [peekNth, EStateM.run_bind]
  cases hfill : (fill (n + 1)).run l with
  | ok filled l' =>
    show _ = (Except.ok l'.buffer[n]?, l'.view)
    obtain ⟨hview, henough | hall⟩ := fill_ok hfill <;> rw [← hview]
    · have hbuffer : l'.buffer[n]? = some l'.buffer[n] := List.getElem?_eq_getElem henough
      have htoken : l'.view.tokens[n]? = some l'.buffer[n] :=
        (List.getElem?_append_left henough).trans hbuffer
      rw [Cursor.peekNth, htoken, hbuffer]
    · rw [hall, Cursor.peekNth]
      cases l'.buffer[n]? <;> rfl
  | error e l' =>
    obtain ⟨tokens, last, hview, hview', hlength⟩ := fill_error hfill
    show _ = (Except.error e, l'.view)
    rw [hview, hview', Cursor.peekNth, List.getElem?_eq_none (Nat.le_of_lt_succ hlength)]

theorem imitates_next : Imitates next Parse.next := by
  intro l
  show l.view.next = _
  rw [next, EStateM.run_bind]
  cases hfill : (fill 1).run l with
  | ok filled l' =>
    obtain ⟨hview, hlength⟩ := fill_ok hfill
    rw [← hview]
    obtain ⟨lexer, buffer, last⟩ := l'
    cases buffer with
    | nil =>
      have hall := hlength.resolve_left (Nat.not_succ_le_zero 0)
      show _ = (Except.ok none, _)
      rw [hall]
      rfl
    | cons token rest => rfl
  | error e l' =>
    obtain ⟨tokens, last, hview, hview', hlength⟩ := fill_error hfill
    have hnone : tokens = [] := List.length_eq_zero_iff.mp (Nat.lt_one_iff.mp hlength)
    show _ = (Except.error e, l'.view)
    rw [hview, hview', hnone]
    rfl

theorem Imitates.bind {x : LookaheadM α} {p : Parse α} {f : α → LookaheadM β} {g : α → Parse β}
    (hx : Imitates x p) (hf : ∀ a, Imitates (f a) (g a)) : Imitates (x >>= f) (p >>= g) := by
  intro l
  rw [Parse.run_bind, EStateM.run_bind, hx l]
  cases x.run l with
  | ok a l' => exact hf a l'
  | error e l' => rfl

theorem imitates_pure (a : α) : Imitates (pure a) (pure a) :=
  fun _ => rfl

theorem imitates_throw (e : Error) : Imitates (throw e : LookaheadM α) (Parse.fail e) :=
  fun _ => rfl

theorem Imitates.map {x : LookaheadM α} {p : Parse α} (h : Imitates x p) (f : α → β) :
    Imitates (f <$> x) (f <$> p) := by
  rw [map_eq_pure_bind]
  exact h.bind fun a => imitates_pure (f a)

theorem imitates_ite {b : Bool} {x y : LookaheadM α} {p q : Parse α} (hx : Imitates x p)
    (hy : Imitates y q) : Imitates (if b then x else y) (if b then p else q) := by
  cases b
  · exact hy
  · exact hx

/-! ## Requests for one token -/

theorem imitates_peekIs (p : Token → Bool) : Imitates (peekIs p) (Parse.peekIs p) :=
  (imitates_peekNth 0).bind fun _ => imitates_pure _

theorem imitates_nextIf (p : Token → Bool) : Imitates (nextIf p) (Parse.nextIf p) :=
  (imitates_peekIs p).bind fun _ => imitates_ite imitates_next (imitates_pure none)

theorem imitates_consume (p : Token → Bool) : Imitates (consume p) (Parse.consume p) :=
  (imitates_nextIf p).bind fun _ => imitates_pure _

theorem imitates_expectNext : Imitates expectNext Parse.expectNext := by
  refine imitates_next.bind fun found => ?_
  cases found with
  | none => exact fun _ => rfl
  | some token => exact imitates_pure token

theorem imitates_expect (p : Token → Bool) : Imitates (expect p) (Parse.expect p) :=
  imitates_expectNext.bind fun token =>
    imitates_ite (imitates_pure token) (imitates_throw token.unexpected)

theorem imitates_expectText (text? : Token → Option String) :
    Imitates (expectText text?) (Parse.expectText text?) := by
  refine imitates_expectNext.bind fun token => ?_
  cases text? token with
  | none => exact imitates_throw token.unexpected
  | some text => exact imitates_pure text

theorem imitates_expectIdentifier : Imitates expectIdentifier Parse.expectIdentifier :=
  imitates_expectText Token.identifier?

theorem imitates_implicitAlias? : Imitates implicitAlias? Parse.implicitAlias? :=
  (imitates_nextIf _).bind fun _ => imitates_pure _

/-- The parts of a name are read one by one, and after each the view is that of the reader. -/
theorem imitates_expectObjectName : Imitates expectObjectName Parse.qualifiedName := by
  intro l
  have hidentifier := imitates_expectIdentifier
  have hnextIf := imitates_nextIf (·.isOperator '.')
  show _ = outcome (readParts l)
  fun_induction readParts l with
  | case1 l e l₁ hpart =>
    rw [Parse.qualifiedName_eq, Parse.run_bind, hidentifier l, hpart]
    rfl
  | case2 l part l₁ hpart e l₂ hdot =>
    rw [Parse.qualifiedName_eq]
    simp only [Parse.run_bind, hidentifier l, hpart, hnextIf l₁, hdot, outcome]
  | case3 l part l₁ hpart l₂ hdot =>
    rw [Parse.qualifiedName_eq]
    simp only [Parse.run_bind, hidentifier l, hpart, hnextIf l₁, hdot, outcome]
    rfl
  | case4 l part l₁ hpart dot l₂ hdot e l₃ hmore ih =>
    rw [Parse.qualifiedName_eq]
    simp only [Parse.run_bind, hidentifier l, hpart, hnextIf l₁, hdot, outcome,
      Option.isSome_some, if_true, ih, hmore]
  | case5 l part l₁ hpart dot l₂ hdot parts l₃ hmore ih =>
    rw [Parse.qualifiedName_eq]
    simp only [Parse.run_bind, hidentifier l, hpart, hnextIf l₁, hdot, outcome,
      Option.isSome_some, if_true, ih, hmore]
    rfl

/-! ## All requests -/

theorem imitates_perform (request : CursorRequest) :
    Imitates (perform request) (Parse.perform request) := by
  cases request with
  | next => exact imitates_next.map _
  | expectNext => exact imitates_expectNext.map _
  | peek => exact (imitates_peekNth 0).map _
  | peekNth n => exact (imitates_peekNth n).map _
  | peekIs p => exact (imitates_peekIs p).map _
  | peekKeyword keyword => exact (imitates_peekIs _).map _
  | nextIf p => exact (imitates_nextIf p).map _
  | consumeKeyword keyword => exact (imitates_consume _).map _
  | consumeKind kind => exact (imitates_consume _).map _
  | consumeAdjacent previous symbol => exact (imitates_consume _).map _
  | expectKeyword keyword => exact (imitates_expect _).map _
  | expectKind kind => exact (imitates_expect _).map _
  | expectIdentifier => exact (imitates_expectText _).map _
  | expectObjectName => exact imitates_expectObjectName.map _
  | expectAlias => exact (imitates_expectText _).map _
  | implicitAlias => exact imitates_implicitAlias?.map _
  | unexpectedEnd => exact fun _ => rfl

/-- Whatever was looked at before, a lookahead answers as the cursor of a reader does. -/
theorem answers_view (l : Lookahead) (requests : List CursorRequest) :
    l.answers requests = l.view.answers requests := by
  induction requests generalizing l with
  | nil => rfl
  | cons request later ih =>
    have hfirst := imitates_perform request l
    unfold answers Cursor.answers
    rw [hfirst]
    cases (perform request).run l with
    | ok a l' => exact congrArg _ (ih l')
    | error e l' => exact congrArg _ (ih l')

/-- A lookahead is a faithful view of the tokens of a text that are not trivia, and so is the cursor
of the readers. Whatever they are asked for in whatever order, their answers are those on the tape,
up to the first that reports the lexical fault of the text and with it; and where no answer does,
these are the answers to all of the requests. -/
theorem answers_on_tape (text : String) (requests : List CursorRequest) :
    let onTape := (Tape.ofText text).answers 0 requests
    onTape <+: (ofText text).answers requests ∧
      onTape <+: (Cursor.ofText text).answers requests ∧
      (onTape.length = requests.length ∨
        ∃ e, (Tape.ofText text).fault = some e ∧ onTape.getLast? = some (.error e)) := by
  intro onTape
  have hcursor : onTape <+: (Cursor.ofText text).answers requests :=
    (Tape.ofText text).cursor_answers 0 requests
  refine ⟨?_, hcursor, (Tape.ofText text).answers_complete 0 requests⟩
  rw [answers_view, view_ofText]
  exact hcursor

end Lookahead
end TransactSql
