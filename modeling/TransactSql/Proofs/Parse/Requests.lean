/-
TransactSql.Proofs.Parse.Requests — how the grammar looks at tokens.

Every reader of the grammar is put together from few requests: read the
next token, read it if it has a property, look at it, repeat. None of
them depends on where a token stands in the text, apart from the second
character of a comparison operator. And each reader has tokens that it
never takes: a statement reads no semicolon.

`p.StopsBefore stop` says both: `p` is built from such requests, and no
request of it takes a token in `stop`. What follows from it for all
readers at once is proved by one induction over the requests, in
`Proofs.Parse.Layout` (the answer does not depend on places) and in
`Proofs.Parse.Following` (nor on what follows the tokens that are read).

A request answers a token, and a token shows its place. So each request
comes with what is done with its answer, which must ignore the place.
-/
import TransactSql.Predicate.Grammar
import TransactSql.Proofs.Parse.Answers

namespace TransactSql

/-- What a token says, wherever it stands. -/
def Token.meaning (t : Token) : TokenKind × String := (t.kind, t.literal)

namespace Parse

variable {α β : Type}

/-- The function does not depend on where a token stands. -/
def IgnoresPlace (f : Token → β) : Prop :=
  ∀ t u, t.meaning = u.meaning → f t = f u

theorem ignoresPlace {f : Token → β}
    (h : ∀ kind literal place place', f ⟨kind, literal, place⟩ = f ⟨kind, literal, place'⟩) :
    IgnoresPlace f := by
  rintro ⟨kind, literal, place⟩ ⟨kind', literal', place'⟩ hmeaning
  cases hmeaning
  exact h kind literal place place'

/-- Every answer takes a token. -/
def Consumes (p : Parse α) : Prop :=
  ∀ c a c', p.run c = (.ok a, c') → c'.remaining < c.remaining

/-- The reader is built from requests that ignore places and take no token in `stop`. -/
inductive StopsBefore (stop : Token → Prop) : {α : Type} → Parse α → Prop
  | answer {α : Type} (a : α) : StopsBefore stop (pure a)
  | fail {α : Type} (e : Error) : StopsBefore stop (fail e : Parse α)
  | bind {α β : Type} {p : Parse α} {f : α → Parse β} (hp : StopsBefore stop p)
      (hf : ∀ a, StopsBefore stop (f a)) : StopsBefore stop (p >>= f)
  /-- The next token is read; there has to be one. -/
  | expectNext {β : Type} {f : Token → Parse β} (hplace : IgnoresPlace f)
      (hf : ∀ t, StopsBefore stop (f t)) : StopsBefore stop (expectNext >>= f)
  /-- The next token is read if it has a property. -/
  | nextIf {β : Type} {p : Token → Bool} {f : Option Token → Parse β} (hp : IgnoresPlace p)
      (hplace : IgnoresPlace fun t => f (some t)) (hstop : ∀ t, stop t → p t = false)
      (hf : ∀ t, StopsBefore stop (f t)) : StopsBefore stop (nextIf p >>= f)
  /-- The next token is looked at. If that makes a difference, a token is read after it. -/
  | peek {β : Type} {f : Option Token → Parse β} (hplace : IgnoresPlace fun t => f (some t))
      (hstop : ∀ t, stop t → f (some t) = f none)
      (hbusy : ∀ t, f (some t) = f none ∨ (f (some t)).Consumes)
      (hf : ∀ t, StopsBefore stop (f t)) : StopsBefore stop (peek >>= f)
  | separatedNumbered {α : Type} {separator : Parse Bool} {item : Nat → Parse α}
      (hseparator : StopsBefore stop separator) (hitem : ∀ place, StopsBefore stop (item place)) :
      StopsBefore stop (separatedNumbered separator item)
  /-- A comparison operator is read, of one character or of two without a gap. -/
  | comparison (hstop : ∀ t, stop t → ∀ symbol, t.isOperator symbol = false) :
      StopsBefore stop Predicate.readOperator

/-! ## What a request does -/

theorem run_expectNext_bind (f : Token → Parse β) (t : Token) (rest : List Token)
    (fault : Option Error) (last : String) :
    (expectNext >>= f).run ⟨t :: rest, fault, last⟩ = (f t).run ⟨rest, fault, t.literal⟩ := rfl

theorem run_peek_bind (f : Option Token → Parse β) (t : Token) (rest : List Token)
    (fault : Option Error) (last : String) :
    (peek >>= f).run ⟨t :: rest, fault, last⟩ = (f (some t)).run ⟨t :: rest, fault, last⟩ := rfl

theorem run_nextIf_bind (p : Token → Bool) (f : Option Token → Parse β) (t : Token)
    (rest : List Token) (fault : Option Error) (last : String) :
    (nextIf p >>= f).run ⟨t :: rest, fault, last⟩ =
      if p t then (f (some t)).run ⟨rest, fault, t.literal⟩
      else (f none).run ⟨t :: rest, fault, last⟩ := by
  cases h : p t <;>
    simp only [nextIf, peekIs, bind_assoc, run_peek_bind, pure_bind, Option.any_some, h] <;> rfl

theorem consume_bind (p : Token → Bool) (f : Bool → Parse β) :
    consume p >>= f = nextIf p >>= fun token => f token.isSome := by
  unfold consume
  rw [bind_assoc]
  rfl

/-- One round of a repetition: an item, and whether a separator follows it. -/
def round (separator : Parse Bool) (item : Parse α) : Parse (α × Bool) :=
  item >>= fun first => separator >>= fun goesOn => pure (first, goesOn)

/-- A repetition is a round, and a further repetition if the round ended with a separator. -/
theorem runSeparated_eq (separator : Parse Bool) (item : Nat → Parse α) (place : Nat) (c : Cursor) :
    runSeparated separator item place c =
      match (round separator (item place)).run c with
      | (.error e, c₁) => (.error e, c₁)
      | (.ok (first, goesOn), c₁) =>
        if goesOn = true ∧ c₁.remaining < c.remaining then
          match runSeparated separator item (place + 1) c₁ with
          | (.error e, c₂) => (.error e, c₂)
          | (.ok more, c₂) => (.ok (first, more.1 :: more.2), c₂)
        else (.ok (first, []), c₁) := by
  rw [runSeparated, round, run_bind]
  rcases (item place).run c with ⟨_ | first, c₁⟩
  · rfl
  simp only [run_bind]
  rcases separator.run c₁ with ⟨_ | goesOn, c₂⟩
  · rfl
  cases goesOn with
  | false => rfl
  | true =>
    by_cases hless : c₂.remaining < c.remaining
    · exact (if_pos hless).trans (if_pos ⟨rfl, hless⟩).symm
    · exact (if_neg hless).trans (if_neg fun h => hless h.2).symm

/-! ## Answers that take a token -/

theorem consumes_fail (e : Error) : (fail e : Parse α).Consumes := by
  intro c a c' h
  cases h

theorem Consumes.bind {p : Parse α} (h : p.Consumes) (f : α → Parse β) : (p >>= f).Consumes := by
  intro c b c' hrun
  obtain ⟨a, c₁, hp, hf⟩ := run_bind_ok.mp hrun
  have hle := (f a).remaining_run_le c₁
  rw [hf] at hle
  exact Nat.lt_of_le_of_lt hle (h c a c₁ hp)

theorem consumes_expectNext : expectNext.Consumes := by
  rintro ⟨tokens, fault, last⟩ t c' h
  cases tokens with
  | nil => cases fault <;> cases h
  | cons first rest =>
    cases h
    exact Nat.lt_succ_self _

theorem consumes_expectKind (kind : TokenKind) : (expectKind kind).Consumes :=
  consumes_expectNext.bind _

/-! ## Further requests -/

namespace StopsBefore

variable {stop : Token → Prop}

/-- A reader also stops before fewer tokens. -/
theorem mono {stop' : Token → Prop} {p : Parse α} (h : StopsBefore stop p)
    (himp : ∀ t, stop' t → stop t) : StopsBefore stop' p := by
  induction h with
  | answer a => exact .answer a
  | fail e => exact .fail e
  | bind _ _ ihp ihf => exact .bind ihp ihf
  | expectNext hplace _ ihf => exact .expectNext hplace ihf
  | nextIf hp hplace hstop _ ihf =>
    exact .nextIf hp hplace (fun t ht => hstop t (himp t ht)) ihf
  | peek hplace hstop hbusy _ ihf =>
    exact .peek hplace (fun t ht => hstop t (himp t ht)) hbusy ihf
  | separatedNumbered _ _ ihseparator ihitem => exact .separatedNumbered ihseparator ihitem
  | comparison hstop => exact .comparison fun t ht => hstop t (himp t ht)

theorem ite {b : Bool} {p q : Parse α} (hp : StopsBefore stop p) (hq : StopsBefore stop q) :
    StopsBefore stop (if b then p else q) := by
  cases b
  · exact hq
  · exact hp

theorem ofExcept (x : Except Error α) : StopsBefore stop (ofExcept x) := by
  cases x with
  | error e => exact .fail e
  | ok a => exact .answer a

theorem expect_bind {p : Token → Bool} {f : Token → Parse β} (hp : IgnoresPlace p)
    (hplace : IgnoresPlace f) (hf : ∀ t, StopsBefore stop (f t)) :
    StopsBefore stop (expect p >>= f) := by
  unfold expect
  rw [bind_assoc]
  refine .expectNext (fun t u h => ?_) fun t => ?_
  · have hunexpected : t.unexpected = u.unexpected :=
      ignoresPlace (f := Token.unexpected) (fun _ _ _ _ => rfl) t u h
    have hanswer : (pure t : Parse Token) >>= f = (pure u : Parse Token) >>= f := hplace t u h
    rw [hp t u h, hunexpected]
    split
    · exact hanswer
    · rfl
  · split
    · exact hf t
    · exact .fail _

theorem expectKeyword_bind (keyword : Keyword) {f : Token → Parse β} (hplace : IgnoresPlace f)
    (hf : ∀ t, StopsBefore stop (f t)) : StopsBefore stop (expectKeyword keyword >>= f) :=
  expect_bind (ignoresPlace fun _ _ _ _ => rfl) hplace hf

theorem expectKind_bind (kind : TokenKind) {f : Token → Parse β} (hplace : IgnoresPlace f)
    (hf : ∀ t, StopsBefore stop (f t)) : StopsBefore stop (expectKind kind >>= f) :=
  expect_bind (ignoresPlace fun _ _ _ _ => rfl) hplace hf

/-- A token that has to be there and says nothing more. -/
theorem expectKind_then (kind : TokenKind) {p : Parse β} (hp : StopsBefore stop p) :
    StopsBefore stop (expectKind kind >>= fun _ => p) :=
  expectKind_bind kind (fun _ _ _ => rfl) fun _ => hp

theorem expectText {text? : Token → Option String} (h : IgnoresPlace text?) :
    StopsBefore stop (expectText text?) := by
  refine .expectNext (fun t u heq => ?_) fun t => ?_
  · have hunexpected : t.unexpected = u.unexpected :=
      ignoresPlace (f := Token.unexpected) (fun _ _ _ _ => rfl) t u heq
    simp only [h t u heq, hunexpected]
  · split
    · exact .answer _
    · exact .fail _

theorem expectIdentifier : StopsBefore stop expectIdentifier :=
  expectText (ignoresPlace fun _ _ _ _ => rfl)

theorem expectAlias : StopsBefore stop expectAlias :=
  expectText (ignoresPlace fun _ _ _ _ => rfl)

theorem consume {p : Token → Bool} (hp : IgnoresPlace p) (hstop : ∀ t, stop t → p t = false) :
    StopsBefore stop (consume p) :=
  .nextIf hp (fun _ _ _ => rfl) hstop fun _ => .answer _

theorem consumeKeyword (keyword : Keyword) (hstop : ∀ t, stop t → t.isKeyword keyword = false) :
    StopsBefore stop (consumeKeyword keyword) :=
  consume (ignoresPlace fun _ _ _ _ => rfl) hstop

theorem consumeKind (kind : TokenKind) (hstop : ∀ t, stop t → (t.kind == kind) = false) :
    StopsBefore stop (consumeKind kind) :=
  consume (ignoresPlace fun _ _ _ _ => rfl) hstop

theorem nextText? {text? : Token → Option String} (h : IgnoresPlace text?)
    (hstop : ∀ t, stop t → text? t = none) : StopsBefore stop (nextText? text?) := by
  refine .nextIf (fun t u heq => by rw [h t u heq]) (fun t u heq => ?_)
    (fun t ht => by rw [hstop t ht]; rfl) fun t => .answer _
  simp only [Option.bind_some, h t u heq]

/-- Looking whether the next token has a property, which no stopping token has. If it has, the
reader fails or takes a token. -/
theorem peekIs_bind {p : Token → Bool} {f : Bool → Parse β} (hp : IgnoresPlace p)
    (hstop : ∀ t, stop t → p t = false) (hbusy : (f true).Consumes)
    (hf : ∀ b, StopsBefore stop (f b)) : StopsBefore stop (peekIs p >>= f) := by
  unfold peekIs
  rw [bind_assoc]
  refine .peek (fun t u heq => ?_) (fun t ht => ?_) (fun t => ?_) fun t => hf _
  · simp only [Option.any_some, hp t u heq]
  · simp only [Option.any_some, hstop t ht, Option.any_none]
  · cases h : p t with
    | false => exact .inl (by simp only [Option.any_some, h, Option.any_none])
    | true => exact .inr (by simpa only [Option.any_some, h, pure_bind] using hbusy)

/-- Refusing a token that no stopping token is like. -/
theorem refuse {p : Token → Bool} {e : Error} {q : Parse β} (hp : IgnoresPlace p)
    (hstop : ∀ t, stop t → p t = false) (hq : StopsBefore stop q) :
    StopsBefore stop (peekIs p >>= fun b => if b then Parse.fail e else q) :=
  peekIs_bind hp hstop (consumes_fail e) fun _ => .ite (.fail e) hq

theorem separated {separator : Parse Bool} {item : Parse α}
    (hseparator : StopsBefore stop separator) (hitem : StopsBefore stop item) :
    StopsBefore stop (separated separator item) :=
  .separatedNumbered hseparator fun _ => hitem

theorem commaSeparated {item : Parse α} (hstop : ∀ t, stop t → (t.kind == .comma) = false)
    (hitem : StopsBefore stop item) : StopsBefore stop (commaSeparated item) :=
  .bind (separated (consumeKind .comma hstop) hitem) fun _ => .answer _

theorem qualifiedName (hstop : ∀ t, stop t → t.isOperator '.' = false) :
    StopsBefore stop qualifiedName :=
  .bind (separated (consume (ignoresPlace fun _ _ _ _ => rfl) hstop) expectIdentifier)
    fun _ => .answer _

end StopsBefore
end Parse
end TransactSql
