/-
TransactSql.Proofs.Parse.Reading — what a reader makes of a text.

`p.Takes stop ts a` says that a reader takes some tokens and answers,
wherever the text ends behind them or goes on with a token in `stop`.
There is one lemma for each way to build a reader. `Reads` adds that the
tokens are those of a text.

A list with commas is read item by item (`reads_list`). An item ends
before a comma, before a closing parenthesis and with the statement.
-/
import TransactSql.Proofs.Lexer.Writing
import TransactSql.Proofs.Parse.Grammar

namespace TransactSql

/-- The token ends a list. -/
def Token.EndsList (t : Token) : Prop := t.kind = .closeParen ∨ t.kind = .terminator

/-- The token ends an item of a list. -/
def Token.EndsItem (t : Token) : Prop := t.kind = .comma ∨ t.EndsList

namespace Parse

open Lexer

open Token (written)

variable {α β γ : Type} {stop stop' : Token → Prop} {p : Parse α} {ts us rest : List Token}
  {t : Token} {a : α} {b : β}

/-- The text ends here, or goes on with such a token. -/
def Followed (stop : Token → Prop) (rest : List Token) : Prop := ∀ t ∈ rest.head?, stop t

/-- The reader takes these tokens and answers, before such a token and at the end of the text. -/
def Takes (stop : Token → Prop) (p : Parse α) (ts : List Token) (a : α) : Prop :=
  ∀ rest last, Followed stop rest →
    ∃ last', p.run ⟨ts ++ rest, none, last⟩ = (.ok a, ⟨rest, none, last'⟩)

/-! ## Building readers -/

theorem followed_cons (h : stop t) : Followed stop (t :: rest) := by
  intro u hu
  cases hu
  exact h

theorem Takes.mono (h : Takes stop p ts a) (hstop : ∀ t, stop' t → stop t) : Takes stop' p ts a :=
  fun rest last hrest => h rest last fun t ht => hstop t (hrest t ht)

theorem takes_pure (a : α) : Takes stop (pure a) [] a := fun _ last _ => ⟨last, rfl⟩

theorem takes_ofExcept {x : Except Error α} (h : x = .ok a) : Takes stop (ofExcept x) [] a := by
  rw [h]
  exact takes_pure a

/-- The tokens are taken where nothing follows them. -/
theorem takes_alone_iff : Takes (fun _ => False) p ts a ↔
    ∀ last, ∃ last', p.run ⟨ts, none, last⟩ = (.ok a, ⟨[], none, last'⟩) := by
  constructor
  · intro h last
    obtain ⟨last', hrun⟩ := h [] last nofun
    rw [List.append_nil] at hrun
    exact ⟨last', hrun⟩
  · intro h rest last hrest
    cases rest with
    | nil =>
      rw [List.append_nil]
      exact h last
    | cons t rest => exact (hrest t rfl).elim

/-- Two readers one after the other: what the second one takes must be able to follow the first. -/
theorem Takes.bind {f : α → Parse β} (hp : Takes stop' p ts a)
    (hnext : ∀ rest, Followed stop rest → Followed stop' (us ++ rest))
    (hf : Takes stop (f a) us b) : Takes stop (p >>= f) (ts ++ us) b := by
  intro rest last hrest
  obtain ⟨last₁, hfirst⟩ := hp (us ++ rest) last (hnext rest hrest)
  obtain ⟨last₂, hsecond⟩ := hf rest last₁ hrest
  refine ⟨last₂, run_bind_ok.mpr ⟨a, _, ?_, hsecond⟩⟩
  rw [List.append_assoc]
  exact hfirst

/-- A reader that may be followed by anything, and another one. -/
theorem Takes.then {f : α → Parse β} (hp : ∀ stop, Takes stop p ts a) (hf : Takes stop (f a) us b) :
    Takes stop (p >>= f) (ts ++ us) b :=
  (hp fun _ => True).bind (fun _ _ _ _ => trivial) hf

/-- A reader that takes nothing before what follows, and another one. -/
theorem Takes.skip {f : α → Parse β} (hp : Takes stop' p [] a) (ht : stop' t)
    (hf : Takes stop (f a) (t :: us) b) : Takes stop (p >>= f) (t :: us) b :=
  hp.bind (fun _ _ => followed_cons ht) hf

/-- A reader, and another one that takes nothing. -/
theorem Takes.last {f : α → Parse β} (hp : Takes stop p ts a) (hf : Takes stop (f a) [] b) :
    Takes stop (p >>= f) ts b := by
  have hboth := hp.bind (fun _ h => h) hf
  rwa [List.append_nil] at hboth

/-! ## Single tokens -/

theorem takes_expectNext {f : Token → Parse β} (hf : Takes stop (f t) us b) :
    Takes stop (expectNext >>= f) (t :: us) b :=
  fun rest _ hrest => hf rest t.literal hrest

theorem takes_expect {q : Token → Bool} (h : q t = true) (stop : Token → Prop) :
    Takes stop (expect q) [t] t := by
  refine takes_expectNext ?_
  rw [h]
  exact takes_pure t

theorem takes_expectIdentifier {name : String} (h : t.identifier? = some name)
    (stop : Token → Prop) : Takes stop expectIdentifier [t] name := by
  refine takes_expectNext ?_
  rw [h]
  exact takes_pure name

theorem takes_nextIf {q : Token → Bool} (h : q t = true) (stop : Token → Prop) :
    Takes stop (nextIf q) [t] (some t) := by
  refine fun rest last _ => ⟨t.literal, ?_⟩
  simp only [nextIf, peekIs, List.singleton_append, bind_assoc, run_peek_bind, pure_bind,
    Option.any_some, h, if_true]
  rfl

/-- What follows is looked at, and nothing of it is taken. -/
theorem takes_peek {f : Option Token → Parse β} (hnone : Takes stop (f none) [] b)
    (hsome : ∀ t, stop t → Takes stop (f (some t)) [] b) : Takes stop (peek >>= f) [] b := by
  intro rest last hrest
  cases rest with
  | nil => exact hnone [] last hrest
  | cons t rest => exact hsome t (hrest t rfl) (t :: rest) last hrest

theorem takes_peekIs_nothing {q : Token → Bool} (h : ∀ t, stop t → q t = false) :
    Takes stop (peekIs q) [] false := by
  refine takes_peek (takes_pure _) fun t ht => ?_
  rw [Option.any_some, h t ht]
  exact takes_pure false

theorem takes_nextIf_nothing {q : Token → Bool} (h : ∀ t, stop t → q t = false) :
    Takes stop (nextIf q) [] none :=
  (takes_peekIs_nothing h).last (takes_pure none)

theorem takes_consume {q : Token → Bool} (h : q t = true) (stop : Token → Prop) :
    Takes stop (consume q) [t] true :=
  .then (takes_nextIf h) (takes_pure true)

theorem takes_consume_nothing {q : Token → Bool} (h : ∀ t, stop t → q t = false) :
    Takes stop (consume q) [] false :=
  (takes_nextIf_nothing h).last (takes_pure false)

/-! ## Lists -/

/-- One round of a repetition, and the rounds after it. -/
theorem takes_separated_cons {separator : Parse Bool} {item : Nat → Parse α} {place : Nat}
    {s : Token} {more : α × List α} (hitem : Takes stop' (item place) ts a) (hs : stop' s)
    (hseparator : ∀ stop, Takes stop separator [s] true) {rest : List Token} {last : String}
    (hmore : ∀ last₁, ∃ last', runSeparated separator item (place + 1) ⟨us ++ rest, none, last₁⟩ =
      (.ok more, ⟨rest, none, last'⟩)) :
    ∃ last', runSeparated separator item place ⟨(ts ++ s :: us) ++ rest, none, last⟩ =
      (.ok (a, more.1 :: more.2), ⟨rest, none, last'⟩) := by
  have hround : Takes (fun _ => True) (round separator (item place)) (ts ++ [s]) (a, true) :=
    hitem.bind (fun _ _ => followed_cons hs) (.then hseparator (takes_pure _))
  obtain ⟨last₁, hfirst⟩ := hround (us ++ rest) last fun _ _ => trivial
  obtain ⟨last₂, hmore⟩ := hmore last₁
  have hless : Cursor.remaining ⟨us ++ rest, none, last₁⟩ <
      Cursor.remaining ⟨(ts ++ s :: us) ++ rest, none, last⟩ := by
    simp only [Cursor.remaining, List.length_append, List.length_cons]
    omega
  rw [List.append_assoc, List.singleton_append, ← List.cons_append, ← List.append_assoc] at hfirst
  refine ⟨last₂, ?_⟩
  rw [runSeparated_eq, hfirst]
  simp only [hless, and_self, if_true, hmore]

/-- The last round of a repetition. -/
theorem takes_separated_last {separator : Parse Bool} {item : Nat → Parse α} {place : Nat}
    (hitem : Takes stop (item place) ts a) (hseparator : Takes stop separator [] false)
    (last : String) (hrest : Followed stop rest) :
    ∃ last', runSeparated separator item place ⟨ts ++ rest, none, last⟩ =
      (.ok (a, []), ⟨rest, none, last'⟩) := by
  have hround : Takes stop (round separator (item place)) ts (a, false) :=
    hitem.last (hseparator.last (takes_pure _))
  obtain ⟨last', hrun⟩ := hround rest last hrest
  refine ⟨last', ?_⟩
  rw [runSeparated_eq, hrun]
  simp

/-- A single item, with no separator behind it. -/
theorem takes_separated_one {separator : Parse Bool} (hp : Takes stop p ts a)
    (hseparator : Takes stop separator [] false) :
    Takes stop (separated separator p) ts (a, []) := by
  intro rest last hrest
  have hitem : Takes stop ((fun _ : Nat => p) 0) ts a := hp
  exact takes_separated_last hitem hseparator last hrest

/-- A name without qualifiers, which no dot may follow. -/
theorem takes_qualifiedName {name : String} (ht : t.identifier? = some name) :
    Takes (fun u => u.isOperator '.' = false) qualifiedName [t] [name] :=
  (takes_separated_one (takes_expectIdentifier ht _) (takes_consume_nothing fun _ h => h)).last
    (takes_pure _)

/-- Something in parentheses. -/
theorem takes_parenthesized {f : α → β} (hp : Takes Token.EndsList p ts a) :
    Takes stop (expectKind .openParen >>= fun _ => p >>= fun x =>
      expectKind .closeParen >>= fun _ => pure (f x))
      (written .openParen "(" :: (ts ++ [written .closeParen ")"])) (f a) := by
  have hclose : Takes stop (expectKind .closeParen >>= fun _ => pure (f a))
      [written .closeParen ")"] (f a) := .last (takes_expect rfl _) (takes_pure _)
  have hinner : Takes stop (p >>= fun x => expectKind .closeParen >>= fun _ => pure (f x))
      (ts ++ [written .closeParen ")"]) (f a) :=
    hp.bind (fun _ _ => followed_cons (.inl rfl)) hclose
  exact .then (takes_expect rfl) hinner

/-! ## Texts -/

/-- The text is one that the readers of an item take, whatever the scope and at whatever place the
item stands, before such a token and at the end. -/
def Reads (stop : Token → Prop) (p : Scope → Nat → Parse α) (text : String) (a : α) : Prop :=
  ∃ ts, Renders text ts ∧ ∀ scope place, Takes stop (p scope place) ts a

/-- Items with commas between them are read item by item. -/
theorem reads_list {item : Scope → Nat → Parse β} {text : γ → String} {answer : γ → β} {x : γ}
    {xs : List γ}
    (h : ∀ y ∈ x :: xs, Reads Token.EndsItem item (text y) (answer y)) :
    Reads Token.EndsList (fun scope _ => separatedNumbered (consumeKind .comma) (item scope))
      (", ".intercalate ((x :: xs).map text)) (answer x, xs.map answer) := by
  suffices hrun : ∃ ts, Renders (", ".intercalate ((x :: xs).map text)) ts ∧
      ∀ scope place rest last, Followed Token.EndsList rest →
        ∃ last', runSeparated (consumeKind .comma) (item scope) place ⟨ts ++ rest, none, last⟩ =
          (.ok (answer x, xs.map answer), ⟨rest, none, last'⟩) by
    obtain ⟨ts, hrenders, hrun⟩ := hrun
    exact ⟨ts, hrenders, fun scope _ rest last hrest => hrun scope 0 rest last hrest⟩
  induction xs generalizing x with
  | nil =>
    obtain ⟨ts, hrenders, hitem⟩ := h x List.mem_cons_self
    refine ⟨ts, by simpa using hrenders, fun scope place rest last hrest => ?_⟩
    have hends : Takes Token.EndsList (consumeKind .comma) [] false :=
      takes_consume_nothing fun t ht => by
        rcases ht with hkind | hkind <;> rw [hkind] <;> rfl
    exact takes_separated_last ((hitem scope place).mono fun _ => .inr) hends last hrest
  | cons y xs ih =>
    obtain ⟨ts, hrenders, hitem⟩ := h x List.mem_cons_self
    obtain ⟨us, hrest, hmore⟩ := ih fun z hz => h z (List.mem_cons_of_mem x hz)
    refine ⟨ts ++ written .comma "," :: us, ?_, fun scope place rest last hends => ?_⟩
    · have hbegins : EndsBefore ", " := ⟨',', by decide, rfl⟩
      have hlist := (hrenders.append_opens hbegins opens_comma).append_renders hrest
      rw [List.append_assoc] at hlist
      simpa using hlist
    · exact takes_separated_cons (hitem scope place) (.inl rfl) (takes_consume rfl)
        fun last₁ => hmore scope (place + 1) rest last₁ hends

theorem reads_commaSeparated {item : Scope → Parse β} {text : γ → String} {answer : γ → β}
    {xs : List γ} (hne : xs ≠ [])
    (h : ∀ x ∈ xs, Reads Token.EndsItem (fun scope _ => item scope) (text x) (answer x)) :
    Reads Token.EndsList (fun scope _ => commaSeparated (item scope))
      (", ".intercalate (xs.map text)) (xs.map answer) := by
  cases xs with
  | nil => exact absurd rfl hne
  | cons x xs =>
    obtain ⟨ts, hrenders, hlist⟩ := reads_list h
    exact ⟨ts, hrenders, fun scope place => (hlist scope place).last (takes_pure _)⟩

/-- Texts with commas between them, in parentheses. -/
def parenthesized (texts : List String) : String := "(" ++ ", ".intercalate texts ++ ")"

theorem opens_parenthesized {texts : List String} (h : Renders (", ".intercalate texts) ts) :
    Opens (parenthesized texts) (written .openParen "(" :: (ts ++ [written .closeParen ")"])) := by
  have hopen : Opens "(" [written .openParen "("] :=
    opens_mark rfl (fun _ => rfl) rfl rfl
  have hclose : Opens ")" [written .closeParen ")"] :=
    opens_mark rfl (fun _ => rfl) rfl rfl
  exact (hopen.append_renders h).append_opens ⟨')', by decide, rfl⟩ hclose

end Parse
end TransactSql
