/-
TransactSql.Proofs.Parse.Replacing — reading a literal for a parameter.

Two readers walk side by side: one over the tokens of a text, with the
parameter bound, the other over the same tokens with the literal in the
place of the parameter. `r.Follows halts p q` says that wherever `p`
answers, `q` answers the same and both have the same tokens left.

A literal can stand in two places where the parameter cannot: as an
alias without `AS` and, if it is the word `NULL`, behind the type of a
column. There `p` stops and `q` goes on. That does no harm, since
nothing reads the parameter that `p` has stopped before (`Sticks`), and
so no statement follows. `halts` tells whether that can have happened.
-/
import TransactSql.Proofs.Lexer.Replacing
import TransactSql.Proofs.Parse.Answers
import TransactSql.Proofs.Parse.Grammar

namespace TransactSql

open Parse

namespace Replacement

variable (r : Replacement) {α β : Type} {halts : Prop}

/-- The same tokens are left, with the literal in the place of the parameter, and no failure is
behind them. -/
structure Alike (c d : Cursor) : Prop where
  tokens : r.Replaced c.tokens d.tokens
  fault : c.fault = none
  fault' : d.fault = none

/-- The next token is the parameter. -/
def Stuck (c : Cursor) : Prop := ∃ t rest, c.tokens = t :: rest ∧ r.replaces t = true

/-- The second reader answers what the first one answers, or the first one has stopped before the
parameter, if it can do that. -/
def Follows (halts : Prop) (p q : Parse α) : Prop :=
  ∀ c d a c', r.Alike c d → p.run c = (.ok a, c') →
    (halts ∧ r.Stuck c') ∨ ∃ d', q.run d = (.ok a, d') ∧ r.Alike c' d'

/-- The second reader answers what the first one answers. -/
abbrev Mirrors (p q : Parse α) : Prop := r.Follows False p q

/-- Before the parameter the reader fails, or takes no token. -/
def Sticks (p : Parse α) : Prop :=
  ∀ c a c', r.Stuck c → p.run c = (.ok a, c') → r.Stuck c'

variable {r}

/-- Both texts have ended, or both go on with a token. -/
theorem Alike.cases_tokens {c d : Cursor} (h : r.Alike c d) :
    (∃ last last', c = ⟨[], none, last⟩ ∧ d = ⟨[], none, last'⟩) ∨
      ∃ t u left right last last', c = ⟨t :: left, none, last⟩ ∧ d = ⟨u :: right, none, last'⟩ ∧
        r.Stands t u ∧ r.Replaced left right := by
  obtain ⟨tokens, fault, last⟩ := c
  obtain ⟨tokens', fault', last'⟩ := d
  obtain ⟨htokens, hfault, hfault'⟩ := h
  cases hfault
  cases hfault'
  cases htokens with
  | nil => exact .inl ⟨last, last', rfl, rfl⟩
  | cons hstands _ hrest => exact .inr ⟨_, _, _, _, last, last', rfl, rfl, hstands, hrest⟩

theorem Alike.remaining_eq {c d : Cursor} (h : r.Alike c d) : c.remaining = d.remaining := by
  obtain ⟨tokens, fault, last⟩ := c
  obtain ⟨tokens', fault', last'⟩ := d
  have htokens : r.Replaced tokens tokens' := h.tokens
  show tokens.length = tokens'.length
  clear h
  induction htokens with
  | nil => rfl
  | cons _ _ _ ih => exact congrArg (· + 1) ih

/-! ## Building readers -/

theorem Follows.mono {p q : Parse α} (h : r.Mirrors p q) : r.Follows halts p q := by
  intro c d a c' halike hp
  exact .inr ((h c d a c' halike hp).resolve_left fun hstuck => hstuck.1.elim)

theorem follows_pure (a : α) : r.Follows halts (pure a) (pure a) := by
  intro c d b c' halike hp
  cases hp
  exact .inr ⟨d, rfl, halike⟩

theorem follows_fail (e : Error) (q : Parse α) : r.Follows halts (fail e) q := by
  intro c d b c' halike hp
  cases hp

theorem follows_of_fails {p q : Parse α} (h : ∀ c a c', p.run c ≠ (.ok a, c')) :
    r.Follows halts p q :=
  fun c _ a c' _ hp => absurd hp (h c a c')

theorem follows_ofExcept {x y : Except Error α} (h : ∀ a, x = .ok a → y = .ok a) :
    r.Follows halts (ofExcept x) (ofExcept y) := by
  cases x with
  | error e => exact follows_fail e _
  | ok a =>
    rw [h a rfl]
    exact follows_pure a

theorem follows_ite {b : Bool} {p q p' q' : Parse α} (hp : r.Follows halts p q)
    (hq : r.Follows halts p' q') :
    r.Follows halts (if b then p else p') (if b then q else q') := by
  cases b
  · exact hq
  · exact hp

theorem Mirrors.bind {p q : Parse α} {f g : α → Parse β} (hp : r.Mirrors p q)
    (hf : ∀ a, r.Follows halts (f a) (g a)) : r.Follows halts (p >>= f) (q >>= g) := by
  intro c d b c' halike hrun
  obtain ⟨a, c₁, hfirst, hsecond⟩ := run_bind_ok.mp hrun
  obtain ⟨d₁, hfirst', halike₁⟩ := (hp c d a c₁ halike hfirst).resolve_left fun h => h.1.elim
  rcases hf a c₁ d₁ b c' halike₁ hsecond with hstuck | ⟨d', hsecond', halike'⟩
  · exact .inl hstuck
  · exact .inr ⟨d', run_bind_ok.mpr ⟨a, d₁, hfirst', hsecond'⟩, halike'⟩

/-- If the first of two readers stops before the parameter, then so does the second. -/
theorem Follows.bind {p q : Parse α} {f g : α → Parse β} (hp : r.Follows True p q)
    (hf : ∀ a, r.Follows True (f a) (g a)) (hsticks : ∀ a, r.Sticks (f a)) :
    r.Follows True (p >>= f) (q >>= g) := by
  intro c d b c' halike hrun
  obtain ⟨a, c₁, hfirst, hsecond⟩ := run_bind_ok.mp hrun
  rcases hp c d a c₁ halike hfirst with hstuck | ⟨d₁, hfirst', halike₁⟩
  · exact .inl ⟨trivial, hsticks a c₁ b c' hstuck.2 hsecond⟩
  · rcases hf a c₁ d₁ b c' halike₁ hsecond with hstuck | ⟨d', hsecond', halike'⟩
    · exact .inl hstuck
    · exact .inr ⟨d', run_bind_ok.mpr ⟨a, d₁, hfirst', hsecond'⟩, halike'⟩

/-! ## Reading one token -/

/-- The next token is read: the same on both sides, or the parameter and the literal. -/
theorem follows_expectNext {f g : Token → Parse β}
    (hsame : ∀ t u, r.replaces t = false → t.meaning = u.meaning → r.Follows halts (f t) (g u))
    (hliteral : ∀ t u, r.replaces t = true → u.literalValue? = some r.value →
      r.Follows halts (f t) (g u)) :
    r.Follows halts (expectNext >>= f) (expectNext >>= g) := by
  intro c d b c' halike hrun
  obtain ⟨last, last', rfl, rfl⟩ | ⟨t, u, left, right, last, last', rfl, rfl, hstands, hrest⟩ :=
    halike.cases_tokens
  · cases hrun
  · rw [run_expectNext_bind] at hrun ⊢
    have hleft : r.Alike ⟨left, none, t.literal⟩ ⟨right, none, u.literal⟩ := ⟨hrest, rfl, rfl⟩
    unfold Stands at hstands
    split at hstands
    · exact hliteral t u ‹_› hstands _ _ b c' hleft hrun
    · exact hsame t u (Bool.not_eq_true _ ▸ ‹_›) hstands _ _ b c' hleft hrun

/-- The next token is read, and the parameter is refused. -/
theorem mirrors_refusing {f : Token → Parse β} (hplace : IgnoresPlace f)
    (hparameter : ∀ t name, t.kind = .parameter name → ∃ e, f t = fail e)
    (hf : ∀ t, r.Mirrors (f t) (f t)) : r.Mirrors (expectNext >>= f) (expectNext >>= f) := by
  refine follows_expectNext (fun t u _ hmeaning => ?_) fun t u ht _ => ?_
  · rw [hplace t u hmeaning]
    exact hf u
  · obtain ⟨name, hname⟩ := kind_of_replaces ht
    obtain ⟨e, hfail⟩ := hparameter t name hname
    rw [hfail]
    exact follows_fail e _

/-- The property holds neither of the parameter nor of a literal. -/
structure Ignores (r : Replacement) (p : Token → Bool) : Prop where
  place : IgnoresPlace p
  parameter : ∀ t, r.replaces t = true → p t = false
  literal : ∀ u : Token, u.literalValue? = some r.value → p u = false

theorem Ignores.eq_of_stands {p : Token → Bool} (h : r.Ignores p) {t u : Token}
    (hstands : r.Stands t u) : p t = p u := by
  unfold Stands at hstands
  split at hstands
  · rw [h.parameter t ‹_›, h.literal u hstands]
  · exact h.place t u hstands

theorem isValue_of_replaces {t : Token} (h : r.replaces t = true) : t.kind.isValue = true := by
  obtain ⟨name, hname⟩ := kind_of_replaces h
  rw [hname]
  rfl

theorem beq_kind_of_isValue {t : Token} (h : t.kind.isValue = true) {kind : TokenKind}
    (hkind : kind.isValue = false) : (t.kind == kind) = false := by
  rw [beq_eq_false_iff_ne]
  rintro rfl
  rw [h] at hkind
  cases hkind

theorem ignores_of_isValue {p : Token → Bool} (hplace : IgnoresPlace p)
    (h : ∀ t : Token, t.kind.isValue = true → p t = false) : r.Ignores p where
  place := hplace
  parameter t ht := h t (isValue_of_replaces ht)
  literal u hu := h u (Token.isValue_of_literalValue? hu)

theorem ignores_kind {kind : TokenKind} (h : kind.isValue = false) :
    r.Ignores (·.kind == kind) :=
  ignores_of_isValue (ignoresPlace fun _ _ _ _ => rfl) fun _ ht => beq_kind_of_isValue ht h

/-- The next token is looked at, where the parameter makes no difference to the literal. -/
theorem mirrors_peek {f : Option Token → Parse β}
    (hf : ∀ t u, r.Stands t u → r.Mirrors (f (some t)) (f (some u)))
    (hnone : r.Mirrors (f none) (f none)) : r.Mirrors (peek >>= f) (peek >>= f) := by
  intro c d b c' halike hrun
  obtain ⟨last, last', rfl, rfl⟩ | ⟨t, u, left, right, last, last', rfl, rfl, hstands, -⟩ :=
    halike.cases_tokens
  · exact hnone _ _ b c' halike hrun
  · rw [run_peek_bind] at hrun ⊢
    exact hf t u hstands _ _ b c' halike hrun

theorem mirrors_peekIs {p : Token → Bool} (h : r.Ignores p) : r.Mirrors (peekIs p) (peekIs p) := by
  refine mirrors_peek (fun t u hstands => ?_) (follows_pure _)
  rw [Option.any_some, Option.any_some, h.eq_of_stands hstands]
  exact follows_pure _

/-- The next token is read if it has a property that neither the parameter nor a literal has. -/
theorem follows_nextIf {p : Token → Bool} {f g : Option Token → Parse β} (h : r.Ignores p)
    (hsome : ∀ t u, t.meaning = u.meaning → r.Follows halts (f (some t)) (g (some u)))
    (hnone : r.Follows halts (f none) (g none)) :
    r.Follows halts (nextIf p >>= f) (nextIf p >>= g) := by
  intro c d b c' halike hrun
  obtain ⟨last, last', rfl, rfl⟩ | ⟨t, u, left, right, last, last', rfl, rfl, hstands, hrest⟩ :=
    halike.cases_tokens
  · exact hnone _ _ b c' halike hrun
  · rw [run_nextIf_bind] at hrun ⊢
    rw [← h.eq_of_stands hstands]
    by_cases hp : p t = true
    · rw [if_pos hp] at hrun ⊢
      have hmeaning : t.meaning = u.meaning := by
        unfold Stands at hstands
        split at hstands
        · rw [h.parameter t ‹_›] at hp
          cases hp
        · exact hstands
      have hleft : r.Alike ⟨left, none, t.literal⟩ ⟨right, none, u.literal⟩ := ⟨hrest, rfl, rfl⟩
      exact hsome t u hmeaning _ _ b c' hleft hrun
    · rw [if_neg hp] at hrun ⊢
      exact hnone _ _ b c' halike hrun

theorem mirrors_consume {p : Token → Bool} (h : r.Ignores p) : r.Mirrors (consume p) (consume p) :=
  follows_nextIf h (fun _ _ _ => follows_pure _) (follows_pure _)

theorem mirrors_consumeKind {kind : TokenKind} (h : kind.isValue = false) :
    r.Mirrors (consumeKind kind) (consumeKind kind) :=
  mirrors_consume (ignores_kind h)

theorem mirrors_consumeKeyword {keyword : Keyword}
    (h : (TokenKind.keyword keyword).isValue = false) :
    r.Mirrors (consumeKeyword keyword) (consumeKeyword keyword) :=
  mirrors_consume (ignores_kind h)

/-- A token that must have a property is not the parameter. -/
theorem mirrors_expect {p : Token → Bool} (hplace : IgnoresPlace p)
    (hparameter : ∀ t, r.replaces t = true → p t = false) {f g : Token → Parse β}
    (hf : ∀ t u, t.meaning = u.meaning → r.Follows halts (f t) (g u)) :
    r.Follows halts (expect p >>= f) (expect p >>= g) := by
  unfold expect
  rw [bind_assoc, bind_assoc]
  refine follows_expectNext (fun t u _ h => ?_) fun t u ht hu => ?_
  · rw [hplace t u h]
    cases p u with
    | true => exact hf t u h
    | false => exact follows_fail _ _
  · rw [hparameter t ht]
    exact follows_fail _ _

theorem follows_expectKind {kind : TokenKind} (h : kind.isValue = false) {f g : Token → Parse β}
    (hf : ∀ t u, t.meaning = u.meaning → r.Follows halts (f t) (g u)) :
    r.Follows halts (expectKind kind >>= f) (expectKind kind >>= g) :=
  mirrors_expect (ignoresPlace fun _ _ _ _ => rfl)
    (fun _ ht => beq_kind_of_isValue (isValue_of_replaces ht) h) hf

/-- The parameter is no name and no alias. -/
theorem aliasText?_of_replaces {t : Token} (h : r.replaces t = true) : t.aliasText? = none := by
  obtain ⟨name, hname⟩ := kind_of_replaces h
  simp only [Token.aliasText?, Token.identifier?, hname]

/-- What stands for a value is no name. -/
theorem identifier?_of_isValue {t : Token} (h : t.kind.isValue = true) : t.identifier? = none := by
  rcases Token.isValue_cases h with ⟨_, hkind⟩ | ⟨_, _, hkind⟩ | hkind | ⟨_, hkind⟩
  all_goals simp only [Token.identifier?, hkind]

theorem mirrors_expectText {text? : Token → Option String} (hplace : IgnoresPlace text?)
    (hparameter : ∀ t, r.replaces t = true → text? t = none) :
    r.Mirrors (expectText text?) (expectText text?) := by
  refine follows_expectNext (fun t u _ h => ?_) fun t u ht hu => ?_
  · rw [hplace t u h]
    cases text? u with
    | none => exact follows_fail _ _
    | some text => exact follows_pure _
  · rw [hparameter t ht]
    exact follows_fail _ _

theorem mirrors_expectIdentifier : r.Mirrors expectIdentifier expectIdentifier :=
  mirrors_expectText (ignoresPlace fun _ _ _ _ => rfl) fun _ ht =>
    identifier?_of_isValue (isValue_of_replaces ht)

theorem mirrors_expectAlias : r.Mirrors expectAlias expectAlias :=
  mirrors_expectText (ignoresPlace fun _ _ _ _ => rfl) fun _ => aliasText?_of_replaces

/-- A token is read for its text where the literal has none. -/
theorem mirrors_nextIdentifier? :
    r.Mirrors (nextText? Token.identifier?) (nextText? Token.identifier?) := by
  refine follows_nextIf ⟨ignoresPlace fun _ _ _ _ => rfl, fun t ht => ?_, fun u hu => ?_⟩
    (fun t u h => ?_) (follows_pure _)
  · rw [identifier?_of_isValue (isValue_of_replaces ht)]
    rfl
  · rw [identifier?_of_isValue (Token.isValue_of_literalValue? hu)]
    rfl
  · have hsame : t.identifier? = u.identifier? :=
      ignoresPlace (fun _ _ _ _ => rfl) t u h
    simp only [Option.bind_some, hsame]
    exact follows_pure _

/-! ## Stopping before the parameter -/

/-- A token is read if it has a property that the parameter does not have. The literal may have it:
then the first reader has stopped. -/
theorem follows_nextIf_halting {p : Token → Bool} {f g : Option Token → Parse β}
    (hplace : IgnoresPlace p) (hparameter : ∀ t, r.replaces t = true → p t = false)
    (hsome : ∀ t u, t.meaning = u.meaning → r.Follows True (f (some t)) (g (some u)))
    (hnone : r.Follows True (f none) (g none)) (hsticks : r.Sticks (f none)) :
    r.Follows True (nextIf p >>= f) (nextIf p >>= g) := by
  intro c d b c' halike hrun
  obtain ⟨last, last', rfl, rfl⟩ | ⟨t, u, left, right, last, last', rfl, rfl, hstands, hrest⟩ :=
    halike.cases_tokens
  · exact hnone _ _ b c' halike hrun
  · rw [run_nextIf_bind] at hrun ⊢
    unfold Stands at hstands
    split at hstands
    · rename_i ht
      rw [hparameter t ht] at hrun
      exact .inl ⟨trivial, hsticks _ b c' ⟨t, left, rfl, ht⟩ hrun⟩
    · rw [← hplace t u hstands]
      by_cases hp : p t = true
      · rw [if_pos hp] at hrun ⊢
        have hleft : r.Alike ⟨left, none, t.literal⟩ ⟨right, none, u.literal⟩ := ⟨hrest, rfl, rfl⟩
        exact hsome t u hstands _ _ b c' hleft hrun
      · rw [if_neg hp] at hrun ⊢
        exact hnone _ _ b c' halike hrun

theorem sticks_pure (a : α) : r.Sticks (pure a) := by
  intro c b c' hstuck hrun
  cases hrun
  exact hstuck

theorem sticks_fail (e : Error) : r.Sticks (fail e : Parse α) := by
  intro c b c' hstuck hrun
  cases hrun

theorem sticks_ite {b : Bool} {p q : Parse α} (hp : r.Sticks p) (hq : r.Sticks q) :
    r.Sticks (if b then p else q) := by
  cases b
  · exact hq
  · exact hp

theorem Sticks.bind {p : Parse α} {f : α → Parse β} (hp : r.Sticks p) (hf : ∀ a, r.Sticks (f a)) :
    r.Sticks (p >>= f) := by
  intro c b c' hstuck hrun
  obtain ⟨a, c₁, hfirst, hsecond⟩ := run_bind_ok.mp hrun
  exact hf a c₁ b c' (hp c a c₁ hstuck hfirst) hsecond

theorem sticks_peekNth (n : Nat) : r.Sticks (peekNth n) := by
  rintro ⟨tokens, fault, last⟩ a c' hstuck hrun
  have hsame : (peekNth n).run ⟨tokens, fault, last⟩ =
      Cursor.peekNth ⟨tokens, fault, last⟩ n := rfl
  rw [hsame] at hrun
  unfold Cursor.peekNth at hrun
  split at hrun <;> cases hrun <;> exact hstuck

theorem sticks_peekIs (p : Token → Bool) : r.Sticks (peekIs p) :=
  (sticks_peekNth 0).bind fun _ => sticks_pure _

/-- A token that the parameter is not is not taken, and so what follows its absence is read. -/
theorem sticks_consume_bind {p : Token → Bool} {f : Bool → Parse β}
    (hparameter : ∀ t, r.replaces t = true → p t = false) (hf : r.Sticks (f false)) :
    r.Sticks (consume p >>= f) := by
  rintro ⟨tokens, fault, last⟩ b c' ⟨t, rest, htokens, ht⟩ hrun
  cases htokens
  rw [consume_bind, run_nextIf_bind, hparameter t ht] at hrun
  exact hf _ b c' ⟨t, rest, rfl, ht⟩ hrun

theorem sticks_expect_bind {p : Token → Bool} {f : Token → Parse β}
    (hparameter : ∀ t, r.replaces t = true → p t = false) : r.Sticks (expect p >>= f) := by
  rintro ⟨tokens, fault, last⟩ b c' ⟨t, rest, htokens, ht⟩ hrun
  cases htokens
  unfold expect at hrun
  rw [bind_assoc, run_expectNext_bind, hparameter t ht] at hrun
  cases hrun

/-! ## Reading sequences -/

/-- A separator is not the parameter, so a sequence ends before it. -/
theorem follows_separatedNumbered {separator : Parse Bool} {item item' : Nat → Parse α}
    (hseparator : r.Mirrors separator separator)
    (hends : halts → ∀ c, r.Stuck c → separator.run c = (.ok false, c))
    (hitem : ∀ place, r.Follows halts (item place) (item' place)) :
    r.Follows halts (separatedNumbered separator item) (separatedNumbered separator item') := by
  suffices h : ∀ place c d xs c', r.Alike c d → runSeparated separator item place c = (.ok xs, c') →
      (halts ∧ r.Stuck c') ∨
        ∃ d', runSeparated separator item' place d = (.ok xs, d') ∧ r.Alike c' d' from h 0
  intro place c
  induction hn : c.remaining using Nat.strongRecOn generalizing place c with
  | ind n ih =>
    intro d xs c' halike h
    rw [runSeparated_eq] at h
    rcases hround : (round separator (item place)).run c with ⟨_ | ⟨first, goesOn⟩, c₁⟩
    · rw [hround] at h
      cases h
    obtain ⟨a, c₂, hfirst, hafter⟩ := run_bind_ok.mp hround
    obtain ⟨b, c₃, hsecond, hpure⟩ := run_bind_ok.mp hafter
    cases hpure
    rcases hitem place c d _ c₂ halike hfirst with ⟨hhalts, hstuck⟩ | ⟨d₂, hfirst', halike₂⟩
    · -- the sequence ends with this item, before the parameter
      rw [hends hhalts c₂ hstuck] at hsecond
      cases hsecond
      simp only [hround, Bool.false_eq_true, false_and, if_false] at h
      cases h
      exact .inl ⟨hhalts, hstuck⟩
    obtain ⟨d₁, hsecond', halike₁⟩ :=
      (hseparator c₂ d₂ _ c₁ halike₂ hsecond).resolve_left fun hstuck => hstuck.1.elim
    have hround' : (round separator (item' place)).run d = (.ok (first, goesOn), d₁) :=
      run_bind_ok.mpr ⟨first, d₂, hfirst', run_bind_ok.mpr ⟨goesOn, d₁, hsecond', rfl⟩⟩
    simp only [hround] at h
    rw [runSeparated_eq, hround']
    simp only [← halike₁.remaining_eq, ← halike.remaining_eq]
    split at h
    · rename_i hgoesOn
      rcases hmore : runSeparated separator item (place + 1) c₁ with ⟨_ | more, c₄⟩
      · rw [hmore] at h
        cases h
      rw [hmore] at h
      cases h
      rw [if_pos hgoesOn]
      rcases ih _ (hn ▸ hgoesOn.2) (place + 1) c₁ rfl d₁ more _ halike₁ hmore with
        hstuck | ⟨d', hmore', halike'⟩
      · exact .inl hstuck
      · rw [hmore']
        exact .inr ⟨d', rfl, halike'⟩
    · rename_i hgoesOn
      cases h
      rw [if_neg hgoesOn]
      exact .inr ⟨d₁, rfl, halike₁⟩

theorem mirrors_commaSeparated {item item' : Parse α} (hitem : r.Mirrors item item') :
    r.Mirrors (commaSeparated item) (commaSeparated item') :=
  Mirrors.bind (follows_separatedNumbered (mirrors_consumeKind rfl) nofun fun _ => hitem)
    fun _ => follows_pure _

theorem mirrors_qualifiedName : r.Mirrors qualifiedName qualifiedName :=
  Mirrors.bind (follows_separatedNumbered (mirrors_consume (ignores_kind rfl)) nofun
    fun _ => mirrors_expectIdentifier) fun _ => follows_pure _

/-- A separator that is no parameter is not found where the parameter is next. -/
theorem consumeKind_of_stuck {kind : TokenKind} (h : kind.isValue = false) (c : Cursor)
    (hstuck : r.Stuck c) : (consumeKind kind).run c = (.ok false, c) := by
  obtain ⟨t, rest, htokens, ht⟩ := hstuck
  obtain ⟨tokens, fault, last⟩ := c
  cases htokens
  show (nextIf _ >>= fun token => pure token.isSome).run _ = _
  rw [run_nextIf_bind, beq_kind_of_isValue (isValue_of_replaces ht) h]
  rfl

end Replacement

open Replacement

variable {r : Replacement} {scope scope' : Scope}

/-- The first scope is the second one with the parameter bound to the value of the literal. -/
structure Replacement.Binds (r : Replacement) (scope scope' : Scope) : Prop where
  parameter : ∀ name, scope.parameters.get? name =
    if r.collation.equals name r.name then some r.value else scope'.parameters.get? name
  collation : scope.parameters.collation = scope'.parameters.collation
  version : scope.version = scope'.version
  rowCount : scope.rowCount = scope'.rowCount

theorem Replacement.Binds.parameter_of_same (h : r.Binds scope scope') {name : String}
    (hname : r.collation.equals name r.name = true) : scope.parameter name = .ok r.value := by
  simp only [Scope.parameter, h.parameter, hname, if_true]

theorem Replacement.Binds.parameter_eq (h : r.Binds scope scope') {name : String}
    (hname : r.collation.equals name r.name = false) :
    scope.parameter name = scope'.parameter name := by
  simp only [Scope.parameter, h.parameter, hname, Bool.false_eq_true, if_false]

theorem Replacement.Binds.systemVariable_eq (h : r.Binds scope scope') (name : String) :
    scope.systemVariable name = scope'.systemVariable name := by
  simp only [Scope.systemVariable, h.collation, h.version, h.rowCount]

/-! ## Expressions -/

namespace Expression

theorem mirrors_nextOperator? : r.Mirrors nextOperator? nextOperator? := by
  have hvalue : ∀ t : Token, t.kind.isValue = true → t.arithmeticOperator?.isSome = false := by
    intro t ht
    rcases Token.isValue_cases ht with ⟨_, hkind⟩ | ⟨_, _, hkind⟩ | hkind | ⟨_, hkind⟩
    all_goals simp only [Token.arithmeticOperator?, hkind, Option.isSome_none]
  refine follows_nextIf ⟨ignoresPlace fun _ _ _ _ => rfl, fun t ht => ?_, fun u hu => ?_⟩
    (fun t u h => ?_) (follows_pure _)
  · exact hvalue t (isValue_of_replaces ht)
  · exact hvalue u (Token.isValue_of_literalValue? hu)
  · have hsame : t.arithmeticOperator? = u.arithmeticOperator? :=
      ignoresPlace (fun _ _ _ _ => rfl) t u h
    simp only [Option.bind_some, hsame]
    exact follows_pure _

theorem mirrors_readArguments {below below' : Readers}
    (hbelow : r.Mirrors (below.expression false) (below'.expression false)) :
    r.Mirrors (readArguments below) (readArguments below') := by
  refine follows_expectKind rfl fun _ _ _ => Mirrors.bind (mirrors_consumeKind rfl) fun _ => ?_
  refine follows_ite (follows_pure _) (Mirrors.bind (mirrors_commaSeparated hbelow) fun _ => ?_)
  exact follows_expectKind rfl fun _ _ _ => follows_pure _

theorem mirrors_readCall {below below' : Readers}
    (hbelow : r.Mirrors (below.expression false) (below'.expression false)) (name : QualifiedName) :
    r.Mirrors (readCall below name) (readCall below' name) := by
  unfold readCall
  cases BuiltIn.ofName? name.toText with
  | none => exact follows_fail _ _
  | some function =>
    refine Mirrors.bind (mirrors_readArguments hbelow) fun arguments => ?_
    rcases arguments with _ | ⟨argument, _ | _⟩
    · exact follows_fail _ _
    · exact follows_pure _
    · exact follows_fail _ _

theorem mirrors_readName {below below' : Readers}
    (hbelow : r.Mirrors (below.expression false) (below'.expression false)) (first : String) :
    r.Mirrors (readName below first) (readName below' first) := by
  have hrest : ∀ name : QualifiedName, r.Mirrors
      (peekIs (·.kind == .openParen) >>= fun isCall =>
        if isCall then readCall below name else pure (.reference name))
      (peekIs (·.kind == .openParen) >>= fun isCall =>
        if isCall then readCall below' name else pure (.reference name)) := fun name =>
    Mirrors.bind (mirrors_peekIs (ignores_kind rfl)) fun _ =>
      follows_ite (mirrors_readCall hbelow name) (follows_pure _)
  refine Mirrors.bind (mirrors_consume (ignores_kind rfl)) fun _ => follows_ite ?_ ?_
  · exact Mirrors.bind mirrors_qualifiedName fun more => hrest (first :: more)
  · exact Mirrors.bind (follows_pure _) fun more => hrest (first :: more)

theorem mirrors_readOperand (h : r.Binds scope scope') {below below' : Readers}
    (hbelow : r.Mirrors (below.expression false) (below'.expression false))
    (hsigned : r.Mirrors below.signed below'.signed) :
    r.Mirrors (readOperand scope below) (readOperand scope' below') := by
  refine follows_expectNext (fun t u hother hmeaning => ?_) fun t u ht hu => ?_
  · obtain ⟨kind, literal, place⟩ := t
    obtain ⟨kind', literal', place'⟩ := u
    cases hmeaning
    dsimp only
    split
    · exact follows_pure _
    · exact follows_pure _
    · exact follows_pure _
    · refine Mirrors.bind (follows_ofExcept fun v hv => ?_) fun _ => follows_pure _
      rw [← hv]
      exact (h.parameter_eq hother).symm
    · rw [h.systemVariable_eq]
      exact Mirrors.bind (follows_ofExcept fun _ => id) fun _ => follows_pure _
    · exact Mirrors.bind hsigned fun _ => follows_pure _
    · exact hsigned
    · exact Mirrors.bind hbelow fun _ => follows_expectKind rfl fun _ _ _ => follows_pure _
    · exact mirrors_readName hbelow _
    · exact mirrors_readName hbelow _
    · exact follows_fail _ _
  · obtain ⟨kind, literal, place⟩ := t
    obtain ⟨name, rfl⟩ : ∃ name, kind = .parameter name := kind_of_replaces ht
    have hvalue : scope.parameter name = .ok r.value := h.parameter_of_same ht
    have hread : (ofExcept (scope.parameter name) >>= fun v => pure (.value v) : Parse Expression) =
        pure (.value r.value) := by
      rw [hvalue]
      rfl
    dsimp only
    rw [hread]
    unfold Token.literalValue? at hu
    split at hu
    · rename_i hkind
      rw [hkind, ← Option.some.inj hu]
      exact follows_pure _
    · rename_i hkind
      rw [hkind, ← Option.some.inj hu]
      exact follows_pure _
    · rename_i hkind
      rw [hkind, ← Option.some.inj hu]
      exact follows_pure _
    · cases hu

theorem mirrors_readExpression {operand operand' : Parse Expression}
    {rest rest' : Bool → Parse Expression} (hoperand : r.Mirrors operand operand')
    (hrest : ∀ aliased, r.Mirrors (rest aliased) (rest' aliased)) (aliased : Bool) :
    r.Mirrors (readExpression operand rest aliased) (readExpression operand' rest' aliased) := by
  refine Mirrors.bind hoperand fun left => ?_
  have hafter : ∀ isNamed, r.Mirrors (readAfter (rest aliased) left isNamed)
      (readAfter (rest' aliased) left isNamed) := by
    intro isNamed
    refine follows_ite (Mirrors.bind mirrors_expectAlias fun _ => follows_pure _) ?_
    refine Mirrors.bind mirrors_nextOperator? fun op => ?_
    cases op with
    | none => exact follows_pure _
    | some op => exact Mirrors.bind (hrest aliased) fun _ => follows_pure _
  cases aliased with
  | true => exact Mirrors.bind (mirrors_consumeKeyword rfl) hafter
  | false => exact Mirrors.bind (follows_pure _) hafter

theorem mirrors_readers (h : r.Binds scope scope') (levels : Nat) :
    (∀ aliased, r.Mirrors ((readers scope levels).expression aliased)
      ((readers scope' levels).expression aliased)) ∧
      r.Mirrors (readers scope levels).signed (readers scope' levels).signed := by
  induction levels with
  | zero => exact ⟨fun _ => follows_fail _ _, follows_fail _ _⟩
  | succ levels ih =>
    have hoperand := mirrors_readOperand h (ih.1 false) ih.2
    exact ⟨mirrors_readExpression hoperand ih.1, hoperand⟩

theorem mirrors_read (h : r.Binds scope scope') (levels : Nat) :
    r.Mirrors (read scope levels) (read scope' levels) :=
  (mirrors_readers h levels).1 false

theorem mirrors_readAliased (h : r.Binds scope scope') (levels : Nat) :
    r.Mirrors (readAliased scope levels) (readAliased scope' levels) :=
  (mirrors_readers h levels).1 true

end Expression

/-! ## Conditions -/

namespace Predicate

/-- The same tokens are left behind two tokens, and their first tokens touch these two alike. -/
structure AlikeBehind (r : Replacement) (t u : Token) (c d : Cursor) : Prop where
  alike : r.Alike c d
  touches : ∀ t' ∈ c.tokens.head?, ∀ u' ∈ d.tokens.head?, t.isSymbol → t'.isSymbol →
    (t.Touches t' ↔ u.Touches u')

/-- Where the second character of an operator is read on one side, it is read on the other. -/
theorem run_consumeAdjacent {α : Type} {t u : Token} {c d c' : Cursor} {a : α}
    (h : AlikeBehind r t u c d) (hsymbol : t.isSymbol) (symbol : Char) {p q q' : Parse α}
    (hp : r.Mirrors p p)
    (hq : q.run c = (.ok a, c') → ∃ d', q'.run d = (.ok a, d') ∧ r.Alike c' d')
    (hrun : (consumeAdjacent t symbol >>= fun b => if b then p else q).run c = (.ok a, c')) :
    ∃ d', (consumeAdjacent u symbol >>= fun b => if b then p else q').run d = (.ok a, d') ∧
      r.Alike c' d' := by
  unfold consumeAdjacent at hrun ⊢
  rw [consume_bind] at hrun ⊢
  obtain ⟨last, last', rfl, rfl⟩ | ⟨t', u', left, right, last, last', rfl, rfl, hstands, hrest⟩ :=
    h.alike.cases_tokens
  · exact hq hrun
  have hoperator : ∀ t : Token, t.kind.isValue = true → t.isOperator symbol = false :=
    fun t ht => beq_kind_of_isValue ht rfl
  have hadjacent : (t'.isOperator symbol && t'.position == t.stop) =
      (u'.isOperator symbol && u'.position == u.stop) := by
    unfold Stands at hstands
    split at hstands
    · rw [hoperator t' (isValue_of_replaces ‹_›),
        hoperator u' (Token.isValue_of_literalValue? hstands)]
      rfl
    · have hkind : t'.kind = u'.kind := congrArg Prod.fst hstands
      have hsame : t'.isOperator symbol = u'.isOperator symbol := by
        simp only [Token.isOperator, hkind]
      rw [← hsame]
      cases hop : t'.isOperator symbol with
      | false => rfl
      | true =>
        have hsymbol' : t'.isSymbol := by
          have hkind' : t'.kind = .operator symbol := by simpa [Token.isOperator] using hop
          simp [Token.isSymbol, hkind']
        rw [Bool.true_and, Bool.true_and, Bool.eq_iff_iff, beq_iff_eq, beq_iff_eq]
        exact h.touches t' rfl u' rfl hsymbol hsymbol'
  rw [run_nextIf_bind] at hrun ⊢
  rw [← hadjacent]
  cases hread : t'.isOperator symbol && t'.position == t.stop with
  | true =>
    rw [hread] at hrun
    have hleft : r.Alike ⟨left, none, t'.literal⟩ ⟨right, none, u'.literal⟩ := ⟨hrest, rfl, rfl⟩
    exact (hp _ _ a c' hleft hrun).resolve_left fun hstuck => hstuck.1.elim
  | false =>
    rw [hread] at hrun
    exact hq hrun

theorem mirrors_readOperator : r.Mirrors readOperator readOperator := by
  intro c d a c' halike hrun
  refine .inr ?_
  obtain ⟨last, last', rfl, rfl⟩ | ⟨t, u, left, right, last, last', rfl, rfl, hstands, hrest⟩ :=
    halike.cases_tokens
  · cases hrun
  have hbehind : AlikeBehind r t u ⟨left, none, t.literal⟩ ⟨right, none, u.literal⟩ := by
    cases halike.tokens with
    | cons _ htouches _ => exact ⟨⟨hrest, rfl, rfl⟩, htouches⟩
  have hanswer : ∀ {op : ComparisonOperator} {c d : Cursor}, r.Alike c d →
      (pure op : Parse ComparisonOperator).run c = (.ok a, c') →
      ∃ d', (pure op : Parse ComparisonOperator).run d = (.ok a, d') ∧ r.Alike c' d' := by
    intro op c d halike hrun
    cases hrun
    exact ⟨d, rfl, halike⟩
  unfold readOperator at hrun ⊢
  rw [run_expectNext_bind] at hrun ⊢
  have hkind : t.kind = u.kind := by
    unfold Stands at hstands
    split at hstands
    · obtain ⟨name, hname⟩ := kind_of_replaces ‹_›
      simp only [hname] at hrun
      cases hrun
    · exact congrArg Prod.fst hstands
  have hsymbol : ∀ symbol, t.kind = .operator symbol → t.isSymbol := by
    intro symbol hoperator
    simp only [Token.isSymbol, hoperator]
  rw [← hkind]
  split at hrun
  · exact hanswer hbehind.alike hrun
  · have hsymbol := hsymbol _ ‹_›
    refine run_consumeAdjacent hbehind hsymbol '>' (follows_pure _) ?_ hrun
    refine run_consumeAdjacent hbehind hsymbol '=' (follows_pure _) ?_
    exact hanswer hbehind.alike
  · have hsymbol := hsymbol _ ‹_›
    refine run_consumeAdjacent hbehind hsymbol '=' (follows_pure _) ?_ hrun
    exact hanswer hbehind.alike
  · have hsymbol := hsymbol _ ‹_›
    refine run_consumeAdjacent hbehind hsymbol '=' (follows_pure _) ?_ hrun
    refine run_consumeAdjacent hbehind hsymbol '<' (follows_pure _) ?_
    exact run_consumeAdjacent hbehind hsymbol '>' (follows_pure _) fun hfail => by cases hfail
  · cases hrun

theorem mirrors_readComparison {expression expression' : Parse Expression}
    (h : r.Mirrors expression expression') :
    r.Mirrors (readComparison expression) (readComparison expression') :=
  Mirrors.bind h fun _ => Mirrors.bind mirrors_readOperator fun _ =>
    Mirrors.bind h fun _ => follows_pure _

theorem mirrors_read (h : r.Binds scope scope') (levels : Nat) :
    r.Mirrors (read scope levels) (read scope' levels) := by
  have hexpression := Expression.mirrors_read h levels
  have hconjunction : r.Mirrors (readConjunction (Expression.read scope levels))
      (readConjunction (Expression.read scope' levels)) :=
    Mirrors.bind (follows_separatedNumbered (mirrors_consumeKeyword rfl) nofun
      fun _ => mirrors_readComparison hexpression) fun _ => follows_pure _
  exact Mirrors.bind (follows_separatedNumbered (mirrors_consumeKeyword rfl) nofun
    fun _ => hconjunction) fun _ => follows_pure _

end Predicate

/-! ## Queries -/

namespace Query

/-- The limit that is computed from an expression. -/
def toLimit (e : Expression) : Parse (Option Nat) := do
  let limit ← ofExcept (e.eval limitLookup >>= limitOf)
  pure (some limit)

/-- Only a number can be the limit of a query. If the parameter is one, so is the literal. -/
theorem mirrors_readLimit? (h : r.Binds scope scope') (levels : Nat) :
    r.Mirrors (readLimit? scope levels) (readLimit? scope' levels) := by
  have htoLimit : ∀ e, r.Mirrors (toLimit e) (toLimit e) := fun e =>
    Mirrors.bind (follows_ofExcept fun _ => id) fun _ => follows_pure _
  refine Mirrors.bind (mirrors_consumeKeyword rfl) fun _ => follows_ite ?_ (follows_pure _)
  show r.Mirrors (readLimitExpression scope levels >>= toLimit)
    (readLimitExpression scope' levels >>= toLimit)
  unfold readLimitExpression
  rw [bind_assoc, bind_assoc]
  refine Mirrors.bind (mirrors_consumeKind rfl) fun parenthesized => ?_
  cases parenthesized with
  | true =>
    refine Mirrors.bind (Mirrors.bind (Expression.mirrors_read h levels) fun _ => ?_) htoLimit
    exact follows_expectKind rfl fun _ _ _ => follows_pure _
  | false =>
    simp only [Bool.false_eq_true, if_false]
    rw [bind_assoc, bind_assoc]
    refine follows_expectNext (fun t u hother hmeaning => ?_) fun t u ht hu => ?_
    · obtain ⟨kind, literal, place⟩ := t
      obtain ⟨kind', literal', place'⟩ := u
      cases hmeaning
      refine Mirrors.bind ?_ htoLimit
      dsimp only
      split
      · exact follows_pure _
      · refine Mirrors.bind (follows_ofExcept fun v hv => ?_) fun _ => follows_pure _
        rw [← hv]
        exact (h.parameter_eq hother).symm
      · exact follows_fail _ _
    · obtain ⟨kind, literal, place⟩ := t
      obtain ⟨name, rfl⟩ : ∃ name, kind = .parameter name := kind_of_replaces ht
      have hvalue : scope.parameter name = .ok r.value := h.parameter_of_same ht
      dsimp only
      rw [hvalue]
      show r.Mirrors (toLimit (.value r.value)) _
      unfold Token.literalValue? at hu
      split at hu
      · rename_i hkind
        rw [hkind, ← Option.some.inj hu]
        exact htoLimit _
      · rw [← Option.some.inj hu]
        refine follows_of_fails fun c limit c' hrun => ?_
        split at hrun <;> cases hrun
      · rw [← Option.some.inj hu]
        exact follows_of_fails fun c limit c' => nofun
      · cases hu

theorem follows_readItem (h : r.Binds scope scope') (levels : Nat) :
    r.Follows True (readItem scope levels) (readItem scope' levels) := by
  refine Mirrors.bind (mirrors_consume (ignores_kind rfl)) fun _ => ?_
  refine follows_ite (follows_pure _) ?_
  refine Mirrors.bind (Expression.mirrors_readAliased h levels) fun e => ?_
  refine follows_ite (follows_pure _) ?_
  have halias : r.Follows True implicitAlias? implicitAlias? := by
    refine follows_nextIf_halting (ignoresPlace fun _ _ _ _ => rfl) (fun t ht => ?_)
      (fun t u hmeaning => ?_) (follows_pure _) (sticks_pure _)
    · rw [aliasText?_of_replaces ht]
      rfl
    · have hsame : t.aliasText? = u.aliasText? := ignoresPlace (fun _ _ _ _ => rfl) t u hmeaning
      simp only [Option.bind_some, hsame]
      exact follows_pure _
  refine halias.bind (fun name? => ?_) fun name? => ?_
  · cases name? <;> exact follows_pure _
  · cases name? <;> exact sticks_pure _

theorem mirrors_readSourceAlias? : r.Mirrors readSourceAlias? readSourceAlias? :=
  Mirrors.bind (mirrors_consumeKeyword rfl) fun _ =>
    follows_ite (Mirrors.bind mirrors_expectIdentifier fun _ => follows_pure _)
      mirrors_nextIdentifier?

theorem follows_readSource {derived derived' : Parse Query}
    (hderived : r.Follows True derived derived') :
    r.Follows True (readSource derived) (readSource derived') := by
  have hsingle :
      r.Follows True (readSource.readSingle derived) (readSource.readSingle derived') := by
    refine Mirrors.bind (mirrors_consumeKind rfl) fun _ => follows_ite ?_ ?_
    · refine follows_expectKind rfl fun _ _ _ => hderived.bind (fun query => ?_) fun query => ?_
      · refine follows_expectKind rfl fun close close' _ => ?_
        refine Mirrors.bind mirrors_readSourceAlias? fun name? => ?_
        cases name? with
        | none => exact follows_fail _ _
        | some name => exact follows_pure _
      · exact sticks_expect_bind fun _ ht => beq_kind_of_isValue (isValue_of_replaces ht) rfl
    · exact Mirrors.bind mirrors_qualifiedName fun _ =>
        Mirrors.bind mirrors_readSourceAlias? fun _ => follows_pure _
  have hjoin : r.Ignores beginsJoin := by
    refine ignores_of_isValue (ignoresPlace fun _ _ _ _ => rfl) fun t ht => ?_
    rcases Token.isValue_cases ht with ⟨_, hkind⟩ | ⟨_, _, hkind⟩ | hkind | ⟨_, hkind⟩
    all_goals simp [beginsJoin, Token.isKeyword, hkind]
  refine hsingle.bind (fun source => ?_) fun source => ?_
  · exact Mirrors.bind (mirrors_peekIs hjoin) fun _ =>
      follows_ite (follows_fail _ _) (follows_pure _)
  · exact (sticks_peekIs _).bind fun _ => sticks_ite (sticks_fail _) (sticks_pure _)

theorem mirrors_refuseClause : r.Mirrors refuseClause refuseClause := by
  have hvalue : ∀ t : Token, t.kind.isValue = true → refusedClause? t = none := by
    intro t ht
    rcases Token.isValue_cases ht with ⟨_, hkind⟩ | ⟨_, _, hkind⟩ | hkind | ⟨_, hkind⟩
    all_goals simp only [refusedClause?, hkind]
  refine mirrors_peek (fun t u hstands => ?_) (follows_pure _)
  have hsame : refusedClause? t = refusedClause? u := by
    unfold Stands at hstands
    split at hstands
    · rw [hvalue t (isValue_of_replaces ‹_›), hvalue u (Token.isValue_of_literalValue? hstands)]
    · exact ignoresPlace (fun _ _ _ _ => rfl) t u hstands
  simp only [Option.bind_some, hsame]
  split
  · exact follows_fail _ _
  · exact follows_pure _

theorem sticks_refuseClause : r.Sticks refuseClause := by
  refine (sticks_peekNth 0).bind fun token => ?_
  split
  · exact sticks_fail _
  · exact sticks_pure _

theorem follows_readQuery (h : r.Binds scope scope') (levels : Nat) {derived derived' : Parse Query}
    (hderived : r.Follows True derived derived') :
    r.Follows True (readQuery scope levels derived) (readQuery scope' levels derived') := by
  have hquantifier : r.Mirrors refuseQuantifier refuseQuantifier := by
    refine Mirrors.bind (mirrors_peekIs ?_) fun _ => follows_ite (follows_fail _ _) (follows_pure _)
    refine ignores_of_isValue (ignoresPlace fun _ _ _ _ => rfl) fun t ht => ?_
    rcases Token.isValue_cases ht with ⟨_, hkind⟩ | ⟨_, _, hkind⟩ | hkind | ⟨_, hkind⟩
    all_goals simp [Token.isKeyword, hkind]
  have hfilter :
      r.Mirrors (readQuery.readFilter? scope levels) (readQuery.readFilter? scope' levels) :=
    Mirrors.bind (mirrors_consumeKeyword rfl) fun _ =>
      follows_ite (Mirrors.bind (Predicate.mirrors_read h levels) fun _ => follows_pure _)
        (follows_pure _)
  have hstays : ∀ {keyword : Keyword}, (TokenKind.keyword keyword).isValue = false →
      ∀ t : Token, r.replaces t = true → t.isKeyword keyword = false :=
    fun hkeyword _ ht => beq_kind_of_isValue (isValue_of_replaces ht) hkeyword
  refine Mirrors.bind hquantifier fun _ => ?_
  refine Mirrors.bind (mirrors_readLimit? h levels) fun limit => ?_
  have hitems : r.Follows True (commaSeparated (readItem scope levels))
      (commaSeparated (readItem scope' levels)) := by
    refine Follows.bind (follows_separatedNumbered (mirrors_consumeKind rfl)
      (fun _ => consumeKind_of_stuck rfl) fun _ => follows_readItem h levels)
      (fun _ => ?_) fun _ => ?_
    · exact follows_pure _
    · exact sticks_pure _
  have hsticks : ∀ items source, r.Sticks (readQuery.readFilter? scope levels >>= fun filter =>
      refuseClause >>= fun _ => pure (⟨⟨limit, items, filter⟩, source⟩ : Query)) := by
    intro items source
    have hfilter : r.Sticks (readQuery.readFilter? scope levels) :=
      sticks_consume_bind (hstays rfl) (sticks_pure _)
    exact hfilter.bind fun _ => sticks_refuseClause.bind fun _ => sticks_pure _
  refine hitems.bind (fun items => ?_) fun items => ?_
  · have hafter : ∀ source : Source, r.Follows True
        (readQuery.readFilter? scope levels >>= fun filter => refuseClause >>= fun _ =>
          pure (⟨⟨limit, items, filter⟩, source⟩ : Query))
        (readQuery.readFilter? scope' levels >>= fun filter => refuseClause >>= fun _ =>
          pure (⟨⟨limit, items, filter⟩, source⟩ : Query)) := fun source =>
      Mirrors.bind hfilter fun _ => Mirrors.bind mirrors_refuseClause fun _ => follows_pure _
    refine Mirrors.bind (mirrors_consumeKeyword rfl) fun _ => follows_ite ?_ ?_
    · refine (follows_readSource hderived).bind (fun source => ?_) fun source => ?_
      · exact follows_ite (follows_fail _ _) (hafter source)
      · exact sticks_ite (sticks_fail _) (hsticks items source)
    · exact Mirrors.bind (follows_pure _) fun source =>
        follows_ite (follows_fail _ _) (hafter source)
  · refine sticks_consume_bind (hstays rfl) ((sticks_pure _).bind fun source => ?_)
    exact sticks_ite (sticks_fail _) (hsticks items source)

theorem follows_read (h : r.Binds scope scope') (levels : Nat) :
    r.Follows True (read scope levels) (read scope' levels) := by
  induction levels with
  | zero => exact follows_readQuery h 0 (follows_fail _ _)
  | succ levels ih => exact follows_readQuery h (levels + 1) ih

end Query

/-! ## Statements -/

namespace Statement

theorem mirrors_readTypeArguments : r.Mirrors readTypeArguments readTypeArguments := by
  have hargument : r.Mirrors readTypeArgument readTypeArgument := by
    refine mirrors_refusing (ignoresPlace fun _ _ _ _ => rfl) (fun t name hname => ?_) fun t => ?_
    · exact ⟨t.unexpected, by rw [hname]⟩
    · split
      · exact follows_pure _
      · exact follows_ite (follows_pure _) (follows_fail _ _)
      · exact follows_fail _ _
  refine Mirrors.bind (mirrors_consumeKind rfl) fun _ => follows_ite ?_ (follows_pure _)
  exact Mirrors.bind (mirrors_commaSeparated hargument) fun _ =>
    follows_expectKind rfl fun _ _ _ => follows_pure _

/-- The literal `NULL` is read behind the type of a column, where the parameter is not. -/
theorem follows_readNullable : r.Follows True readNullable readNullable := by
  refine Mirrors.bind (mirrors_consumeKeyword rfl) fun _ => follows_ite ?_ ?_
  · refine mirrors_expect (ignoresPlace fun _ _ _ _ => rfl) (fun t ht => ?_) fun _ _ _ => ?_
    · obtain ⟨name, hname⟩ := kind_of_replaces ht
      simp [Token.isKeyword, hname]
    · exact follows_pure _
  · rw [consumeKeyword, consume_bind]
    refine follows_nextIf_halting (ignoresPlace fun _ _ _ _ => rfl) (fun t ht => ?_)
      (fun _ _ _ => follows_pure _) (follows_pure _) (sticks_pure _)
    obtain ⟨name, hname⟩ := kind_of_replaces ht
    simp [Token.isKeyword, hname]

theorem follows_readColumn (ordinal : Nat) :
    r.Follows True (readColumn ordinal) (readColumn ordinal) := by
  refine Mirrors.bind mirrors_expectIdentifier fun name => ?_
  refine Mirrors.bind mirrors_expectIdentifier fun typeName => ?_
  cases DataType.ofName? typeName with
  | none => exact follows_fail _ _
  | some type =>
    refine Mirrors.bind mirrors_readTypeArguments fun _ => ?_
    refine follows_readNullable.bind (fun nullable => ?_) fun nullable => ?_
    · refine Mirrors.bind (mirrors_peekIs ?_) fun _ =>
        follows_ite (follows_fail _ _) (follows_pure _)
      refine ignores_of_isValue (ignoresPlace fun _ _ _ _ => rfl) fun t ht => ?_
      rcases Token.isValue_cases ht with ⟨_, hkind⟩ | ⟨_, _, hkind⟩ | hkind | ⟨_, hkind⟩
      all_goals simp [beginsConstraint, Token.isKeyword, hkind]
    · exact (sticks_peekIs _).bind fun _ => sticks_ite (sticks_fail _) (sticks_pure _)

theorem follows_readCreate : r.Follows True readCreate readCreate := by
  have hkinds : r.Mirrors refuseOtherKinds refuseOtherKinds := by
    refine mirrors_refusing (ignoresPlace fun _ _ _ _ => rfl) (fun t name hname => ?_) fun t => ?_
    · exact ⟨t.unexpected, by rw [hname]⟩
    · split
      · exact follows_pure _
      all_goals exact follows_fail _ _
  have hcolumns : r.Follows True readColumns readColumns :=
    Follows.bind (follows_separatedNumbered (mirrors_consumeKind rfl)
      (fun _ => consumeKind_of_stuck rfl) fun place => follows_readColumn (place + 1))
      (fun _ => follows_pure _) fun _ => sticks_pure _
  refine Mirrors.bind hkinds fun _ => Mirrors.bind mirrors_qualifiedName fun _ => ?_
  refine follows_expectKind rfl fun _ _ _ => hcolumns.bind (fun _ => ?_) fun _ => ?_
  · exact follows_expectKind rfl fun _ _ _ => follows_pure _
  · exact sticks_expect_bind fun _ ht => beq_kind_of_isValue (isValue_of_replaces ht) rfl

theorem mirrors_readInsert (h : r.Binds scope scope') :
    r.Mirrors (readInsert scope) (readInsert scope') := by
  have hlist : r.Mirrors readColumnList? readColumnList? := by
    refine Mirrors.bind (mirrors_consumeKind rfl) fun _ => follows_ite ?_ (follows_pure _)
    exact Mirrors.bind (mirrors_commaSeparated mirrors_qualifiedName) fun _ =>
      follows_expectKind rfl fun _ _ _ => follows_pure _
  have hsources : r.Mirrors refuseOtherSources refuseOtherSources := by
    refine mirrors_refusing (ignoresPlace fun _ _ _ _ => rfl) (fun t name hname => ?_) fun t => ?_
    · exact ⟨t.unexpected, by rw [hname]⟩
    · split
      · exact follows_pure _
      all_goals exact follows_fail _ _
  have hvalue : r.Mirrors (readValue (Expression.read scope maxNesting))
      (readValue (Expression.read scope' maxNesting)) :=
    Mirrors.bind (Expression.mirrors_read h maxNesting) fun _ => follows_ofExcept fun _ => id
  have hrow : r.Mirrors (readRow (Expression.read scope maxNesting))
      (readRow (Expression.read scope' maxNesting)) :=
    follows_expectKind rfl fun _ _ _ => Mirrors.bind (mirrors_commaSeparated hvalue) fun _ =>
      follows_expectKind rfl fun _ _ _ => follows_pure _
  refine Mirrors.bind (mirrors_consumeKeyword rfl) fun _ => ?_
  refine Mirrors.bind mirrors_qualifiedName fun _ => Mirrors.bind hlist fun _ => ?_
  exact Mirrors.bind hsources fun _ => Mirrors.bind (mirrors_commaSeparated hrow) fun _ =>
    follows_pure _

/-- A statement that is read with the parameter bound is read with the literal in its place, or it
stops before the parameter. -/
theorem follows_read (h : r.Binds scope scope') {t u : Token} (hmeaning : t.meaning = u.meaning) :
    r.Follows True (read scope t) (read scope' u) := by
  obtain ⟨kind, literal, place⟩ := t
  obtain ⟨kind', literal', place'⟩ := u
  cases hmeaning
  unfold read
  dsimp only
  split
  · refine (Query.follows_read h maxNesting).bind (fun _ => follows_pure _) fun _ => sticks_pure _
  · exact follows_readCreate
  · exact (mirrors_readInsert h).mono
  · exact follows_of_fails fun c a c' => by split <;> exact nofun
  · exact follows_fail _ _

theorem mirrors_readOption : r.Mirrors readOption readOption := by
  refine mirrors_refusing (ignoresPlace fun _ _ _ _ => rfl) (fun t name hname => ?_) fun t => ?_
  · exact ⟨t.unexpected, by simp only [Token.identifier?, hname]⟩
  split
  · exact follows_fail _ _
  · refine follows_ite ?_ (follows_fail _ _)
    refine mirrors_refusing (ignoresPlace fun _ _ _ _ => rfl) (fun t name hname => ?_) fun t => ?_
    · exact ⟨t.unexpected, by simp [Token.isKeyword, hname]⟩
    · exact follows_ite (follows_pure _) (follows_fail _ _)

end Statement
end TransactSql
