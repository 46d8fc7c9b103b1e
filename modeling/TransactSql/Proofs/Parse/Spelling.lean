/-
TransactSql.Proofs.Parse.Spelling — reading up to the spelling of names.

Two readers walk side by side over texts whose tokens differ in the case
of their letters only. `ReadsAlike R p q` says that what one of them
reads, the other one reads as well, up to spelling: both fail alike, or
both answer and `R` relates the answers; and the cursors behind are alike
again. There is one rule for each way to build a reader, and one lemma for
each reader of the grammar, which follows its definition.

The grammar meets the letters of a word in few places: when it looks up a
type, a function, a parameter, a system variable or an option. There the
words are compared without regard to case, and everywhere else names are
only passed on.
-/
import TransactSql.Proofs.Lexer.Spelling
import TransactSql.Proofs.Parse.Grammar
import TransactSql.Proofs.Statement.Spelling

namespace TransactSql

open Collation

/-! ## Cursors and tokens -/

/-- The tokens that are left are the same up to spelling, and no failure is behind them. -/
structure Cursor.Respelled (c d : Cursor) : Prop where
  tokens : List.Forall₂ Token.Respelled c.tokens d.tokens
  fault : c.fault = none
  fault' : d.fault = none
  lastLiteral : sameName c.lastLiteral d.lastLiteral = true

namespace Cursor.Respelled

variable {c d : Cursor}

theorem remaining_eq (h : c.Respelled d) : c.remaining = d.remaining := h.tokens.length_eq

/-- Both texts have ended, or both go on with a token. -/
theorem cases_tokens (h : c.Respelled d) :
    (∃ last last', c = ⟨[], none, last⟩ ∧ d = ⟨[], none, last'⟩) ∨
      ∃ t u left right last last', c = ⟨t :: left, none, last⟩ ∧ d = ⟨u :: right, none, last'⟩ ∧
        t.Respelled u ∧ Respelled ⟨left, none, t.literal⟩ ⟨right, none, u.literal⟩ := by
  obtain ⟨tokens, fault, last⟩ := c
  obtain ⟨tokens', fault', last'⟩ := d
  obtain ⟨htokens, hfault, hfault', -⟩ := h
  cases hfault
  cases hfault'
  cases htokens with
  | nil => exact .inl ⟨last, last', rfl, rfl⟩
  | cons htoken hrest =>
    exact .inr ⟨_, _, _, _, last, last', rfl, rfl, htoken, hrest, rfl, rfl,
      htoken.literal.sameName⟩

end Cursor.Respelled

/-- The function looks at nothing but the kind of a token, and not at the name of a variable. -/
structure SeesKind {β : Type} (f : Token → β) : Prop where
  kind : ∀ kind l l' p p', f ⟨kind, l, p⟩ = f ⟨kind, l', p'⟩
  parameter : ∀ a b l p, f ⟨.parameter a, l, p⟩ = f ⟨.parameter b, l, p⟩
  systemVariable : ∀ a b l p, f ⟨.systemVariable a, l, p⟩ = f ⟨.systemVariable b, l, p⟩

theorem seesKind_keyword (keyword : Keyword) : SeesKind (·.isKeyword keyword) :=
  ⟨fun _ _ _ _ _ => rfl, fun _ _ _ _ => rfl, fun _ _ _ _ => rfl⟩

theorem seesKind_operator (symbol : Char) : SeesKind (·.isOperator symbol) :=
  ⟨fun _ _ _ _ _ => rfl, fun _ _ _ _ => rfl, fun _ _ _ _ => rfl⟩

theorem seesKind_comma : SeesKind (·.kind == .comma) :=
  ⟨fun _ _ _ _ _ => rfl, fun _ _ _ _ => rfl, fun _ _ _ _ => rfl⟩

theorem seesKind_openParen : SeesKind (·.kind == .openParen) :=
  ⟨fun _ _ _ _ _ => rfl, fun _ _ _ _ => rfl, fun _ _ _ _ => rfl⟩

theorem seesKind_closeParen : SeesKind (·.kind == .closeParen) :=
  ⟨fun _ _ _ _ _ => rfl, fun _ _ _ _ => rfl, fun _ _ _ _ => rfl⟩

namespace Token.Respelled

variable {t u : Token}

theorem eq_of_seesKind {β : Type} {f : Token → β} (h : t.Respelled u) (hf : SeesKind f) :
    f t = f u := by
  obtain ⟨kind, literal, position⟩ := t
  obtain ⟨kind', literal', position'⟩ := u
  obtain ⟨hkind, -, -⟩ := h
  cases hkind with
  | refl => exact hf.kind _ _ _ _ _
  | parameter => exact (hf.parameter _ _ _ _).trans (hf.kind _ _ _ _ _)
  | systemVariable => exact (hf.systemVariable _ _ _ _).trans (hf.kind _ _ _ _ _)

theorem stop_eq (h : t.Respelled u) : t.stop = u.stop := by
  rw [stop, stop, h.position, h.literal.length_eq]

/-- The names that the tokens are have the same letters. -/
theorem identifier? (h : t.Respelled u) : Option.Rel SameLetters t.identifier? u.identifier? := by
  obtain ⟨kind, literal, position⟩ := t
  obtain ⟨kind', literal', position'⟩ := u
  obtain ⟨hkind, hliteral, -⟩ := h
  cases hkind with
  | refl kind =>
    cases kind with
    | word => exact .some hliteral
    | bracketed name => exact .some (.refl name)
    | _ => exact .none
  | _ => exact .none

theorem aliasText? (h : t.Respelled u) : Option.Rel SameLetters t.aliasText? u.aliasText? := by
  have hidentifier := h.identifier?
  obtain ⟨kind, literal, position⟩ := t
  obtain ⟨kind', literal', position'⟩ := u
  obtain ⟨hkind, -, -⟩ := h
  cases hkind with
  | refl kind =>
    cases kind with
    | quoted text _ => exact .some (.refl text)
    | _ => exact hidentifier
  | _ => exact .none

/-- If one of them cannot stand where it stands, no more can the other. -/
theorem unexpected (h : t.Respelled u) : t.unexpected.Respelled u.unexpected := by
  have hliteral := h.literal.sameName
  obtain ⟨kind, literal, position⟩ := t
  obtain ⟨kind', literal', position'⟩ := u
  obtain ⟨hkind, -, -⟩ := h
  cases hkind with
  | refl kind =>
    cases kind with
    | keyword keyword => exact .refl _
    | bracketed name => exact .refl _
    | quoted text _ => exact .refl _
    | _ => exact .incorrectSyntax hliteral
  | _ => exact .incorrectSyntax hliteral

end Token.Respelled

namespace Parse

variable {α β γ δ : Type} {R : α → β → Prop} {S : γ → δ → Prop}

/-! ## Building readers -/

/-- What the first reader reads, the second one reads as well, up to spelling. -/
def ReadsAlike (R : α → β → Prop) (p : Parse α) (q : Parse β) : Prop :=
  ∀ c d, c.Respelled d → Agree R (p.run c).1 (q.run d).1 ∧ (p.run c).2.Respelled (q.run d).2

/-- Both readings fail, or both answer. -/
theorem ReadsAlike.cases {p : Parse α} {q : Parse β} (h : ReadsAlike R p q) {c d : Cursor}
    (hc : c.Respelled d) :
    (∃ e f c' d', p.run c = (.error e, c') ∧ q.run d = (.error f, d') ∧ e.Respelled f ∧
      c'.Respelled d') ∨
    ∃ a b c' d', p.run c = (.ok a, c') ∧ q.run d = (.ok b, d') ∧ R a b ∧ c'.Respelled d' := by
  obtain ⟨hanswer, hc'⟩ := h c d hc
  rcases hp : p.run c with ⟨x, c'⟩
  rcases hq : q.run d with ⟨y, d'⟩
  rw [hp, hq] at hanswer hc'
  cases hanswer with
  | error he => exact .inl ⟨_, _, c', d', rfl, rfl, he, hc'⟩
  | ok hab => exact .inr ⟨_, _, c', d', rfl, rfl, hab, hc'⟩

theorem readsAlike_pure {a : α} {b : β} (h : R a b) : ReadsAlike R (pure a) (pure b) :=
  fun _ _ hc => ⟨.ok h, hc⟩

theorem readsAlike_fail {e f : Error} (h : e.Respelled f) : ReadsAlike R (fail e) (fail f) :=
  fun _ _ hc => ⟨.error h, hc⟩

theorem readsAlike_ofExcept {x : Except Error α} {y : Except Error β} (h : Agree R x y) :
    ReadsAlike R (ofExcept x) (ofExcept y) := by
  cases h with
  | error he => exact readsAlike_fail he
  | ok hab => exact readsAlike_pure hab

theorem readsAlike_ite {b : Bool} {p p' : Parse α} {q q' : Parse β} (hp : ReadsAlike R p q)
    (hq : ReadsAlike R p' q') : ReadsAlike R (if b then p else p') (if b then q else q') := by
  cases b
  · exact hq
  · exact hp

theorem ReadsAlike.bind {p : Parse α} {q : Parse β} {f : α → Parse γ} {g : β → Parse δ}
    (hp : ReadsAlike R p q) (hf : ∀ a b, R a b → ReadsAlike S (f a) (g b)) :
    ReadsAlike S (p >>= f) (q >>= g) := by
  intro c d hc
  rw [run_bind, run_bind]
  rcases hp.cases hc with ⟨e, e', c', d', hleft, hright, he, hc'⟩ |
    ⟨a, b, c', d', hleft, hright, hab, hc'⟩
  · rw [hleft, hright]
    exact ⟨.error he, hc'⟩
  · rw [hleft, hright]
    exact hf a b hab c' d' hc'

/-- Where the first answers are equal, the readers go on from one answer. -/
theorem ReadsAlike.bind_eq {p q : Parse α} {f : α → Parse γ} {g : α → Parse δ}
    (hp : ReadsAlike Eq p q) (hf : ∀ a, ReadsAlike S (f a) (g a)) :
    ReadsAlike S (p >>= f) (q >>= g) :=
  hp.bind fun a _ hab => hab ▸ hf a

/-! ## Reading one token -/

theorem readsAlike_expectNext {f : Token → Parse γ} {g : Token → Parse δ}
    (hf : ∀ t u, t.Respelled u → ReadsAlike S (f t) (g u)) :
    ReadsAlike S (expectNext >>= f) (expectNext >>= g) := by
  intro c d hc
  obtain ⟨last, last', rfl, rfl⟩ | ⟨t, u, left, right, last, last', rfl, rfl, htoken, hrest⟩ :=
    hc.cases_tokens
  · exact ⟨.error (.incorrectSyntax hc.lastLiteral), hc⟩
  · rw [run_expectNext_bind, run_expectNext_bind]
    exact hf t u htoken _ _ hrest

/-- The next token is read, and a variable is refused. -/
theorem readsAlike_refusing {f : Token → Parse γ}
    (hparameter : ∀ name l p, f ⟨.parameter name, l, p⟩ = fail (.incorrectSyntax l))
    (hsystem : ∀ name l p, f ⟨.systemVariable name, l, p⟩ = fail (.incorrectSyntax l))
    {R : γ → γ → Prop}
    (hf : ∀ t u, t.Respelled u → t.kind = u.kind → ReadsAlike R (f t) (f u)) :
    ReadsAlike R (expectNext >>= f) (expectNext >>= f) := by
  refine readsAlike_expectNext fun t u htoken => ?_
  have hsame := hf t u htoken
  have hliteral := htoken.literal.sameName
  obtain ⟨kind, literal, position⟩ := t
  obtain ⟨kind', literal', position'⟩ := u
  obtain ⟨hkind, -, -⟩ := htoken
  cases hkind with
  | refl => exact hsame rfl
  | parameter =>
    rw [hparameter, hparameter]
    exact readsAlike_fail (.incorrectSyntax hliteral)
  | systemVariable =>
    rw [hsystem, hsystem]
    exact readsAlike_fail (.incorrectSyntax hliteral)

theorem readsAlike_nextIf {p q : Token → Bool} {f : Option Token → Parse γ}
    {g : Option Token → Parse δ} (htest : ∀ t u, t.Respelled u → p t = q u)
    (hsome : ∀ t u, t.Respelled u → ReadsAlike S (f (some t)) (g (some u)))
    (hnone : ReadsAlike S (f none) (g none)) : ReadsAlike S (nextIf p >>= f) (nextIf q >>= g) := by
  intro c d hc
  obtain ⟨last, last', rfl, rfl⟩ | ⟨t, u, left, right, last, last', rfl, rfl, htoken, hrest⟩ :=
    hc.cases_tokens
  · exact hnone _ _ hc
  · rw [run_nextIf_bind, run_nextIf_bind, htest t u htoken]
    split
    · exact hsome t u htoken _ _ hrest
    · exact hnone _ _ hc

theorem readsAlike_peek {f : Option Token → Parse γ} {g : Option Token → Parse δ}
    (hsome : ∀ t u, t.Respelled u → ReadsAlike S (f (some t)) (g (some u)))
    (hnone : ReadsAlike S (f none) (g none)) : ReadsAlike S (peek >>= f) (peek >>= g) := by
  intro c d hc
  obtain ⟨last, last', rfl, rfl⟩ | ⟨t, u, left, right, last, last', rfl, rfl, htoken, -⟩ :=
    hc.cases_tokens
  · exact hnone _ _ hc
  · rw [run_peek_bind, run_peek_bind]
    exact hsome t u htoken _ _ hc

theorem readsAlike_peekIs {p : Token → Bool} (h : SeesKind p) :
    ReadsAlike Eq (peekIs p) (peekIs p) :=
  readsAlike_peek (fun _ _ htoken => readsAlike_pure (htoken.eq_of_seesKind h))
    (readsAlike_pure rfl)

theorem readsAlike_consume {p q : Token → Bool} (h : ∀ t u, t.Respelled u → p t = q u) :
    ReadsAlike Eq (consume p) (consume q) :=
  readsAlike_nextIf h (fun _ _ _ => readsAlike_pure rfl) (readsAlike_pure rfl)

theorem readsAlike_consumeKind {kind : TokenKind} (h : SeesKind (·.kind == kind)) :
    ReadsAlike Eq (consumeKind kind) (consumeKind kind) :=
  readsAlike_consume fun _ _ htoken => htoken.eq_of_seesKind h

theorem readsAlike_consumeKeyword (keyword : Keyword) :
    ReadsAlike Eq (consumeKeyword keyword) (consumeKeyword keyword) :=
  readsAlike_consume fun _ _ htoken => htoken.eq_of_seesKind (seesKind_keyword keyword)

theorem readsAlike_consumeAdjacent {t u : Token} (h : t.Respelled u) (symbol : Char) :
    ReadsAlike Eq (consumeAdjacent t symbol) (consumeAdjacent u symbol) :=
  readsAlike_consume fun _ _ htoken => by
    rw [htoken.eq_of_seesKind (seesKind_operator symbol), htoken.position, h.stop_eq]

theorem readsAlike_expect {p : Token → Bool} (h : SeesKind p) :
    ReadsAlike Token.Respelled (expect p) (expect p) := by
  refine readsAlike_expectNext fun t u htoken => ?_
  rw [htoken.eq_of_seesKind h]
  exact readsAlike_ite (readsAlike_pure htoken) (readsAlike_fail htoken.unexpected)

theorem readsAlike_expectText {text? : Token → Option String}
    (h : ∀ t u, t.Respelled u → Option.Rel SameLetters (text? t) (text? u)) :
    ReadsAlike SameLetters (expectText text?) (expectText text?) := by
  refine readsAlike_expectNext fun t u htoken => ?_
  rcases rel_option_cases (h t u htoken) with ⟨ht, hu⟩ | ⟨a, b, ht, hu, hletters⟩ <;> rw [ht, hu]
  · exact readsAlike_fail htoken.unexpected
  · exact readsAlike_pure hletters

theorem readsAlike_expectIdentifier :
    ReadsAlike SameLetters expectIdentifier expectIdentifier :=
  readsAlike_expectText fun _ _ htoken => htoken.identifier?

theorem readsAlike_expectAlias : ReadsAlike SameLetters expectAlias expectAlias :=
  readsAlike_expectText fun _ _ htoken => htoken.aliasText?

theorem readsAlike_nextText? {text? : Token → Option String}
    (h : ∀ t u, t.Respelled u → Option.Rel SameLetters (text? t) (text? u)) :
    ReadsAlike (Option.Rel SameLetters) (nextText? text?) (nextText? text?) :=
  readsAlike_nextIf (fun t u htoken => isSome_eq_of_rel (h t u htoken))
    (fun t u htoken => readsAlike_pure (h t u htoken)) (readsAlike_pure .none)

/-! ## Reading sequences -/

theorem readsAlike_separatedNumbered {separator : Parse Bool} {item : Nat → Parse α}
    {item' : Nat → Parse β} (hseparator : ReadsAlike Eq separator separator)
    (hitem : ∀ place, ReadsAlike R (item place) (item' place)) :
    ReadsAlike (fun a b => R a.1 b.1 ∧ List.Forall₂ R a.2 b.2) (separatedNumbered separator item)
      (separatedNumbered separator item') := by
  have hround : ∀ place, ReadsAlike (fun a b => R a.1 b.1 ∧ a.2 = b.2)
      (round separator (item place)) (round separator (item' place)) := fun place =>
    (hitem place).bind fun _ _ hfirst => hseparator.bind_eq fun _ => readsAlike_pure ⟨hfirst, rfl⟩
  suffices h : ∀ place c d, c.Respelled d →
      Agree (fun a b => R a.1 b.1 ∧ List.Forall₂ R a.2 b.2)
        (runSeparated separator item place c).1 (runSeparated separator item' place d).1 ∧
      (runSeparated separator item place c).2.Respelled (runSeparated separator item' place d).2
    from h 0
  intro place c
  induction hn : c.remaining using Nat.strongRecOn generalizing place c with
  | ind n ih =>
    intro d hc
    rw [runSeparated_eq, runSeparated_eq]
    rcases (hround place).cases hc with ⟨e, f, c₁, d₁, hleft, hright, he, h₁⟩ |
      ⟨⟨first, goesOn⟩, ⟨first', goesOn'⟩, c₁, d₁, hleft, hright, ⟨hfirst, hgoesOn⟩, h₁⟩
    · rw [hleft, hright]
      exact ⟨.error he, h₁⟩
    cases hgoesOn
    simp only [hleft, hright, ← h₁.remaining_eq, ← hc.remaining_eq]
    split
    · next hmore =>
      obtain ⟨hanswer, h₂⟩ := ih _ (hn ▸ hmore.2) (place + 1) c₁ rfl d₁ h₁
      rcases hc₂ : runSeparated separator item (place + 1) c₁ with ⟨x, c₂⟩
      rcases hd₂ : runSeparated separator item' (place + 1) d₁ with ⟨y, d₂⟩
      rw [hc₂, hd₂] at hanswer h₂
      cases hanswer with
      | error he => exact ⟨.error he, h₂⟩
      | ok hxs => exact ⟨.ok ⟨hfirst, .cons hxs.1 hxs.2⟩, h₂⟩
    · exact ⟨.ok ⟨hfirst, .nil⟩, h₁⟩

theorem readsAlike_commaSeparated {item : Parse α} {item' : Parse β}
    (hitem : ReadsAlike R item item') :
    ReadsAlike (List.Forall₂ R) (commaSeparated item) (commaSeparated item') :=
  (readsAlike_separatedNumbered (readsAlike_consumeKind seesKind_comma) fun _ => hitem).bind
    fun _ _ hitems => readsAlike_pure (.cons hitems.1 hitems.2)

theorem readsAlike_qualifiedName : ReadsAlike SameNames qualifiedName qualifiedName := by
  have hdot : ReadsAlike Eq (consume (·.isOperator '.')) (consume (·.isOperator '.')) :=
    readsAlike_consume fun _ _ htoken => htoken.eq_of_seesKind (seesKind_operator '.')
  refine (readsAlike_separatedNumbered hdot fun _ => readsAlike_expectIdentifier).bind ?_
  intro _ _ hparts
  exact readsAlike_pure (.cons hparts.1.sameName (hparts.2.imp fun _ _ h => h.sameName))

end Parse

open Parse

/-! ## Scopes -/

variable {scope : Scope}

/-- A parameter is found under every spelling of its name. -/
theorem Scope.parameter_respelled (hscope : scope.parameters.collation.IgnoresCase) {a b : String}
    (h : SameLetters a b) : Agree Eq (scope.parameter a) (scope.parameter b) := by
  unfold Scope.parameter
  rw [CollatedMap.get?_congr hscope.lawful (hscope.equals a b h)]
  split
  · exact .ok rfl
  · exact .error (.mustDeclareScalarVariable h.sameName)

theorem Scope.systemVariable_respelled (hscope : scope.parameters.collation.IgnoresCase)
    {a b : String} (h : SameLetters a b) :
    Agree Eq (scope.systemVariable a) (scope.systemVariable b) := by
  have hequals : ∀ name, scope.parameters.collation.equals a name =
      scope.parameters.collation.equals b name := fun name =>
    hscope.lawful.equals_congr (hscope.equals a b h) (hscope.lawful.refl name)
  unfold Scope.systemVariable
  dsimp only
  rw [hequals, hequals]
  split
  · exact .ok rfl
  · split
    · exact .ok rfl
    · exact .error (.systemVariable h.sameName)

/-! ## Expressions -/

/-- A function is found under every spelling of its name. -/
theorem BuiltIn.ofName?_respelled {a b : String} (h : sameName a b = true) :
    ofName? a = ofName? b := by
  have hsame : ∀ function : BuiltIn, sameName function.name a = sameName function.name b :=
    fun function => sameName_congr (sameName_refl _) h
  simp only [ofName?, hsame]

namespace Expression

abbrev SameExpression : Parse Expression → Parse Expression → Prop :=
  ReadsAlike Expression.Respelled

theorem readsAlike_nextOperator? : ReadsAlike Eq nextOperator? nextOperator? := by
  have hsees : SeesKind Token.arithmeticOperator? :=
    ⟨fun _ _ _ _ _ => rfl, fun _ _ _ _ => rfl, fun _ _ _ _ => rfl⟩
  refine readsAlike_nextIf (fun t u htoken => ?_) (fun t u htoken => ?_) (readsAlike_pure rfl)
  · rw [htoken.eq_of_seesKind hsees]
  · exact readsAlike_pure (htoken.eq_of_seesKind hsees)

variable {below : Readers}

theorem readsAlike_readArguments
    (hbelow : SameExpression (below.expression false) (below.expression false)) :
    ReadsAlike (List.Forall₂ Expression.Respelled) (readArguments below) (readArguments below) := by
  refine (readsAlike_expect seesKind_openParen).bind fun _ _ _ => ?_
  refine (readsAlike_consumeKind seesKind_closeParen).bind_eq fun _ => ?_
  refine readsAlike_ite (readsAlike_pure .nil) ?_
  exact (readsAlike_commaSeparated hbelow).bind fun _ _ harguments =>
    (readsAlike_expect seesKind_closeParen).bind fun _ _ _ => readsAlike_pure harguments

theorem readsAlike_readCall
    (hbelow : SameExpression (below.expression false) (below.expression false))
    {name name' : QualifiedName} (hname : SameNames name name') :
    SameExpression (readCall below name) (readCall below name') := by
  unfold readCall
  rw [BuiltIn.ofName?_respelled hname.toText]
  split
  · exact readsAlike_fail (.unknownFunction hname.toText)
  · rename_i function _
    refine (readsAlike_readArguments hbelow).bind fun arguments arguments' h => ?_
    cases h with
    | nil => exact readsAlike_fail (.refl _)
    | cons hargument hmore =>
      cases hmore with
      | nil => exact readsAlike_pure (.call function hargument)
      | cons _ _ => exact readsAlike_fail (.refl _)

theorem readsAlike_readName
    (hbelow : SameExpression (below.expression false) (below.expression false))
    {first first' : String} (hfirst : SameLetters first first') :
    SameExpression (readName below first) (readName below first') := by
  have hrest : ∀ more more', SameNames more more' → SameExpression
      (peekIs (·.kind == .openParen) >>= fun isCall =>
        if isCall then readCall below (first :: more) else pure (.reference (first :: more)))
      (peekIs (·.kind == .openParen) >>= fun isCall =>
        if isCall then readCall below (first' :: more')
        else pure (.reference (first' :: more'))) := by
    intro more more' hmore
    have hname : SameNames (first :: more) (first' :: more') := .cons hfirst.sameName hmore
    exact (readsAlike_peekIs seesKind_openParen).bind_eq fun _ =>
      readsAlike_ite (readsAlike_readCall hbelow hname) (readsAlike_pure (.reference hname))
  have hdot : ReadsAlike Eq (consume (·.isOperator '.')) (consume (·.isOperator '.')) :=
    readsAlike_consume fun _ _ htoken => htoken.eq_of_seesKind (seesKind_operator '.')
  refine hdot.bind_eq fun _ => readsAlike_ite ?_ ?_
  · exact readsAlike_qualifiedName.bind hrest
  · exact (readsAlike_pure .nil).bind hrest

theorem readsAlike_readOperand (hscope : scope.parameters.collation.IgnoresCase)
    (hbelow : SameExpression (below.expression false) (below.expression false))
    (hsigned : SameExpression below.signed below.signed) :
    SameExpression (readOperand scope below) (readOperand scope below) := by
  refine readsAlike_expectNext fun t u htoken => ?_
  have hunexpected := htoken.unexpected
  obtain ⟨kind, literal, position⟩ := t
  obtain ⟨kind', literal', position'⟩ := u
  obtain ⟨hkind, hliteral, -⟩ := htoken
  cases hkind with
  | parameter hname =>
    exact (readsAlike_ofExcept (Scope.parameter_respelled hscope hname)).bind_eq fun v =>
      readsAlike_pure (.value v)
  | systemVariable hname =>
    exact (readsAlike_ofExcept (Scope.systemVariable_respelled hscope hname)).bind_eq fun v =>
      readsAlike_pure (.value v)
  | refl =>
    dsimp only
    split
    · exact readsAlike_pure (.value _)
    · exact readsAlike_pure (.value _)
    · exact readsAlike_pure (.value _)
    · exact (readsAlike_ofExcept (.refl _)).bind_eq fun v => readsAlike_pure (.value v)
    · exact (readsAlike_ofExcept (.refl _)).bind_eq fun v => readsAlike_pure (.value v)
    · exact hsigned.bind fun _ _ h => readsAlike_pure (.negative h)
    · exact hsigned
    · exact hbelow.bind fun _ _ h => (readsAlike_expect seesKind_closeParen).bind fun _ _ _ =>
        readsAlike_pure (.parenthesized h)
    · exact readsAlike_readName hbelow hliteral
    · exact readsAlike_readName hbelow (.refl _)
    · exact readsAlike_fail hunexpected

theorem readsAlike_readExpression {operand : Parse Expression} {rest : Bool → Parse Expression}
    (hoperand : SameExpression operand operand)
    (hrest : ∀ aliased, SameExpression (rest aliased) (rest aliased)) (aliased : Bool) :
    SameExpression (readExpression operand rest aliased) (readExpression operand rest aliased) := by
  refine hoperand.bind fun left left' hleft => ?_
  have hafter : ∀ isNamed, SameExpression (readAfter (rest aliased) left isNamed)
      (readAfter (rest aliased) left' isNamed) := by
    intro isNamed
    refine readsAlike_ite ?_ ?_
    · exact readsAlike_expectAlias.bind fun _ _ hname =>
        readsAlike_pure (.named hleft hname.sameName)
    · refine readsAlike_nextOperator?.bind_eq fun op => ?_
      cases op with
      | none => exact readsAlike_pure hleft
      | some op =>
        exact (hrest aliased).bind fun _ _ hright => readsAlike_pure (hleft.join op hright)
  cases aliased with
  | true => exact (readsAlike_consumeKeyword .AS).bind_eq hafter
  | false => exact (readsAlike_pure rfl).bind_eq hafter

theorem readsAlike_readers (hscope : scope.parameters.collation.IgnoresCase) (levels : Nat) :
    (∀ aliased, SameExpression ((readers scope levels).expression aliased)
      ((readers scope levels).expression aliased)) ∧
      SameExpression (readers scope levels).signed (readers scope levels).signed := by
  induction levels with
  | zero => exact ⟨fun _ => readsAlike_fail (.refl _), readsAlike_fail (.refl _)⟩
  | succ levels ih =>
    have hoperand := readsAlike_readOperand hscope (ih.1 false) ih.2
    exact ⟨readsAlike_readExpression hoperand ih.1, hoperand⟩

theorem readsAlike_read (hscope : scope.parameters.collation.IgnoresCase) (levels : Nat) :
    SameExpression (read scope levels) (read scope levels) :=
  (readsAlike_readers hscope levels).1 false

theorem readsAlike_readAliased (hscope : scope.parameters.collation.IgnoresCase) (levels : Nat) :
    SameExpression (readAliased scope levels) (readAliased scope levels) :=
  (readsAlike_readers hscope levels).1 true

end Expression

/-! ## Conditions -/

namespace Predicate

theorem readsAlike_readOperator : ReadsAlike Eq readOperator readOperator := by
  refine readsAlike_refusing (fun _ _ _ => rfl) (fun _ _ _ => rfl) fun t u htoken hkind => ?_
  have hadjacent := readsAlike_consumeAdjacent htoken
  have hanswer : ∀ op : ComparisonOperator, ReadsAlike Eq (pure op) (pure op) :=
    fun _ => readsAlike_pure rfl
  rw [hkind]
  split
  · exact hanswer _
  · refine (hadjacent '>').bind_eq fun _ => readsAlike_ite (hanswer _) ?_
    exact (hadjacent '=').bind_eq fun _ => readsAlike_ite (hanswer _) (hanswer _)
  · exact (hadjacent '=').bind_eq fun _ => readsAlike_ite (hanswer _) (hanswer _)
  · refine (hadjacent '=').bind_eq fun _ => readsAlike_ite (hanswer _) ?_
    refine (hadjacent '<').bind_eq fun _ => readsAlike_ite (hanswer _) ?_
    exact (hadjacent '>').bind_eq fun _ =>
      readsAlike_ite (hanswer _) (readsAlike_fail htoken.unexpected)
  · exact readsAlike_fail htoken.unexpected

/-- Conditions that are joined from the left are joined alike. -/
theorem foldl_respelled {join : Predicate → Predicate → Predicate}
    (hjoin : ∀ p q p' q', Respelled p q → Respelled p' q' → Respelled (join p p') (join q q'))
    {first first' : Predicate} (hfirst : first.Respelled first') {more more' : List Predicate}
    (hmore : List.Forall₂ Respelled more more') :
    (more.foldl join first).Respelled (more'.foldl join first') := by
  induction hmore generalizing first first' with
  | nil => exact hfirst
  | cons hnext _ ih => exact ih (hjoin _ _ _ _ hfirst hnext)

theorem readsAlike_readComparison {expression : Parse Expression}
    (h : Expression.SameExpression expression expression) :
    ReadsAlike Respelled (readComparison expression) (readComparison expression) :=
  h.bind fun _ _ hleft => readsAlike_readOperator.bind_eq fun op => h.bind fun _ _ hright =>
    readsAlike_pure (.comparison op hleft hright)

theorem readsAlike_read (hscope : scope.parameters.collation.IgnoresCase) (levels : Nat) :
    ReadsAlike Respelled (read scope levels) (read scope levels) := by
  have hcomparison := readsAlike_readComparison (Expression.readsAlike_read hscope levels)
  have hconjunction : ReadsAlike Respelled (readConjunction (Expression.read scope levels))
      (readConjunction (Expression.read scope levels)) :=
    (readsAlike_separatedNumbered (readsAlike_consumeKeyword .AND) fun _ => hcomparison).bind
      fun _ _ h => readsAlike_pure (foldl_respelled (fun _ _ _ _ => .and) h.1 h.2)
  exact (readsAlike_separatedNumbered (readsAlike_consumeKeyword .OR) fun _ => hconjunction).bind
    fun _ _ h => readsAlike_pure (foldl_respelled (fun _ _ _ _ => .or) h.1 h.2)

end Predicate

/-! ## Queries -/

namespace Query

theorem limitLookup_respelled : Lookup.Respelled limitLookup limitLookup :=
  fun _ _ hname => .error (.topColumnReference hname.last)

theorem readsAlike_readLimitExpression (hscope : scope.parameters.collation.IgnoresCase)
    (levels : Nat) : Expression.SameExpression (readLimitExpression scope levels)
      (readLimitExpression scope levels) := by
  refine (readsAlike_consumeKind seesKind_openParen).bind_eq fun _ => readsAlike_ite ?_ ?_
  · exact (Expression.readsAlike_read hscope levels).bind fun _ _ h =>
      (readsAlike_expect seesKind_closeParen).bind fun _ _ _ => readsAlike_pure h
  · refine readsAlike_expectNext fun t u htoken => ?_
    have hunexpected := htoken.unexpected
    obtain ⟨kind, literal, position⟩ := t
    obtain ⟨kind', literal', position'⟩ := u
    obtain ⟨hkind, -, -⟩ := htoken
    cases hkind with
    | parameter hname =>
      exact (readsAlike_ofExcept (Scope.parameter_respelled hscope hname)).bind_eq fun v =>
        readsAlike_pure (.value v)
    | systemVariable => exact readsAlike_fail hunexpected
    | refl =>
      dsimp only
      split
      · exact readsAlike_pure (.value _)
      · exact (readsAlike_ofExcept (.refl _)).bind_eq fun v => readsAlike_pure (.value v)
      · exact readsAlike_fail hunexpected

theorem readsAlike_readLimit? (hscope : scope.parameters.collation.IgnoresCase) (levels : Nat) :
    ReadsAlike Eq (readLimit? scope levels) (readLimit? scope levels) := by
  refine (readsAlike_consumeKeyword .TOP).bind_eq fun _ => readsAlike_ite ?_ (readsAlike_pure rfl)
  refine (readsAlike_readLimitExpression hscope levels).bind fun _ _ h => ?_
  have hlimit := (h.eval limitLookup_respelled).bind_eq fun v => Agree.refl (limitOf v)
  exact (readsAlike_ofExcept hlimit).bind_eq fun _ => readsAlike_pure rfl

theorem readsAlike_readItem (hscope : scope.parameters.collation.IgnoresCase) (levels : Nat) :
    ReadsAlike SelectItem.Respelled (readItem scope levels) (readItem scope levels) := by
  have hstar : ReadsAlike Eq (consume (·.isOperator '*')) (consume (·.isOperator '*')) :=
    readsAlike_consume fun _ _ htoken => htoken.eq_of_seesKind (seesKind_operator '*')
  refine hstar.bind_eq fun _ => readsAlike_ite (readsAlike_pure .wildcard) ?_
  refine (Expression.readsAlike_readAliased hscope levels).bind fun e f h => ?_
  rw [h.isNamed_eq]
  refine readsAlike_ite (readsAlike_pure (.expression h)) ?_
  refine (readsAlike_nextText? fun _ _ htoken => htoken.aliasText?).bind fun _ _ hname => ?_
  cases hname with
  | none => exact readsAlike_pure (.expression h)
  | some hname => exact readsAlike_pure (.expression (.named h hname.sameName))

theorem readsAlike_readSourceAlias? :
    ReadsAlike (Option.Rel SameLetters) readSourceAlias? readSourceAlias? :=
  (readsAlike_consumeKeyword .AS).bind_eq fun _ => readsAlike_ite
    (readsAlike_expectIdentifier.bind fun _ _ hname => readsAlike_pure (.some hname))
    (readsAlike_nextText? fun _ _ htoken => htoken.identifier?)

theorem readsAlike_readSource {derived : Parse Query}
    (hderived : ReadsAlike Respelled derived derived) :
    ReadsAlike Source.Respelled (readSource derived) (readSource derived) := by
  have hsingle : ReadsAlike Source.Respelled (readSource.readSingle derived)
      (readSource.readSingle derived) := by
    refine (readsAlike_consumeKind seesKind_openParen).bind_eq fun _ => readsAlike_ite ?_ ?_
    · refine (readsAlike_expect (seesKind_keyword .SELECT)).bind fun _ _ _ => ?_
      refine hderived.bind fun _ _ hquery => ?_
      refine (readsAlike_expect seesKind_closeParen).bind fun close close' hclose => ?_
      refine readsAlike_readSourceAlias?.bind fun _ _ hname => ?_
      cases hname with
      | none => exact readsAlike_fail hclose.unexpected
      | some hname => exact readsAlike_pure (.derived hquery.select hquery.source hname.sameName)
    · exact readsAlike_qualifiedName.bind fun _ _ hname =>
        readsAlike_readSourceAlias?.bind fun _ _ _ => readsAlike_pure (.table hname _ _)
  have hjoin : SeesKind beginsJoin :=
    ⟨fun _ _ _ _ _ => rfl, fun _ _ _ _ => rfl, fun _ _ _ _ => rfl⟩
  exact hsingle.bind fun _ _ hsource => (readsAlike_peekIs hjoin).bind_eq fun _ =>
    readsAlike_ite (readsAlike_fail (.refl _)) (readsAlike_pure hsource)

theorem readsAlike_refuseClause : ReadsAlike Eq refuseClause refuseClause := by
  have hsees : SeesKind refusedClause? :=
    ⟨fun _ _ _ _ _ => rfl, fun _ _ _ _ => rfl, fun _ _ _ _ => rfl⟩
  refine readsAlike_peek (fun t u htoken => ?_) (readsAlike_pure rfl)
  simp only [Option.bind_some, htoken.eq_of_seesKind hsees]
  split
  · exact readsAlike_fail (.refl _)
  · exact readsAlike_pure rfl

theorem readsAlike_readQuery (hscope : scope.parameters.collation.IgnoresCase) (levels : Nat)
    {derived : Parse Query} (hderived : ReadsAlike Respelled derived derived) :
    ReadsAlike Respelled (readQuery scope levels derived) (readQuery scope levels derived) := by
  have hquantifier : ReadsAlike Eq refuseQuantifier refuseQuantifier :=
    (readsAlike_peekIs ⟨fun _ _ _ _ _ => rfl, fun _ _ _ _ => rfl, fun _ _ _ _ => rfl⟩).bind_eq
      fun _ => readsAlike_ite (readsAlike_fail (.refl _)) (readsAlike_pure rfl)
  have hfilter : ReadsAlike (Option.Rel Predicate.Respelled) (readQuery.readFilter? scope levels)
      (readQuery.readFilter? scope levels) :=
    (readsAlike_consumeKeyword .WHERE).bind_eq fun _ => readsAlike_ite
      ((Predicate.readsAlike_read hscope levels).bind fun _ _ h => readsAlike_pure (.some h))
      (readsAlike_pure .none)
  refine hquantifier.bind_eq fun _ => ?_
  refine (readsAlike_readLimit? hscope levels).bind_eq fun limit => ?_
  refine (readsAlike_commaSeparated (readsAlike_readItem hscope levels)).bind
    fun items items' hitems => ?_
  have hwildcard : items.any (·.isWildcard) = items'.any (·.isWildcard) :=
    any_eq_of_forall₂ hitems fun _ _ hitem => hitem.isWildcard_eq
  have hrest : ∀ source source', Source.Respelled source source' → ReadsAlike Respelled
      (readQuery.readFilter? scope levels >>= fun filter => refuseClause >>= fun _ =>
        pure (⟨⟨limit, items, filter⟩, source⟩ : Query))
      (readQuery.readFilter? scope levels >>= fun filter => refuseClause >>= fun _ =>
        pure (⟨⟨limit, items', filter⟩, source'⟩ : Query)) := fun _ _ hsource =>
    hfilter.bind fun _ _ hfilter => readsAlike_refuseClause.bind_eq fun _ =>
      readsAlike_pure ⟨⟨rfl, hitems, hfilter⟩, hsource⟩
  refine (readsAlike_consumeKeyword .FROM).bind_eq fun _ => readsAlike_ite ?_ ?_
  · refine (readsAlike_readSource hderived).bind fun source source' hsource => ?_
    rw [hwildcard]
    cases hsource with
    | unit => exact readsAlike_ite (readsAlike_fail (.refl _)) (hrest _ _ .unit)
    | table hname a b =>
      exact readsAlike_ite (readsAlike_fail (.refl _)) (hrest _ _ (.table hname a b))
    | derived hselect hsource hname =>
      exact readsAlike_ite (readsAlike_fail (.refl _)) (hrest _ _ (.derived hselect hsource hname))
  · rw [Parse.pure_bind, Parse.pure_bind, hwildcard]
    exact readsAlike_ite (readsAlike_fail (.refl _)) (hrest _ _ .unit)

theorem readsAlike_read (hscope : scope.parameters.collation.IgnoresCase) (levels : Nat) :
    ReadsAlike Respelled (read scope levels) (read scope levels) := by
  induction levels with
  | zero => exact readsAlike_readQuery hscope 0 (readsAlike_fail (.refl _))
  | succ levels ih => exact readsAlike_readQuery hscope (levels + 1) ih

end Query

/-! ## Statements -/

namespace Statement

theorem readsAlike_readTypeArguments : ReadsAlike Eq readTypeArguments readTypeArguments := by
  have hargument : ReadsAlike Eq readTypeArgument readTypeArgument := by
    refine readsAlike_refusing (fun _ _ _ => rfl) (fun _ _ _ => rfl) fun t u htoken hkind => ?_
    rw [hkind, htoken.literal.map_toLower_eq]
    split
    · exact readsAlike_pure rfl
    · exact readsAlike_ite (readsAlike_pure rfl) (readsAlike_fail htoken.unexpected)
    · exact readsAlike_fail htoken.unexpected
  refine (readsAlike_consumeKind seesKind_openParen).bind_eq fun _ =>
    readsAlike_ite ?_ (readsAlike_pure rfl)
  exact (readsAlike_commaSeparated hargument).bind fun _ _ _ =>
    (readsAlike_expect seesKind_closeParen).bind fun _ _ _ => readsAlike_pure rfl

theorem readsAlike_readNullable : ReadsAlike Eq readNullable readNullable := by
  refine (readsAlike_consumeKeyword .NOT).bind_eq fun _ => readsAlike_ite ?_ ?_
  · exact (readsAlike_expect (seesKind_keyword .NULL)).bind fun _ _ _ => readsAlike_pure rfl
  · exact (readsAlike_consumeKeyword .NULL).bind_eq fun _ => readsAlike_pure rfl

theorem readsAlike_readColumn (ordinal : Nat) :
    ReadsAlike Column.Respelled (readColumn ordinal) (readColumn ordinal) := by
  refine readsAlike_expectIdentifier.bind fun name name' hname => ?_
  refine readsAlike_expectIdentifier.bind fun typeName typeName' htype => ?_
  rw [htype.ofName?_eq]
  split
  · exact readsAlike_fail (.unknownDataType ordinal htype.sameName)
  · refine readsAlike_readTypeArguments.bind_eq fun _ => ?_
    refine readsAlike_readNullable.bind_eq fun nullable => ?_
    have hconstraint : SeesKind beginsConstraint :=
      ⟨fun _ _ _ _ _ => rfl, fun _ _ _ _ => rfl, fun _ _ _ _ => rfl⟩
    exact (readsAlike_peekIs hconstraint).bind_eq fun _ =>
      readsAlike_ite (readsAlike_fail (.refl _)) (readsAlike_pure ⟨hname.sameName, rfl, rfl⟩)

theorem readsAlike_readColumns :
    ReadsAlike Table.SameColumns readColumns readColumns :=
  (readsAlike_separatedNumbered (readsAlike_consumeKind seesKind_comma)
    fun place => readsAlike_readColumn (place + 1)).bind
    fun _ _ h => readsAlike_pure (.cons h.1 h.2)

theorem readsAlike_refuseOtherKinds : ReadsAlike Eq refuseOtherKinds refuseOtherKinds := by
  refine readsAlike_refusing (fun _ _ _ => rfl) (fun _ _ _ => rfl) fun t u htoken hkind => ?_
  rw [hkind, htoken.literal.map_toUpper_eq]
  split
  · exact readsAlike_pure rfl
  · exact readsAlike_fail (.refl _)
  · exact readsAlike_fail (.refl _)
  · exact readsAlike_fail htoken.unexpected

theorem readsAlike_readCreate : ReadsAlike Respelled readCreate readCreate := by
  refine readsAlike_refuseOtherKinds.bind_eq fun _ => ?_
  refine readsAlike_qualifiedName.bind fun _ _ hname => ?_
  refine (readsAlike_expect seesKind_openParen).bind fun _ _ _ => ?_
  refine readsAlike_readColumns.bind fun _ _ hcolumns => ?_
  exact (readsAlike_expect seesKind_closeParen).bind fun _ _ _ =>
    readsAlike_pure (.createTable hname.last hcolumns)

theorem readsAlike_readColumnList? :
    ReadsAlike (Option.Rel SameNames) readColumnList? readColumnList? := by
  refine (readsAlike_consumeKind seesKind_openParen).bind_eq fun _ =>
    readsAlike_ite ?_ (readsAlike_pure .none)
  refine (readsAlike_commaSeparated readsAlike_qualifiedName).bind fun _ _ hnames => ?_
  exact (readsAlike_expect seesKind_closeParen).bind fun _ _ _ =>
    readsAlike_pure (.some (List.rel_map (fun _ _ hname => hname.last) hnames))

theorem readsAlike_refuseOtherSources : ReadsAlike Eq refuseOtherSources refuseOtherSources := by
  refine readsAlike_refusing (fun _ _ _ => rfl) (fun _ _ _ => rfl) fun t u htoken hkind => ?_
  rw [hkind]
  split
  · exact readsAlike_pure rfl
  · exact readsAlike_fail (.refl _)
  · exact readsAlike_fail (.refl _)
  · exact readsAlike_fail (.refl _)
  · exact readsAlike_fail (.refl _)
  · exact readsAlike_fail htoken.unexpected

theorem readsAlike_readRow {expression : Parse Expression}
    (h : Expression.SameExpression expression expression) :
    ReadsAlike Eq (readRow expression) (readRow expression) := by
  have hvalue : ReadsAlike Eq (readValue expression) (readValue expression) :=
    h.bind fun _ _ he => readsAlike_ofExcept (he.eval Lookup.noRow_respelled)
  refine (readsAlike_expect seesKind_openParen).bind fun _ _ _ => ?_
  refine (readsAlike_commaSeparated hvalue).bind fun values values' hvalues => ?_
  rw [List.forall₂_eq_eq_eq] at hvalues
  exact (readsAlike_expect seesKind_closeParen).bind fun _ _ _ => readsAlike_pure hvalues

theorem readsAlike_readInsert (hscope : scope.parameters.collation.IgnoresCase) :
    ReadsAlike Respelled (readInsert scope) (readInsert scope) := by
  refine (readsAlike_consumeKeyword .INTO).bind_eq fun _ => ?_
  refine readsAlike_qualifiedName.bind fun _ _ hname => ?_
  refine readsAlike_readColumnList?.bind fun _ _ hnames => ?_
  refine readsAlike_refuseOtherSources.bind_eq fun _ => ?_
  have hrow := readsAlike_readRow (Expression.readsAlike_read hscope maxNesting)
  refine (readsAlike_commaSeparated hrow).bind fun rows rows' hrows => ?_
  rw [List.forall₂_eq_eq_eq] at hrows
  exact readsAlike_pure (hrows ▸ .insert hname.last hnames rows)

/-- The rest of a statement is read alike behind tokens that begin it alike. -/
theorem readsAlike_read (hscope : scope.parameters.collation.IgnoresCase) {t u : Token}
    (htoken : t.Respelled u) : ReadsAlike Respelled (read scope t) (read scope u) := by
  have hunexpected := htoken.unexpected
  obtain ⟨kind, literal, position⟩ := t
  obtain ⟨kind', literal', position'⟩ := u
  obtain ⟨hkind, -, -⟩ := htoken
  unfold read
  cases hkind with
  | parameter => exact readsAlike_fail hunexpected
  | systemVariable => exact readsAlike_fail hunexpected
  | refl =>
    dsimp only
    split
    · exact (Query.readsAlike_read hscope maxNesting).bind fun _ _ h => readsAlike_pure (.select h)
    · exact readsAlike_readCreate
    · exact readsAlike_readInsert hscope
    · exact readsAlike_ite (readsAlike_fail (.refl _)) (readsAlike_fail hunexpected)
    · exact readsAlike_fail hunexpected

theorem readsAlike_readOption : ReadsAlike Eq readOption readOption := by
  refine readsAlike_expectNext fun t u htoken => ?_
  rcases rel_option_cases htoken.identifier? with ⟨ht, hu⟩ | ⟨a, b, ht, hu, hname⟩ <;> rw [ht, hu]
  · exact readsAlike_fail htoken.unexpected
  have hknown : sessionOptions.any (sameName a) = sessionOptions.any (sameName b) :=
    congrArg sessionOptions.any (funext fun option =>
      sameName_congr hname.sameName (sameName_refl option))
  dsimp only
  rw [hknown, hname.map_toUpper_eq]
  refine readsAlike_ite ?_ (readsAlike_fail (.refl _))
  refine readsAlike_expectNext fun t u htoken => ?_
  rw [htoken.eq_of_seesKind (seesKind_keyword .ON), htoken.eq_of_seesKind (seesKind_keyword .OFF)]
  exact readsAlike_ite (readsAlike_pure rfl) (readsAlike_fail htoken.unexpected)

end Statement
end TransactSql
