/-
TransactSql.Proofs.Expression.Depth — how deep an expression is nested.

`ReadsAt scope form depth c e c'` says what stands in the text between
two cursors, and how deep it is nested; nothing in it bounds the depth.
An expression is one level deeper than the deeper one of its first
operand and of what follows the operator behind it. An operand is as deep
as what stands in its parentheses, and a sign adds a level to the operand
behind it.

The readers of expressions follow this relation (`measures_reader`): with
as many levels as an expression is deep they read it, and with fewer they
fail.
-/
import TransactSql.Proofs.Expression.Literals
import TransactSql.Proofs.Parse.Grammar
import TransactSql.Proofs.Parse.Nesting

namespace TransactSql.Expression

open Parse

/-! ## What is written -/

/-- What a reader looks for. -/
inductive Form where
  /-- An operand. -/
  | operand
  /-- An expression, with an alias if one may follow. -/
  | expression (aliased : Bool)

/-- Reads what follows the first part of a name. -/
def readQualified (first : String) : Parse QualifiedName := do
  let more ← if ← consume (·.isOperator '.') then qualifiedName else pure []
  pure (first :: more)

/-- Reads the word before an alias, if an alias may follow, and tells whether it is there. -/
def readAliasWord (aliased : Bool) : Parse Bool :=
  if aliased then consumeKeyword .AS else pure false

/-- An expression of some form stands between two cursors, and is nested so deep. -/
inductive ReadsAt (scope : Scope) : Form → (depth : Nat) → Cursor → Expression → Cursor → Prop
  | literal {c c' : Cursor} {token : Token} {v : Value}
      (htoken : expectNext.run c = (.ok token, c')) (hvalue : token.literalValue? = some v) :
      ReadsAt scope .operand 0 c (value v) c'
  | parameter {c c' : Cursor} {token : Token} {name : String} {v : Value}
      (htoken : expectNext.run c = (.ok token, c')) (hkind : token.kind = .parameter name)
      (hvalue : scope.parameter name = .ok v) : ReadsAt scope .operand 0 c (value v) c'
  | systemVariable {c c' : Cursor} {token : Token} {name : String} {v : Value}
      (htoken : expectNext.run c = (.ok token, c')) (hkind : token.kind = .systemVariable name)
      (hvalue : scope.systemVariable name = .ok v) : ReadsAt scope .operand 0 c (value v) c'
  | reference {c c₁ c₂ c' : Cursor} {token : Token} {first : String} {name : QualifiedName}
      (htoken : expectNext.run c = (.ok token, c₁)) (hfirst : token.identifier? = some first)
      (hname : (readQualified first).run c₁ = (.ok name, c₂))
      (hend : (peekIs (·.kind == .openParen)).run c₂ = (.ok false, c')) :
      ReadsAt scope .operand 0 c (reference name) c'
  | negative {depth : Nat} {c c₁ c' : Cursor} {token : Token} {operand : Expression}
      (htoken : expectNext.run c = (.ok token, c₁)) (hkind : token.kind = .operator '-')
      (hoperand : ReadsAt scope .operand depth c₁ operand c') :
      ReadsAt scope .operand (depth + 1) c (negative operand) c'
  | positive {depth : Nat} {c c₁ c' : Cursor} {token : Token} {operand : Expression}
      (htoken : expectNext.run c = (.ok token, c₁)) (hkind : token.kind = .operator '+')
      (hoperand : ReadsAt scope .operand depth c₁ operand c') :
      ReadsAt scope .operand (depth + 1) c operand c'
  | parenthesized {depth : Nat} {c c₁ c₂ c' : Cursor} {token close : Token} {inner : Expression}
      (htoken : expectNext.run c = (.ok token, c₁)) (hkind : token.kind = .openParen)
      (hinner : ReadsAt scope (.expression false) depth c₁ inner c₂)
      (hclose : (expectKind .closeParen).run c₂ = (.ok close, c')) :
      ReadsAt scope .operand depth c (parenthesized inner) c'
  /-- A call of a function; every function takes one argument. -/
  | call {depth : Nat} {c c₁ c₂ c₃ c₄ c₅ c₆ c₇ c' : Cursor} {token paren close : Token}
      {first : String} {name : QualifiedName} {function : BuiltIn} {argument : Expression}
      (htoken : expectNext.run c = (.ok token, c₁)) (hfirst : token.identifier? = some first)
      (hname : (readQualified first).run c₁ = (.ok name, c₂))
      (hparen : (peekIs (·.kind == .openParen)).run c₂ = (.ok true, c₃))
      (hfunction : BuiltIn.ofName? name.toText = some function)
      (hopen : (expectKind .openParen).run c₃ = (.ok paren, c₄))
      (hsome : (consumeKind .closeParen).run c₄ = (.ok false, c₅))
      (hargument : ReadsAt scope (.expression false) depth c₅ argument c₆)
      (hlast : (consumeKind .comma).run c₆ = (.ok false, c₇))
      (hclose : (expectKind .closeParen).run c₇ = (.ok close, c')) :
      ReadsAt scope .operand depth c (call function argument) c'
  /-- An operand behind which there is no operator. -/
  | last {aliased : Bool} {depth : Nat} {c c₁ c₂ c' : Cursor} {operand : Expression}
      (hoperand : ReadsAt scope .operand depth c operand c₁)
      (hunnamed : (readAliasWord aliased).run c₁ = (.ok false, c₂))
      (hend : nextOperator?.run c₂ = (.ok none, c')) :
      ReadsAt scope (.expression aliased) (depth + 1) c operand c'
  /-- An operand with an alias, which ends the expression. -/
  | named {aliased : Bool} {depth : Nat} {c c₁ c₂ c' : Cursor} {operand : Expression}
      {name : String} (hoperand : ReadsAt scope .operand depth c operand c₁)
      (hnamed : (readAliasWord aliased).run c₁ = (.ok true, c₂))
      (hname : expectAlias.run c₂ = (.ok name, c')) :
      ReadsAt scope (.expression aliased) (depth + 1) c (named operand name) c'
  /-- An operand, an operator, and the rest. -/
  | more {aliased : Bool} {depth depth' : Nat} {c c₁ c₂ c₃ c' : Cursor}
      {left right : Expression} {op : ArithmeticOperator}
      (hoperand : ReadsAt scope .operand depth c left c₁)
      (hunnamed : (readAliasWord aliased).run c₁ = (.ok false, c₂))
      (hop : nextOperator?.run c₂ = (.ok (some op), c₃))
      (hrest : ReadsAt scope (.expression aliased) depth' c₃ right c') :
      ReadsAt scope (.expression aliased) (max depth depth' + 1) c (join op left right) c'

variable {scope : Scope} {depth levels : Nat} {c c' c₁ : Cursor} {e : Expression}

/-! ## The levels that are needed -/

/-- The reader of a form, with so many levels left. An operand is read with the levels that are
left to what is nested in it. -/
def reader (scope : Scope) : Form → (levels : Nat) → Parse Expression
  | .operand, levels => readOperand scope (readers scope levels)
  | .expression aliased, levels => (readers scope levels).expression aliased

theorem readExpression_eq (operand : Parse Expression) (rest : Bool → Parse Expression)
    (aliased : Bool) : readExpression operand rest aliased =
      operand >>= fun left => readAliasWord aliased >>= readAfter (rest aliased) left := by
  cases aliased <;> rfl

theorem readName_eq (below : Readers) (first : String) :
    readName below first = readQualified first >>= fun name =>
      peekIs (·.kind == .openParen) >>= fun isCall =>
        if isCall then readCall below name else pure (reference name) := by
  refine ext fun c => ?_
  unfold readName readQualified
  rw [bind_assoc, run_bind, run_bind]
  rcases (consume (·.isOperator '.')).run c with ⟨_ | ⟨_ | _⟩, c₁⟩
  · rfl
  · rfl
  · simp only [if_true, bind_assoc]
    rfl

/-- A sign takes a level, for the operand behind it. -/
theorem needs_signed (h : Needs (reader scope .operand) depth c e c') :
    Needs (fun n => (readers scope n).signed) (depth + 1) c e c' :=
  h.succ rfl fun _ => rfl

/-- An expression takes a level, for its operand and for the rest. -/
theorem needs_expression {aliased : Bool}
    (h : Needs (fun n => reader scope .operand n >>= fun left =>
      readAliasWord aliased >>= readAfter (reader scope (.expression aliased) n) left)
      depth c e c') : Needs (reader scope (.expression aliased)) (depth + 1) c e c' :=
  h.succ rfl fun _ => readExpression_eq _ _ aliased

theorem needs_readCall {name : QualifiedName} {function : BuiltIn} {argument : Expression}
    {paren close : Token} {c₄ c₅ c₆ c₇ : Cursor}
    (hfunction : BuiltIn.ofName? name.toText = some function)
    (hopen : (expectKind .openParen).run c = (.ok paren, c₄))
    (hsome : (consumeKind .closeParen).run c₄ = (.ok false, c₅))
    (hargument : Needs (reader scope (.expression false)) depth c₅ argument c₆)
    (hlast : (consumeKind .comma).run c₆ = (.ok false, c₇))
    (hclose : (expectKind .closeParen).run c₇ = (.ok close, c')) :
    Needs (fun n => readCall (readers scope n) name) depth c (call function argument) c' := by
  have hitems : Needs (fun n => commaSeparated ((readers scope n).expression false)) depth c₅
      [argument] c₇ :=
    (SeparatedAt.needs (separates_consume _) id (.last hargument hlast)).before fun _ => rfl
  have harguments : Needs (fun n => readArguments (readers scope n)) depth c [argument] c' := by
    refine .after (fun _ => hopen) (.after (fun _ => hsome) ?_)
    exact hitems.before fun _ => run_bind_ok.mpr ⟨close, _, hclose, rfl⟩
  unfold readCall
  simp only [hfunction]
  exact harguments.before fun _ => rfl

/-- A name is read as its first part, and what belongs to it. -/
theorem needs_of_identifier? {token : Token} {first : String}
    (htoken : expectNext.run c = (.ok token, c₁)) (hfirst : token.identifier? = some first)
    (h : Needs (fun n => readName (readers scope n) first) depth c₁ e c') :
    Needs (reader scope .operand) depth c e c' := by
  refine .after (fun _ => htoken) ?_
  unfold Token.identifier? at hfirst
  split at hfirst
  · next hkind =>
    cases hfirst
    rw [hkind]
    exact h
  · next hkind =>
    cases hfirst
    rw [hkind]
    exact h
  · cases hfirst

/-- What stands in the text is read with as many levels as it is deep, and with no fewer. -/
theorem ReadsAt.needs {form : Form} (h : ReadsAt scope form depth c e c') :
    Needs (reader scope form) depth c e c' := by
  induction h with
  | literal htoken hvalue =>
    refine .after (fun _ => htoken) ?_
    unfold Token.literalValue? at hvalue
    split at hvalue <;> cases hvalue
    all_goals
      rename_i hkind
      rw [hkind]
      exact needs_of_run fun _ => rfl
  | parameter htoken hkind hvalue =>
    refine .after (fun _ => htoken) ?_
    rw [hkind]
    exact needs_of_run fun _ => run_bind_ok.mpr ⟨_, _, run_ofExcept_ok.mpr ⟨hvalue, rfl⟩, rfl⟩
  | systemVariable htoken hkind hvalue =>
    refine .after (fun _ => htoken) ?_
    rw [hkind]
    exact needs_of_run fun _ => run_bind_ok.mpr ⟨_, _, run_ofExcept_ok.mpr ⟨hvalue, rfl⟩, rfl⟩
  | reference htoken hfirst hname hend =>
    refine needs_of_identifier? htoken hfirst ?_
    simp only [readName_eq]
    exact .after (fun _ => hname) (.after (fun _ => hend) (needs_of_run fun _ => rfl))
  | negative htoken hkind _ ih =>
    refine .after (fun _ => htoken) ?_
    rw [hkind]
    exact (needs_signed ih).before fun _ => rfl
  | positive htoken hkind _ ih =>
    refine .after (fun _ => htoken) ?_
    rw [hkind]
    exact needs_signed ih
  | parenthesized htoken hkind _ hclose ih =>
    refine .after (fun _ => htoken) ?_
    rw [hkind]
    exact ih.before fun _ => run_bind_ok.mpr ⟨_, _, hclose, rfl⟩
  | call htoken hfirst hname hparen hfunction hopen hsome _ hlast hclose ih =>
    refine needs_of_identifier? htoken hfirst ?_
    simp only [readName_eq]
    refine .after (fun _ => hname) (.after (fun _ => hparen) ?_)
    exact needs_readCall hfunction hopen hsome ih hlast hclose
  | last _ hunnamed hend ih =>
    exact needs_expression (ih.before fun _ =>
      run_bind_ok.mpr ⟨false, _, hunnamed, run_bind_ok.mpr ⟨none, _, hend, rfl⟩⟩)
  | named _ hnamed hname ih =>
    exact needs_expression (ih.before fun _ =>
      run_bind_ok.mpr ⟨true, _, hnamed, run_bind_ok.mpr ⟨_, _, hname, rfl⟩⟩)
  | more _ hunnamed hop _ ih ihrest =>
    refine needs_expression (ih.bind (.after (fun _ => hunnamed) ?_))
    exact .after (fun _ => hop) (ihrest.before fun _ => rfl)

/-! ## What is read stands in the text -/

section Operands

variable {below : Readers} {token : Token} {first : String}
  (hexpression : Finds (below.expression false) (ReadsAt scope (.expression false)))

include hexpression

theorem exists_readsAt_of_call {name : QualifiedName} {c₂ c₃ : Cursor}
    (htoken : expectNext.run c = (.ok token, c₁)) (hfirst : token.identifier? = some first)
    (hname : (readQualified first).run c₁ = (.ok name, c₂))
    (hparen : (peekIs (·.kind == .openParen)).run c₂ = (.ok true, c₃))
    (h : (readCall below name).run c₃ = (.ok e, c')) :
    ∃ depth, ReadsAt scope .operand depth c e c' := by
  unfold readCall at h
  split at h
  · cases h
  next function hfunction =>
  obtain ⟨arguments, c₄, harguments, h⟩ := run_bind_ok.mp h
  split at h
  · next argument =>
    cases h
    obtain ⟨paren, c₅, hopen, harguments⟩ := run_bind_ok.mp harguments
    obtain ⟨isClose, c₆, hsome, harguments⟩ := run_bind_ok.mp harguments
    cases isClose with
    | true => cases harguments
    | false =>
      obtain ⟨arguments, c₇, hitems, harguments⟩ := run_bind_ok.mp harguments
      obtain ⟨close, c₈, hclose, harguments⟩ := run_bind_ok.mp harguments
      cases harguments
      obtain ⟨⟨first, others⟩, c₈, hitems, hpure⟩ := run_bind_ok.mp hitems
      cases hpure
      obtain ⟨depth, hitems⟩ := finds_separated (separates_consume _) hexpression hitems
      cases hitems with
      | last hargument hlast =>
        exact ⟨depth, .call htoken hfirst hname hparen hfunction hopen hsome hargument hlast
          hclose⟩
  · cases h

theorem exists_readsAt_of_name
    (htoken : expectNext.run c = (.ok token, c₁)) (hfirst : token.identifier? = some first)
    (h : (readName below first).run c₁ = (.ok e, c')) :
    ∃ depth, ReadsAt scope .operand depth c e c' := by
  rw [readName_eq] at h
  obtain ⟨name, c₂, hname, h⟩ := run_bind_ok.mp h
  obtain ⟨isCall, c₃, hparen, h⟩ := run_bind_ok.mp h
  cases isCall with
  | true => exact exists_readsAt_of_call hexpression htoken hfirst hname hparen h
  | false =>
    cases h
    exact ⟨0, .reference htoken hfirst hname hparen⟩

theorem finds_readOperand (hsigned : Finds below.signed (ReadsAt scope .operand)) :
    Finds (readOperand scope below) (ReadsAt scope .operand) := by
  intro c e c' h
  obtain ⟨token, c₁, htoken, h⟩ := run_bind_ok.mp h
  -- Three kinds of tokens are literals; each of the other kinds has its own rule.
  have hliteral : ∀ {v}, token.literalValue? = some v → e = value v → c' = c₁ →
      ∃ depth, ReadsAt scope .operand depth c e c' := by
    rintro v hvalue rfl rfl
    exact ⟨0, .literal htoken hvalue⟩
  split at h
  · next hkind =>
    cases h
    exact hliteral (by rw [Token.literalValue?, hkind]) rfl rfl
  · next hkind =>
    cases h
    exact hliteral (by rw [Token.literalValue?, hkind]) rfl rfl
  · next hkind =>
    cases h
    exact hliteral (by rw [Token.literalValue?, hkind]) rfl rfl
  · next name hkind =>
    obtain ⟨v, c₂, hrun, hpure⟩ := run_bind_ok.mp h
    obtain ⟨hvalue, rfl⟩ := run_ofExcept_ok.mp hrun
    cases hpure
    exact ⟨0, .parameter htoken hkind hvalue⟩
  · next name hkind =>
    obtain ⟨v, c₂, hrun, hpure⟩ := run_bind_ok.mp h
    obtain ⟨hvalue, rfl⟩ := run_ofExcept_ok.mp hrun
    cases hpure
    exact ⟨0, .systemVariable htoken hkind hvalue⟩
  · next hkind =>
    obtain ⟨operand, c₂, hoperand, h⟩ := run_bind_ok.mp h
    cases h
    obtain ⟨depth, hoperand⟩ := hsigned hoperand
    exact ⟨depth + 1, .negative htoken hkind hoperand⟩
  · next hkind =>
    obtain ⟨depth, hoperand⟩ := hsigned h
    exact ⟨depth + 1, .positive htoken hkind hoperand⟩
  · next hkind =>
    obtain ⟨inner, c₂, hinner, h⟩ := run_bind_ok.mp h
    obtain ⟨close, c₃, hclose, h⟩ := run_bind_ok.mp h
    cases h
    obtain ⟨depth, hinner⟩ := hexpression hinner
    exact ⟨depth, .parenthesized htoken hkind hinner hclose⟩
  · next hkind =>
    exact exists_readsAt_of_name hexpression htoken (by rw [Token.identifier?, hkind]) h
  · next name hkind =>
    exact exists_readsAt_of_name hexpression htoken (by rw [Token.identifier?, hkind]) h
  · cases h

end Operands

theorem finds_readExpression {operand : Parse Expression} {rest : Bool → Parse Expression}
    {aliased : Bool} (hoperand : Finds operand (ReadsAt scope .operand))
    (hrest : Finds (rest aliased) (ReadsAt scope (.expression aliased))) :
    Finds (readExpression operand rest aliased) (ReadsAt scope (.expression aliased)) := by
  intro c e c' h
  rw [readExpression_eq] at h
  obtain ⟨left, c₁, hleft, h⟩ := run_bind_ok.mp h
  obtain ⟨depth, hleft⟩ := hoperand hleft
  obtain ⟨isNamed, c₂, hnamed, h⟩ := run_bind_ok.mp h
  cases isNamed with
  | true =>
    obtain ⟨name, c₃, hname, h⟩ := run_bind_ok.mp h
    cases h
    exact ⟨depth + 1, .named hleft hnamed hname⟩
  | false =>
    obtain ⟨op?, c₃, hop, h⟩ := run_bind_ok.mp h
    cases op? with
    | none =>
      cases h
      exact ⟨depth + 1, .last hleft hnamed hop⟩
    | some op =>
      obtain ⟨right, c₄, hright, h⟩ := run_bind_ok.mp h
      cases h
      obtain ⟨depth', hright⟩ := hrest hright
      exact ⟨_, .more hleft hnamed hop hright⟩

/-- What the readers of some level read stands in the text. -/
theorem finds_readers (scope : Scope) (levels : Nat) :
    (∀ aliased,
      Finds ((readers scope levels).expression aliased) (ReadsAt scope (.expression aliased))) ∧
    Finds (readers scope levels).signed (ReadsAt scope .operand) := by
  induction levels with
  | zero => exact ⟨fun _ => nofun, nofun⟩
  | succ levels ih =>
    obtain ⟨hexpression, hsigned⟩ := ih
    have hoperand : Finds (readOperand scope (readers scope levels)) (ReadsAt scope .operand) :=
      finds_readOperand (hexpression false) hsigned
    exact ⟨fun aliased => finds_readExpression hoperand (hexpression aliased), hoperand⟩

/-- The readers of each form follow what stands in the text. -/
theorem measures_reader (scope : Scope) (form : Form) :
    Measures (reader scope form) (ReadsAt scope form) where
  needs := ReadsAt.needs
  finds levels := by
    obtain ⟨hexpression, hsigned⟩ := finds_readers scope levels
    cases form with
    | operand => exact finds_readOperand (hexpression false) hsigned
    | expression aliased => exact hexpression aliased

end TransactSql.Expression
