/-
TransactSql.Proofs.Parse.Failures — failures of readers that name a place.

If a failure names a place in the text, it is the one behind the tokens:
a reader only relays it. So where that failure is moved, the reader fails
with the moved one, or it answers or fails as before. `p.RelaysFault`
says that of a reader; there is one lemma for each way to build a reader,
and one for each reader of the grammar.
-/
import TransactSql.Proofs.Except
import TransactSql.Proofs.Parse.Grammar
import TransactSql.Proofs.Statement.Failures

namespace TransactSql

/-- The cursor, if so many characters stand before the text. -/
def Cursor.shiftFault (n : Nat) (c : Cursor) : Cursor :=
  { c with fault := c.fault.map (Error.shift n) }

namespace Parse

variable {α β : Type}

/-- Moving the failure behind the tokens moves the failure of the reader, if that is the one, and
changes nothing else. -/
def RelaysFault (p : Parse α) : Prop :=
  ∀ n c, p.run (c.shiftFault n) =
    ((p.run c).1.mapError (Error.shift n), (p.run c).2.shiftFault n)

/-! ## Building readers -/

theorem relaysFault_pure (a : α) : (pure a : Parse α).RelaysFault := fun _ _ => rfl

theorem relaysFault_fail {e : Error} (h : ∀ n, e.shift n = e) :
    (fail e : Parse α).RelaysFault := by
  intro n c
  exact congrArg (fun e => (Except.error e, c.shiftFault n)) (h n).symm

theorem RelaysFault.bind {p : Parse α} {f : α → Parse β} (hp : p.RelaysFault)
    (hf : ∀ a, (f a).RelaysFault) : (p >>= f).RelaysFault := by
  intro n c
  rw [run_bind, run_bind, hp n c]
  rcases p.run c with ⟨e | a, c'⟩
  · rfl
  · exact hf a n c'

theorem relaysFault_ite {b : Bool} {p q : Parse α} (hp : p.RelaysFault) (hq : q.RelaysFault) :
    (if b then p else q).RelaysFault := by
  cases b
  · exact hq
  · exact hp

theorem relaysFault_ofExcept {x : Except Error α} (h : Placeless x) :
    (ofExcept x).RelaysFault := by
  cases x with
  | error e => exact relaysFault_fail fun n => Except.error.inj (h n)
  | ok a => exact relaysFault_pure a

theorem relaysFault_peekNth (place : Nat) : (peekNth place).RelaysFault := by
  rintro n ⟨tokens, fault, last⟩
  simp only [peekNth, Cursor.peekNth, Cursor.shiftFault]
  cases tokens[place]? <;> cases fault <;> rfl

theorem relaysFault_next : next.RelaysFault := by
  rintro n ⟨tokens, fault, last⟩
  cases tokens <;> cases fault <;> rfl

theorem relaysFault_failAtEnd : (failAtEnd : Parse α).RelaysFault := fun _ _ => rfl

theorem relaysFault_expectNext : expectNext.RelaysFault := by
  refine relaysFault_next.bind fun token => ?_
  cases token with
  | none => exact relaysFault_failAtEnd
  | some token => exact relaysFault_pure token

theorem relaysFault_peekIs (p : Token → Bool) : (peekIs p).RelaysFault :=
  (relaysFault_peekNth 0).bind fun _ => relaysFault_pure _

theorem relaysFault_nextIf (p : Token → Bool) : (nextIf p).RelaysFault :=
  (relaysFault_peekIs p).bind fun _ => relaysFault_ite relaysFault_next (relaysFault_pure _)

theorem relaysFault_consume (p : Token → Bool) : (consume p).RelaysFault :=
  (relaysFault_nextIf p).bind fun _ => relaysFault_pure _

theorem relaysFault_consumeKeyword (keyword : Keyword) : (consumeKeyword keyword).RelaysFault :=
  relaysFault_consume _

theorem relaysFault_consumeKind (kind : TokenKind) : (consumeKind kind).RelaysFault :=
  relaysFault_consume _

theorem relaysFault_unexpected (t : Token) : (fail t.unexpected : Parse α).RelaysFault := by
  refine relaysFault_fail fun n => ?_
  unfold Token.unexpected
  split <;> rfl

theorem relaysFault_expect (p : Token → Bool) : (expect p).RelaysFault :=
  relaysFault_expectNext.bind fun t => relaysFault_ite (relaysFault_pure t)
    (relaysFault_unexpected t)

theorem relaysFault_expectKind (kind : TokenKind) : (expectKind kind).RelaysFault :=
  relaysFault_expect _

theorem relaysFault_expectText (text? : Token → Option String) :
    (expectText text?).RelaysFault := by
  refine relaysFault_expectNext.bind fun t => ?_
  split
  · exact relaysFault_pure _
  · exact relaysFault_unexpected t

theorem relaysFault_nextText? (text? : Token → Option String) : (nextText? text?).RelaysFault :=
  (relaysFault_nextIf _).bind fun _ => relaysFault_pure _

theorem relaysFault_separatedNumbered {separator : Parse Bool} {item : Nat → Parse α}
    (hseparator : separator.RelaysFault) (hitem : ∀ place, (item place).RelaysFault) :
    (separatedNumbered separator item).RelaysFault := by
  intro n c
  show runSeparated separator item 0 (c.shiftFault n) =
    ((runSeparated separator item 0 c).1.mapError (Error.shift n),
      (runSeparated separator item 0 c).2.shiftFault n)
  generalize 0 = place
  fun_induction runSeparated separator item place c with
  | case1 place c e c₁ hfirst =>
    rw [runSeparated, hitem place n c, hfirst]
    rfl
  | case2 place c first c₁ hfirst e c₂ hseparated =>
    rw [runSeparated, hitem place n c, hfirst]
    simp only [mapError_ok, mapError_error, hseparator n c₁, hseparated]
  | case3 place c first c₁ hfirst c₂ hseparated =>
    rw [runSeparated, hitem place n c, hfirst]
    simp only [mapError_ok, hseparator n c₁, hseparated]
  | case4 place c first c₁ hfirst c₂ hseparated hless e c₃ hmore ih =>
    rw [hmore] at ih
    rw [runSeparated, hitem place n c, hfirst]
    simp only [mapError_ok, hseparator n c₁, hseparated]
    rw [if_pos (by exact hless), ih]
    rfl
  | case5 place c first c₁ hfirst c₂ hseparated hless more c₃ hmore ih =>
    rw [hmore] at ih
    rw [runSeparated, hitem place n c, hfirst]
    simp only [mapError_ok, hseparator n c₁, hseparated]
    rw [if_pos (by exact hless), ih]
    rfl
  | case6 place c first c₁ hfirst c₂ hseparated hless =>
    rw [runSeparated, hitem place n c, hfirst]
    simp only [mapError_ok, hseparator n c₁, hseparated]
    rw [if_neg (by exact hless)]

theorem relaysFault_separated {separator : Parse Bool} {item : Parse α}
    (hseparator : separator.RelaysFault) (hitem : item.RelaysFault) :
    (separated separator item).RelaysFault :=
  relaysFault_separatedNumbered hseparator fun _ => hitem

theorem relaysFault_commaSeparated {item : Parse α} (hitem : item.RelaysFault) :
    (commaSeparated item).RelaysFault :=
  (relaysFault_separated (relaysFault_consumeKind _) hitem).bind fun _ => relaysFault_pure _

theorem relaysFault_qualifiedName : qualifiedName.RelaysFault :=
  (relaysFault_separated (relaysFault_consume _) (relaysFault_expectText _)).bind
    fun _ => relaysFault_pure _

end Parse

open Parse

/-! ## Expressions -/

namespace Expression

theorem relaysFault_readArguments {below : Readers}
    (hbelow : (below.expression false).RelaysFault) : (readArguments below).RelaysFault := by
  refine (relaysFault_expectKind _).bind fun _ => (relaysFault_consumeKind _).bind fun _ => ?_
  refine relaysFault_ite (relaysFault_pure _) ((relaysFault_commaSeparated hbelow).bind fun _ => ?_)
  exact (relaysFault_expectKind _).bind fun _ => relaysFault_pure _

theorem relaysFault_readCall {below : Readers}
    (hbelow : (below.expression false).RelaysFault) (name : QualifiedName) :
    (readCall below name).RelaysFault := by
  unfold readCall
  split
  · exact relaysFault_fail fun _ => rfl
  · refine (relaysFault_readArguments hbelow).bind fun arguments => ?_
    split
    · exact relaysFault_pure _
    · exact relaysFault_fail fun _ => rfl

theorem relaysFault_readName {below : Readers} (hbelow : (below.expression false).RelaysFault)
    (first : String) : (readName below first).RelaysFault := by
  have hrest : ∀ name : QualifiedName, (peekIs (·.kind == .openParen) >>= fun isCall =>
      if isCall then readCall below name else pure (.reference name)).RelaysFault := fun name =>
    (relaysFault_peekIs _).bind fun _ =>
      relaysFault_ite (relaysFault_readCall hbelow name) (relaysFault_pure _)
  refine (relaysFault_consume _).bind fun _ => relaysFault_ite ?_ ?_
  · exact relaysFault_qualifiedName.bind fun more => hrest (first :: more)
  · exact (relaysFault_pure _).bind fun more => hrest (first :: more)

theorem relaysFault_readOperand {below : Readers} (hbelow : (below.expression false).RelaysFault)
    (hsigned : below.signed.RelaysFault) (scope : Scope) :
    (readOperand scope below).RelaysFault := by
  refine relaysFault_expectNext.bind fun t => ?_
  split
  · exact relaysFault_pure _
  · exact relaysFault_pure _
  · exact relaysFault_pure _
  · exact (relaysFault_ofExcept (scope.placeless_parameter _)).bind fun _ => relaysFault_pure _
  · exact (relaysFault_ofExcept (scope.placeless_systemVariable _)).bind fun _ => relaysFault_pure _
  · exact hsigned.bind fun _ => relaysFault_pure _
  · exact hsigned
  · exact hbelow.bind fun _ => (relaysFault_expectKind _).bind fun _ => relaysFault_pure _
  · exact relaysFault_readName hbelow _
  · exact relaysFault_readName hbelow _
  · exact relaysFault_unexpected t

theorem relaysFault_readExpression {operand : Parse Expression} {rest : Bool → Parse Expression}
    (hoperand : operand.RelaysFault) (hrest : ∀ aliased, (rest aliased).RelaysFault)
    (aliased : Bool) : (readExpression operand rest aliased).RelaysFault := by
  refine hoperand.bind fun left => ?_
  have hafter : ∀ isNamed, (readAfter (rest aliased) left isNamed).RelaysFault := by
    intro isNamed
    refine relaysFault_ite ((relaysFault_expectText _).bind fun _ => relaysFault_pure _) ?_
    have hoperator : nextOperator?.RelaysFault :=
      (relaysFault_nextIf _).bind fun _ => relaysFault_pure _
    refine hoperator.bind fun op => ?_
    cases op with
    | none => exact relaysFault_pure _
    | some op => exact (hrest aliased).bind fun _ => relaysFault_pure _
  cases aliased with
  | true => exact (relaysFault_consumeKeyword _).bind hafter
  | false => exact (relaysFault_pure _).bind hafter

theorem relaysFault_readers (scope : Scope) (levels : Nat) :
    (∀ aliased, ((readers scope levels).expression aliased).RelaysFault) ∧
      (readers scope levels).signed.RelaysFault := by
  induction levels with
  | zero => exact ⟨fun _ => relaysFault_fail fun _ => rfl, relaysFault_fail fun _ => rfl⟩
  | succ levels ih =>
    have hoperand := relaysFault_readOperand (ih.1 false) ih.2 scope
    exact ⟨relaysFault_readExpression hoperand ih.1, hoperand⟩

theorem relaysFault_read (scope : Scope) (levels : Nat) : (read scope levels).RelaysFault :=
  (relaysFault_readers scope levels).1 false

theorem relaysFault_readAliased (scope : Scope) (levels : Nat) :
    (readAliased scope levels).RelaysFault :=
  (relaysFault_readers scope levels).1 true

end Expression

/-! ## Conditions -/

namespace Predicate

theorem relaysFault_readOperator : readOperator.RelaysFault := by
  refine relaysFault_expectNext.bind fun t => ?_
  have hadjacent : ∀ symbol, (consumeAdjacent t symbol).RelaysFault :=
    fun symbol => relaysFault_consume _
  split
  · exact relaysFault_pure _
  · refine (hadjacent '>').bind fun _ => relaysFault_ite (relaysFault_pure _) ?_
    exact (hadjacent '=').bind fun _ => relaysFault_ite (relaysFault_pure _) (relaysFault_pure _)
  · exact (hadjacent '=').bind fun _ => relaysFault_ite (relaysFault_pure _) (relaysFault_pure _)
  · refine (hadjacent '=').bind fun _ => relaysFault_ite (relaysFault_pure _) ?_
    refine (hadjacent '<').bind fun _ => relaysFault_ite (relaysFault_pure _) ?_
    exact (hadjacent '>').bind fun _ =>
      relaysFault_ite (relaysFault_pure _) (relaysFault_unexpected t)
  · exact relaysFault_unexpected t

theorem relaysFault_readConjunction {expression : Parse Expression}
    (hexpression : expression.RelaysFault) : (readConjunction expression).RelaysFault := by
  have hcomparison : (readComparison expression).RelaysFault :=
    hexpression.bind fun _ => relaysFault_readOperator.bind fun _ =>
      hexpression.bind fun _ => relaysFault_pure _
  exact (relaysFault_separated (relaysFault_consumeKeyword _) hcomparison).bind
    fun _ => relaysFault_pure _

theorem relaysFault_read (scope : Scope) (levels : Nat) : (read scope levels).RelaysFault :=
  (relaysFault_separated (relaysFault_consumeKeyword _)
    (relaysFault_readConjunction (Expression.relaysFault_read scope levels))).bind
    fun _ => relaysFault_pure _

end Predicate

/-! ## Queries -/

namespace Query

theorem placeless_limit (e : Expression) : Placeless (e.eval limitLookup >>= limitOf) := by
  refine (e.placeless_eval fun _ _ => rfl).bind fun v => ?_
  unfold limitOf limitOf.nonNegative
  intro n
  split <;> (try split) <;> rfl

theorem relaysFault_readLimitExpression (scope : Scope) (levels : Nat) :
    (readLimitExpression scope levels).RelaysFault := by
  refine (relaysFault_consumeKind _).bind fun _ => relaysFault_ite ?_ ?_
  · exact (Expression.relaysFault_read scope levels).bind fun _ =>
      (relaysFault_expectKind _).bind fun _ => relaysFault_pure _
  · refine relaysFault_expectNext.bind fun t => ?_
    split
    · exact relaysFault_pure _
    · exact (relaysFault_ofExcept (scope.placeless_parameter _)).bind fun _ => relaysFault_pure _
    · exact relaysFault_unexpected t

theorem relaysFault_readLimit? (scope : Scope) (levels : Nat) :
    (readLimit? scope levels).RelaysFault := by
  refine (relaysFault_consumeKeyword _).bind fun _ => relaysFault_ite ?_ (relaysFault_pure _)
  refine (relaysFault_readLimitExpression scope levels).bind fun e => ?_
  exact (relaysFault_ofExcept (placeless_limit e)).bind fun _ => relaysFault_pure _

theorem relaysFault_readItem (scope : Scope) (levels : Nat) :
    (readItem scope levels).RelaysFault := by
  refine (relaysFault_consume _).bind fun _ => relaysFault_ite (relaysFault_pure _) ?_
  refine (Expression.relaysFault_readAliased scope levels).bind fun e => ?_
  refine relaysFault_ite (relaysFault_pure _) ((relaysFault_nextText? _).bind fun name? => ?_)
  split <;> exact relaysFault_pure _

theorem relaysFault_readSourceAlias? : readSourceAlias?.RelaysFault :=
  (relaysFault_consumeKeyword _).bind fun _ =>
    relaysFault_ite ((relaysFault_expectText _).bind fun _ => relaysFault_pure _)
      (relaysFault_nextText? _)

theorem relaysFault_readSource {derived : Parse Query} (hderived : derived.RelaysFault) :
    (readSource derived).RelaysFault := by
  have hsingle : (readSource.readSingle derived).RelaysFault := by
    refine (relaysFault_consumeKind _).bind fun _ => relaysFault_ite ?_ ?_
    · refine (relaysFault_expect _).bind fun _ => hderived.bind fun query => ?_
      refine (relaysFault_expectKind _).bind fun close => ?_
      refine relaysFault_readSourceAlias?.bind fun name? => ?_
      split
      · exact relaysFault_pure _
      · exact relaysFault_unexpected close
    · exact relaysFault_qualifiedName.bind fun _ =>
        relaysFault_readSourceAlias?.bind fun _ => relaysFault_pure _
  exact hsingle.bind fun _ => (relaysFault_peekIs _).bind fun _ =>
    relaysFault_ite (relaysFault_fail fun _ => rfl) (relaysFault_pure _)

theorem relaysFault_refuseClause : refuseClause.RelaysFault := by
  refine (relaysFault_peekNth 0).bind fun token => ?_
  split
  · exact relaysFault_fail fun _ => rfl
  · exact relaysFault_pure _

theorem relaysFault_readQuery {derived : Parse Query} (hderived : derived.RelaysFault)
    (scope : Scope) (levels : Nat) : (readQuery scope levels derived).RelaysFault := by
  have hquantifier : refuseQuantifier.RelaysFault := (relaysFault_peekIs _).bind fun _ =>
    relaysFault_ite (relaysFault_fail fun _ => rfl) (relaysFault_pure _)
  have hfilter : (readQuery.readFilter? scope levels).RelaysFault :=
    (relaysFault_consumeKeyword _).bind fun _ =>
      relaysFault_ite ((Predicate.relaysFault_read scope levels).bind fun _ => relaysFault_pure _)
        (relaysFault_pure _)
  refine hquantifier.bind fun _ => (relaysFault_readLimit? scope levels).bind fun limit => ?_
  refine (relaysFault_commaSeparated (relaysFault_readItem scope levels)).bind fun items => ?_
  have hafter : ∀ source : Source, (readQuery.readFilter? scope levels >>= fun filter =>
      refuseClause >>= fun _ => pure (⟨⟨limit, items, filter⟩, source⟩ : Query)).RelaysFault :=
    fun source => hfilter.bind fun _ => relaysFault_refuseClause.bind fun _ => relaysFault_pure _
  refine (relaysFault_consumeKeyword _).bind fun _ => relaysFault_ite ?_ ?_
  · exact (relaysFault_readSource hderived).bind fun source =>
      relaysFault_ite (relaysFault_fail fun _ => rfl) (hafter source)
  · exact (relaysFault_pure _).bind fun source =>
      relaysFault_ite (relaysFault_fail fun _ => rfl) (hafter source)

theorem relaysFault_read (scope : Scope) (levels : Nat) : (read scope levels).RelaysFault := by
  induction levels with
  | zero => exact relaysFault_readQuery (relaysFault_fail fun _ => rfl) scope 0
  | succ levels ih => exact relaysFault_readQuery ih scope (levels + 1)

end Query

/-! ## Statements -/

namespace Statement

theorem relaysFault_readTypeArguments : readTypeArguments.RelaysFault := by
  have hargument : readTypeArgument.RelaysFault := by
    refine relaysFault_expectNext.bind fun t => ?_
    split
    · exact relaysFault_pure _
    · split
      · exact relaysFault_pure _
      · exact relaysFault_unexpected t
    · exact relaysFault_unexpected t
  refine (relaysFault_consumeKind _).bind fun _ => relaysFault_ite ?_ (relaysFault_pure _)
  exact (relaysFault_commaSeparated hargument).bind fun _ =>
    (relaysFault_expectKind _).bind fun _ => relaysFault_pure _

theorem relaysFault_readNullable : readNullable.RelaysFault :=
  (relaysFault_consumeKeyword _).bind fun _ =>
    relaysFault_ite ((relaysFault_expect _).bind fun _ => relaysFault_pure _)
      ((relaysFault_consumeKeyword _).bind fun _ => relaysFault_pure _)

theorem relaysFault_readColumn (ordinal : Nat) : (readColumn ordinal).RelaysFault := by
  refine (relaysFault_expectText _).bind fun name => (relaysFault_expectText _).bind fun type => ?_
  split
  · exact relaysFault_fail fun _ => rfl
  · refine relaysFault_readTypeArguments.bind fun _ => relaysFault_readNullable.bind fun _ => ?_
    exact (relaysFault_peekIs _).bind fun _ =>
      relaysFault_ite (relaysFault_fail fun _ => rfl) (relaysFault_pure _)

theorem relaysFault_readCreate : readCreate.RelaysFault := by
  have hkinds : refuseOtherKinds.RelaysFault := by
    refine relaysFault_expectNext.bind fun t => ?_
    split
    · exact relaysFault_pure _
    · exact relaysFault_fail fun _ => rfl
    · exact relaysFault_fail fun _ => rfl
    · exact relaysFault_unexpected t
  have hcolumns : readColumns.RelaysFault :=
    (relaysFault_separatedNumbered (relaysFault_consumeKind _) fun place =>
      relaysFault_readColumn (place + 1)).bind fun _ => relaysFault_pure _
  refine hkinds.bind fun _ => relaysFault_qualifiedName.bind fun _ => ?_
  exact (relaysFault_expectKind _).bind fun _ => hcolumns.bind fun _ =>
    (relaysFault_expectKind _).bind fun _ => relaysFault_pure _

theorem relaysFault_refuseOtherSources : refuseOtherSources.RelaysFault := by
  refine relaysFault_expectNext.bind fun t => ?_
  split
  · exact relaysFault_pure _
  · exact relaysFault_fail fun _ => rfl
  · exact relaysFault_fail fun _ => rfl
  · exact relaysFault_fail fun _ => rfl
  · exact relaysFault_fail fun _ => rfl
  · exact relaysFault_unexpected t

theorem relaysFault_readRow {expression : Parse Expression}
    (hexpression : expression.RelaysFault) : (readRow expression).RelaysFault := by
  have hvalue : (readValue expression).RelaysFault := hexpression.bind fun e =>
    relaysFault_ofExcept (e.placeless_eval fun _ _ => rfl)
  exact (relaysFault_expectKind _).bind fun _ => (relaysFault_commaSeparated hvalue).bind fun _ =>
    (relaysFault_expectKind _).bind fun _ => relaysFault_pure _

theorem relaysFault_readInsert (scope : Scope) : (readInsert scope).RelaysFault := by
  have hlist : readColumnList?.RelaysFault := by
    refine (relaysFault_consumeKind _).bind fun _ => relaysFault_ite ?_ (relaysFault_pure _)
    exact (relaysFault_commaSeparated relaysFault_qualifiedName).bind fun _ =>
      (relaysFault_expectKind _).bind fun _ => relaysFault_pure _
  have hexpression := Expression.relaysFault_read scope maxNesting
  refine (relaysFault_consumeKeyword _).bind fun _ => relaysFault_qualifiedName.bind fun _ => ?_
  refine hlist.bind fun _ => relaysFault_refuseOtherSources.bind fun _ => ?_
  exact (relaysFault_commaSeparated (relaysFault_readRow hexpression)).bind
    fun _ => relaysFault_pure _

theorem relaysFault_read (scope : Scope) (token : Token) : (read scope token).RelaysFault := by
  unfold read
  split
  · exact (Query.relaysFault_read scope maxNesting).bind fun _ => relaysFault_pure _
  · exact relaysFault_readCreate
  · exact relaysFault_readInsert scope
  · exact relaysFault_ite (relaysFault_fail fun _ => rfl) (relaysFault_unexpected token)
  · exact relaysFault_unexpected token

theorem relaysFault_readOption : readOption.RelaysFault := by
  refine relaysFault_expectNext.bind fun t => ?_
  split
  · exact relaysFault_unexpected t
  · refine relaysFault_ite (relaysFault_expectNext.bind fun value => ?_) ?_
    · exact relaysFault_ite (relaysFault_pure _) (relaysFault_unexpected value)
    · exact relaysFault_fail fun _ => rfl

end Statement
end TransactSql
