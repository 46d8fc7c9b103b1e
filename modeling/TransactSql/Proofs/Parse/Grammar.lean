/-
TransactSql.Proofs.Parse.Grammar — the grammar is built from requests.

Each reader of the grammar stops before the tokens that end what it
reads: an expression before a semicolon and before a reserved word
(`Expression.stopsBefore_read`; with an alias only before a semicolon),
and a statement before a semicolon (`Statement.stopsBefore_read`).

There is one lemma for each reader, and its proof follows the definition
of the reader.
-/
import TransactSql.Proofs.Parse.Requests
import TransactSql.Statement.Grammar

namespace TransactSql

open Parse

/-! ## The tokens that end a reading -/

namespace Token

/-- The token ends a statement. -/
def EndsStatement (t : Token) : Prop := t.kind = .terminator

/-- The token ends an expression behind which no alias may stand: no reserved word goes on with
one. -/
def EndsExpression (t : Token) : Prop :=
  t.kind = .terminator ∨ ∃ keyword, t.kind = .keyword keyword

theorem EndsStatement.endsExpression {t : Token} (h : t.EndsStatement) : t.EndsExpression :=
  .inl h

theorem EndsStatement.kind_eq {t : Token} (h : t.EndsStatement) : t.kind = .terminator := h

theorem EndsStatement.ne_kind {t : Token} (h : t.EndsStatement) (kind : TokenKind)
    (hkind : kind ≠ .terminator) : (t.kind == kind) = false := by
  rw [beq_eq_false_iff_ne, h.kind_eq]
  exact hkind.symm

theorem EndsExpression.ne_kind {t : Token} (h : t.EndsExpression) (kind : TokenKind)
    (hkind : kind ≠ .terminator) (hkind' : ∀ keyword, kind ≠ .keyword keyword) :
    (t.kind == kind) = false := by
  rw [beq_eq_false_iff_ne]
  rcases h with h | ⟨keyword, h⟩ <;> rw [h]
  · exact hkind.symm
  · exact (hkind' keyword).symm

theorem endsExpression_of_isKeyword {t : Token} {keyword : Keyword}
    (h : t.isKeyword keyword = true) : t.EndsExpression :=
  .inr ⟨keyword, by simpa [isKeyword] using h⟩

end Token

open Token (EndsStatement EndsExpression)

namespace Parse

variable {α : Type}

theorem StopsBefore.beforeStatement {p : Parse α} (h : StopsBefore EndsExpression p) :
    StopsBefore EndsStatement p :=
  h.mono fun _ ht => ht.endsExpression

theorem stopsBefore_consumeKind {kind : TokenKind} (h : kind ≠ .terminator) :
    StopsBefore EndsStatement (consumeKind kind) :=
  .consumeKind kind fun _ ht => ht.ne_kind kind h

theorem stopsBefore_consumeKeyword (keyword : Keyword) :
    StopsBefore EndsStatement (consumeKeyword keyword) :=
  .consumeKeyword keyword fun _ ht => ht.ne_kind _ nofun

theorem stopsBefore_commaSeparated {item : Parse α} (h : StopsBefore EndsStatement item) :
    StopsBefore EndsStatement (commaSeparated item) :=
  .commaSeparated (fun _ ht => ht.ne_kind _ nofun) h

theorem stopsBefore_qualifiedName : StopsBefore EndsStatement qualifiedName :=
  .qualifiedName fun _ ht => ht.ne_kind _ nofun

theorem stopsBefore_implicitAlias? : StopsBefore EndsStatement implicitAlias? := by
  refine .nextText? (ignoresPlace fun _ _ _ _ => rfl) fun t ht => ?_
  simp only [Token.aliasText?, Token.identifier?, ht.kind_eq]

end Parse

/-! ## Expressions -/

namespace Expression

theorem stopsBefore_nextOperator? : StopsBefore EndsExpression nextOperator? := by
  refine .nextIf (ignoresPlace fun _ _ _ _ => rfl) (ignoresPlace fun _ _ _ _ => rfl)
    (fun t ht => ?_) fun _ => .answer _
  rcases ht with h | ⟨_, h⟩ <;> simp [Token.arithmeticOperator?, h]

theorem stopsBefore_readArguments {below : Readers}
    (hbelow : StopsBefore EndsExpression (below.expression false)) :
    StopsBefore EndsExpression (readArguments below) := by
  refine .expectKind_then _ (.bind (.consumeKind _ fun t ht => ?_) fun _ => .ite (.answer _) ?_)
  · exact ht.ne_kind _ nofun nofun
  · refine .bind (.commaSeparated (fun t ht => ?_) hbelow) fun _ => .expectKind_then _ (.answer _)
    exact ht.ne_kind _ nofun nofun

theorem stopsBefore_readCall {below : Readers}
    (hbelow : StopsBefore EndsExpression (below.expression false)) (name : QualifiedName) :
    StopsBefore EndsExpression (readCall below name) := by
  unfold readCall
  split
  · exact .fail _
  · refine .bind (stopsBefore_readArguments hbelow) fun arguments => ?_
    split
    · exact .answer _
    · exact .fail _

theorem consumes_readCall (below : Readers) (name : QualifiedName) :
    (readCall below name).Consumes := by
  unfold readCall
  split
  · exact consumes_fail _
  · exact ((consumes_expectKind _).bind _).bind _

theorem stopsBefore_readName {below : Readers}
    (hbelow : StopsBefore EndsExpression (below.expression false)) (first : String) :
    StopsBefore EndsExpression (readName below first) := by
  have hdot : ∀ t : Token, t.EndsExpression → t.isOperator '.' = false :=
    fun t ht => ht.ne_kind _ nofun nofun
  have hrest : ∀ name : QualifiedName, StopsBefore EndsExpression
      (peekIs (·.kind == .openParen) >>= fun isCall =>
        if isCall then readCall below name else pure (.reference name)) := by
    intro name
    refine .peekIs_bind (ignoresPlace fun _ _ _ _ => rfl)
      (fun t ht => ht.ne_kind _ nofun nofun) (consumes_readCall below name) fun _ => ?_
    exact .ite (stopsBefore_readCall hbelow name) (.answer _)
  refine .bind (.consume (ignoresPlace fun _ _ _ _ => rfl) hdot) fun _ => ?_
  exact .ite (.bind (.qualifiedName hdot) fun more => hrest (first :: more))
    (.bind (.answer _) fun more => hrest (first :: more))

theorem stopsBefore_readOperand {below : Readers}
    (hbelow : StopsBefore EndsExpression (below.expression false))
    (hsigned : StopsBefore EndsExpression below.signed) (scope : Scope) :
    StopsBefore EndsExpression (readOperand scope below) := by
  refine .expectNext (ignoresPlace fun _ _ _ _ => rfl) fun t => ?_
  split
  · exact .answer _
  · exact .answer _
  · exact .answer _
  · exact .bind (.ofExcept _) fun _ => .answer _
  · exact .bind (.ofExcept _) fun _ => .answer _
  · exact .bind hsigned fun _ => .answer _
  · exact hsigned
  · exact .bind hbelow fun _ => .expectKind_then _ (.answer _)
  · exact stopsBefore_readName hbelow _
  · exact stopsBefore_readName hbelow _
  · exact .fail _

/-- What follows an operand: its alias, or an operator and the rest, or nothing. -/
def readAfter (rest : Parse Expression) (left : Expression) (isNamed : Bool) : Parse Expression :=
  if isNamed then do
    let name ← expectAlias
    pure (.named left name)
  else do
    match ← nextOperator? with
    | none => pure left
    | some op => do
      let right ← rest
      pure (join op left right)

theorem read_succ (scope : Scope) (levels : Nat) :
    read scope (levels + 1) = readOperand scope (readers scope levels) >>=
      fun left => readAfter (read scope levels) left false := rfl

theorem readAliased_succ (scope : Scope) (levels : Nat) :
    readAliased scope (levels + 1) = readOperand scope (readers scope levels) >>=
      fun left => consumeKeyword .AS >>= readAfter (readAliased scope levels) left := rfl

theorem stopsBefore_readAfter {stop : Token → Prop} {rest : Parse Expression}
    (hstop : ∀ t, stop t → t.EndsExpression) (hrest : StopsBefore stop rest) (left : Expression)
    (isNamed : Bool) : StopsBefore stop (readAfter rest left isNamed) := by
  refine .ite (.bind .expectAlias fun _ => .answer _) ?_
  refine .bind (stopsBefore_nextOperator?.mono hstop) fun op => ?_
  cases op with
  | none => exact .answer _
  | some op => exact .bind hrest fun _ => .answer _

/-- Expressions and signed operands stop before what ends an expression, on every level. -/
theorem stopsBefore_readers (scope : Scope) (levels : Nat) :
    StopsBefore EndsExpression ((readers scope levels).expression false) ∧
      StopsBefore EndsExpression (readers scope levels).signed := by
  induction levels with
  | zero => exact ⟨.fail _, .fail _⟩
  | succ levels ih =>
    have hoperand := stopsBefore_readOperand ih.1 ih.2 scope
    refine ⟨?_, hoperand⟩
    exact .bind hoperand fun left => stopsBefore_readAfter (fun _ => id) ih.1 left false

theorem stopsBefore_read (scope : Scope) (levels : Nat) :
    StopsBefore EndsExpression (read scope levels) :=
  (stopsBefore_readers scope levels).1

/-- With an alias an expression stops before what ends a statement. -/
theorem stopsBefore_readAliased (scope : Scope) (levels : Nat) :
    StopsBefore EndsStatement (readAliased scope levels) := by
  induction levels with
  | zero => exact .fail _
  | succ levels ih =>
    obtain ⟨hbelow, hsigned⟩ := stopsBefore_readers scope levels
    have hoperand := (stopsBefore_readOperand hbelow hsigned scope).beforeStatement
    rw [readAliased_succ]
    refine .bind hoperand fun left => .bind (stopsBefore_consumeKeyword _) ?_
    exact stopsBefore_readAfter (fun _ ht => ht.endsExpression) ih left

end Expression

/-! ## Conditions -/

namespace Predicate

theorem stopsBefore_readComparison {stop : Token → Prop} {expression : Parse Expression}
    (hstop : ∀ t, stop t → t.EndsExpression) (hexpression : StopsBefore stop expression) :
    StopsBefore stop (readComparison expression) := by
  refine .bind hexpression fun _ => .bind (.comparison fun t ht symbol => ?_) fun _ => ?_
  · exact (hstop t ht).ne_kind _ nofun nofun
  · exact .bind hexpression fun _ => .answer _

theorem stopsBefore_readConjunction {expression : Parse Expression}
    (hexpression : StopsBefore EndsStatement expression) :
    StopsBefore EndsStatement (readConjunction expression) := by
  have hcomparison := stopsBefore_readComparison (fun _ ht => ht.endsExpression) hexpression
  exact .bind (.separated (stopsBefore_consumeKeyword _) hcomparison) fun _ => .answer _

theorem stopsBefore_read (scope : Scope) (levels : Nat) :
    StopsBefore EndsStatement (read scope levels) := by
  have hexpression := (Expression.stopsBefore_read scope levels).beforeStatement
  exact .bind (.separated (stopsBefore_consumeKeyword _) (stopsBefore_readConjunction hexpression))
    fun _ => .answer _

end Predicate

/-! ## Queries -/

namespace Query

theorem stopsBefore_readLimitExpression (scope : Scope) (levels : Nat) :
    StopsBefore EndsStatement (readLimitExpression scope levels) := by
  refine .bind (stopsBefore_consumeKind nofun) fun _ => .ite ?_ ?_
  · have hexpression := (Expression.stopsBefore_read scope levels).beforeStatement
    exact .bind hexpression fun _ => .expectKind_then _ (.answer _)
  · refine .expectNext (ignoresPlace fun _ _ _ _ => rfl) fun t => ?_
    split
    · exact .answer _
    · exact .bind (.ofExcept _) fun _ => .answer _
    · exact .fail _

theorem stopsBefore_readLimit? (scope : Scope) (levels : Nat) :
    StopsBefore EndsStatement (readLimit? scope levels) := by
  refine .bind (stopsBefore_consumeKeyword _) fun _ => .ite ?_ (.answer _)
  refine .bind (stopsBefore_readLimitExpression scope levels) fun _ => ?_
  exact .bind (.ofExcept _) fun _ => .answer _

theorem stopsBefore_readItem (scope : Scope) (levels : Nat) :
    StopsBefore EndsStatement (readItem scope levels) := by
  refine .bind (.consume (ignoresPlace fun _ _ _ _ => rfl) fun t ht => ?_) fun _ => ?_
  · exact ht.ne_kind _ nofun
  refine .ite (.answer _) (.bind (Expression.stopsBefore_readAliased scope levels) fun e => ?_)
  refine .ite (.answer _) (.bind stopsBefore_implicitAlias? fun name? => ?_)
  cases name? with
  | none => exact .answer _
  | some name => exact .answer _

theorem stopsBefore_readSourceAlias? : StopsBefore EndsStatement readSourceAlias? := by
  refine .bind (stopsBefore_consumeKeyword _) fun _ => .ite ?_ ?_
  · exact .bind .expectIdentifier fun _ => .answer _
  · refine .nextText? (ignoresPlace fun _ _ _ _ => rfl) fun t ht => ?_
    simp only [Token.identifier?, ht.kind_eq]

theorem stopsBefore_readSingle {derived : Parse Query}
    (hderived : StopsBefore EndsStatement derived) :
    StopsBefore EndsStatement (readSource.readSingle derived) := by
  refine .bind (stopsBefore_consumeKind nofun) fun _ => .ite ?_ ?_
  · refine .expectKeyword_bind _ (fun _ _ _ => rfl) fun _ => .bind hderived fun query => ?_
    refine .expectKind_bind _ (ignoresPlace fun _ _ _ _ => rfl) fun close => ?_
    refine .bind stopsBefore_readSourceAlias? fun name? => ?_
    cases name? with
    | none => exact .fail _
    | some name => exact .answer _
  · refine .bind stopsBefore_qualifiedName fun _ => ?_
    exact .bind stopsBefore_readSourceAlias? fun _ => .answer _

theorem stopsBefore_readSource {derived : Parse Query}
    (hderived : StopsBefore EndsStatement derived) :
    StopsBefore EndsStatement (readSource derived) := by
  refine .bind (stopsBefore_readSingle hderived) fun _ => ?_
  refine .refuse (ignoresPlace fun _ _ _ _ => rfl) (fun t ht => ?_) (.answer _)
  simp [beginsJoin, Token.isKeyword, ht.kind_eq]

theorem stopsBefore_refuseQuantifier : StopsBefore EndsStatement refuseQuantifier := by
  refine .refuse (ignoresPlace fun _ _ _ _ => rfl) (fun t ht => ?_) (.answer _)
  simp [Token.isKeyword, ht.kind_eq]

theorem stopsBefore_refuseClause : StopsBefore EndsStatement refuseClause := by
  refine .peek (ignoresPlace fun _ _ _ _ => rfl) (fun t ht => ?_) (fun t => ?_) fun t => ?_
  · simp only [Option.bind_some, refusedClause?, ht.kind_eq, Option.bind_none]
  · cases h : refusedClause? t with
    | none => exact .inl (by simp only [Option.bind_some, h, Option.bind_none])
    | some feature => exact .inr (by simpa only [Option.bind_some, h] using consumes_fail _)
  · split
    · exact .fail _
    · exact .answer _

theorem stopsBefore_readFilter? (scope : Scope) (levels : Nat) :
    StopsBefore EndsStatement (readQuery.readFilter? scope levels) :=
  .bind (stopsBefore_consumeKeyword _) fun _ =>
    .ite (.bind (Predicate.stopsBefore_read scope levels) fun _ => .answer _) (.answer _)

theorem stopsBefore_readQuery {derived : Parse Query}
    (hderived : StopsBefore EndsStatement derived) (scope : Scope) (levels : Nat) :
    StopsBefore EndsStatement (readQuery scope levels derived) := by
  refine .bind stopsBefore_refuseQuantifier fun _ => ?_
  refine .bind (stopsBefore_readLimit? scope levels) fun limit => ?_
  refine .bind (stopsBefore_commaSeparated (stopsBefore_readItem scope levels)) fun items => ?_
  have hafter : ∀ source : Source, StopsBefore EndsStatement
      (readQuery.readFilter? scope levels >>= fun filter => refuseClause >>= fun _ =>
        pure (⟨⟨limit, items, filter⟩, source⟩ : Query)) := fun source =>
    .bind (stopsBefore_readFilter? scope levels) fun _ =>
      .bind stopsBefore_refuseClause fun _ => .answer _
  refine .bind (stopsBefore_consumeKeyword _) fun _ => .ite ?_ ?_
  · exact .bind (stopsBefore_readSource hderived) fun source => .ite (.fail _) (hafter source)
  · exact .bind (.answer _) fun source => .ite (.fail _) (hafter source)

theorem stopsBefore_read (scope : Scope) (levels : Nat) :
    StopsBefore EndsStatement (read scope levels) := by
  induction levels with
  | zero => exact stopsBefore_readQuery (.fail _) scope 0
  | succ levels ih => exact stopsBefore_readQuery ih scope (levels + 1)

end Query

/-! ## Statements -/

namespace Statement

theorem stopsBefore_readTypeArgument : StopsBefore EndsStatement readTypeArgument := by
  refine .expectNext (ignoresPlace fun _ _ _ _ => rfl) fun t => ?_
  split
  · exact .answer _
  · exact .ite (.answer _) (.fail _)
  · exact .fail _

theorem stopsBefore_readTypeArguments : StopsBefore EndsStatement readTypeArguments := by
  refine .bind (stopsBefore_consumeKind nofun) fun _ => .ite ?_ (.answer _)
  refine .bind (stopsBefore_commaSeparated stopsBefore_readTypeArgument) fun _ => ?_
  exact .expectKind_then _ (.answer _)

theorem stopsBefore_readNullable : StopsBefore EndsStatement readNullable := by
  refine .bind (stopsBefore_consumeKeyword _) fun _ => .ite ?_ ?_
  · exact .expectKeyword_bind _ (fun _ _ _ => rfl) fun _ => .answer _
  · exact .bind (stopsBefore_consumeKeyword _) fun _ => .answer _

theorem stopsBefore_readColumn (ordinal : Nat) :
    StopsBefore EndsStatement (readColumn ordinal) := by
  refine .bind .expectIdentifier fun name => .bind .expectIdentifier fun typeName => ?_
  cases DataType.ofName? typeName with
  | none => exact .fail _
  | some type =>
    refine .bind stopsBefore_readTypeArguments fun _ => .bind stopsBefore_readNullable fun _ => ?_
    refine .refuse (ignoresPlace fun _ _ _ _ => rfl) (fun t ht => ?_) (.answer _)
    simp [beginsConstraint, Token.isKeyword, ht.kind_eq]

theorem stopsBefore_readColumns : StopsBefore EndsStatement readColumns := by
  have hseparator : StopsBefore EndsStatement (consumeKind .comma) := stopsBefore_consumeKind nofun
  exact .bind (.separatedNumbered hseparator fun _ => stopsBefore_readColumn _) fun _ => .answer _

theorem stopsBefore_refuseOtherKinds : StopsBefore EndsStatement refuseOtherKinds := by
  refine .expectNext (ignoresPlace fun _ _ _ _ => rfl) fun t => ?_
  split
  · exact .answer _
  all_goals exact .fail _

theorem stopsBefore_readCreate : StopsBefore EndsStatement readCreate := by
  refine .bind stopsBefore_refuseOtherKinds fun _ => .bind stopsBefore_qualifiedName fun _ => ?_
  refine .expectKind_then _ (.bind stopsBefore_readColumns fun _ => ?_)
  exact .expectKind_then _ (.answer _)

theorem stopsBefore_readColumnList? : StopsBefore EndsStatement readColumnList? := by
  refine .bind (stopsBefore_consumeKind nofun) fun _ => .ite ?_ (.answer _)
  refine .bind (stopsBefore_commaSeparated stopsBefore_qualifiedName) fun _ => ?_
  exact .expectKind_then _ (.answer _)

theorem stopsBefore_refuseOtherSources : StopsBefore EndsStatement refuseOtherSources := by
  refine .expectNext (ignoresPlace fun _ _ _ _ => rfl) fun t => ?_
  split
  · exact .answer _
  all_goals exact .fail _

theorem stopsBefore_readRow {expression : Parse Expression}
    (hexpression : StopsBefore EndsStatement expression) :
    StopsBefore EndsStatement (readRow expression) := by
  have hvalue : StopsBefore EndsStatement (readValue expression) :=
    .bind hexpression fun _ => .ofExcept _
  refine .expectKind_then _ (.bind (stopsBefore_commaSeparated hvalue) fun _ => ?_)
  exact .expectKind_then _ (.answer _)

theorem stopsBefore_readInsert (scope : Scope) : StopsBefore EndsStatement (readInsert scope) := by
  have hexpression := (Expression.stopsBefore_read scope maxNesting).beforeStatement
  refine .bind (stopsBefore_consumeKeyword _) fun _ => .bind stopsBefore_qualifiedName fun _ => ?_
  refine .bind stopsBefore_readColumnList? fun _ => .bind stopsBefore_refuseOtherSources fun _ => ?_
  exact .bind (stopsBefore_commaSeparated (stopsBefore_readRow hexpression)) fun _ => .answer _

/-- A statement stops before what ends it. -/
theorem stopsBefore_read (scope : Scope) (token : Token) :
    StopsBefore EndsStatement (read scope token) := by
  unfold read
  split
  · exact .bind (Query.stopsBefore_read scope maxNesting) fun _ => .answer _
  · exact stopsBefore_readCreate
  · exact stopsBefore_readInsert scope
  · exact .ite (.fail _) (.fail _)
  · exact .fail _

theorem stopsBefore_readOption : StopsBefore EndsStatement readOption := by
  refine .expectNext (ignoresPlace fun _ _ _ _ => rfl) fun t => ?_
  split
  · exact .fail _
  · refine .ite (.expectNext (ignoresPlace fun _ _ _ _ => rfl) fun value => ?_) (.fail _)
    exact .ite (.answer _) (.fail _)

end Statement
end TransactSql
