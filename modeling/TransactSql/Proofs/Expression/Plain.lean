/-
TransactSql.Proofs.Expression.Plain — what expressions are read.

An expression that is read has no alias anywhere in it, and its values
are literals, the values of parameters and those of system variables
(`yields_read`). Where an alias may follow, it can stand at the root, and
nowhere else (`yields_readAliased`).

`Plain values e` says both at once, for a property of values that the
scope supplies. With a property that every value has, it says that there
is no alias.

A literal is a token of the text. So where the numbers in the tokens have
a property, the literals that are read from them have it too
(`yieldsFrom_read`, `yieldsFrom_readAliased`); with any tokens, only what
every number has can be said.
-/
import TransactSql.Proofs.Parse.Grammar
import TransactSql.Proofs.Parse.Tokens

namespace TransactSql

/-- Every value that an expression can start from has a property. -/
structure Scope.Supplies (scope : Scope) (values : Value → Prop) : Prop where
  number : ∀ number : Number, values number.toValue
  varchar : ∀ text, values (.varchar text)
  nvarchar : ∀ text, values (.nvarchar text)
  null : values (.null .int)
  parameter : ∀ name v, scope.parameter name = .ok v → values v
  systemVariable : ∀ name v, scope.systemVariable name = .ok v → values v

theorem Scope.supplies_any (scope : Scope) : scope.Supplies fun _ => True :=
  ⟨fun _ => trivial, fun _ => trivial, fun _ => trivial, trivial, fun _ _ _ => trivial,
    fun _ _ _ => trivial⟩

/-- Every value that an expression can start from has a property, if its numbers are read from
tokens that have one. -/
structure Scope.SuppliesFrom (scope : Scope) (tokens : Token → Prop) (values : Value → Prop) :
    Prop where
  number : ∀ t number, tokens t → t.kind = .number number → values number.toValue
  varchar : ∀ text, values (.varchar text)
  nvarchar : ∀ text, values (.nvarchar text)
  null : values (.null .int)
  parameter : ∀ name v, scope.parameter name = .ok v → values v
  systemVariable : ∀ name v, scope.systemVariable name = .ok v → values v

theorem Scope.Supplies.suppliesFrom {scope : Scope} {values : Value → Prop}
    (h : scope.Supplies values) : scope.SuppliesFrom (fun _ => True) values :=
  ⟨fun _ number _ _ => h.number number, h.varchar, h.nvarchar, h.null, h.parameter,
    h.systemVariable⟩

namespace Expression

open Parse

/-- The expression has no alias anywhere, and its values have a property. -/
inductive Plain (values : Value → Prop) : Expression → Prop
  | value {v : Value} (h : values v) : Plain values (value v)
  | reference (name : QualifiedName) : Plain values (reference name)
  | parenthesized {inner : Expression} (h : Plain values inner) : Plain values (parenthesized inner)
  | negative {operand : Expression} (h : Plain values operand) : Plain values (negative operand)
  | binary (op : ArithmeticOperator) {left right : Expression} (hleft : Plain values left)
      (hright : Plain values right) : Plain values (binary op left right)
  | call (function : BuiltIn) {argument : Expression} (h : Plain values argument) :
      Plain values (call function argument)

/-- The expression is plain, apart from an alias of the whole. -/
def PlainUpToName (values : Value → Prop) (e : Expression) : Prop :=
  Plain values e ∨ ∃ inner name, e = named inner name ∧ Plain values inner

/-- There is an alias somewhere in the expression. -/
def hasAlias : Expression → Bool
  | value _ => false
  | reference _ => false
  | named _ _ => true
  | parenthesized inner => inner.hasAlias
  | negative operand => operand.hasAlias
  | binary _ left right => left.hasAlias || right.hasAlias
  | call _ argument => argument.hasAlias

variable {tokens : Token → Prop} {values : Value → Prop} {scope : Scope}

theorem Plain.hasAlias_eq_false {e : Expression} (h : Plain values e) : e.hasAlias = false := by
  induction h with
  | value _ => rfl
  | reference _ => rfl
  | parenthesized _ ih => exact ih
  | negative _ ih => exact ih
  | binary _ _ _ ihleft ihright => rw [hasAlias, ihleft, ihright]; rfl
  | call _ _ ih => exact ih

/-! ## Joining -/

theorem Plain.group {left right : Expression} (op : ArithmeticOperator) (hleft : Plain values left)
    (hright : Plain values right) : Plain values (Expression.group op left right) := by
  induction hright with
  | binary next hmiddle hright ih =>
    unfold Expression.group
    split
    · exact .binary op hleft (.binary next hmiddle hright)
    · exact .binary next ih hright
  | value h => exact .binary op hleft (.value h)
  | reference name => exact .binary op hleft (.reference name)
  | parenthesized h => exact .binary op hleft (.parenthesized h)
  | negative h => exact .binary op hleft (.negative h)
  | call function h => exact .binary op hleft (.call function h)

theorem Plain.join_eq {right : Expression} (h : Plain values right) (op : ArithmeticOperator)
    (left : Expression) : Expression.join op left right = Expression.group op left right := by
  cases h <;> rfl

theorem Plain.join {left right : Expression} (op : ArithmeticOperator) (hleft : Plain values left)
    (hright : Plain values right) : Plain values (Expression.join op left right) := by
  rw [hright.join_eq]
  exact hleft.group op hright

theorem PlainUpToName.join {left right : Expression} (op : ArithmeticOperator)
    (hleft : Plain values left) (hright : PlainUpToName values right) :
    PlainUpToName values (Expression.join op left right) := by
  rcases hright with hright | ⟨inner, name, rfl, hinner⟩
  · exact .inl (hleft.join op hright)
  · exact .inr ⟨Expression.join op left inner, name, rfl, hleft.join op hinner⟩

/-! ## Reading -/

theorem yieldsFrom_readArguments {below : Readers}
    (hbelow : (below.expression false).YieldsFrom tokens (Plain values)) :
    (readArguments below).YieldsFrom tokens fun arguments => ∀ e ∈ arguments, Plain values e := by
  refine (yieldsFrom_expect _).bind fun _ _ => (yieldsFrom_consume _).bind fun _ _ =>
    yieldsFrom_ite ?_ ?_
  · exact yieldsFrom_pure (List.forall_mem_nil _)
  · refine (yieldsFrom_commaSeparated hbelow).bind fun arguments harguments => ?_
    exact (yieldsFrom_expect _).bind fun _ _ => yieldsFrom_pure harguments.2

theorem yieldsFrom_readCall {below : Readers}
    (hbelow : (below.expression false).YieldsFrom tokens (Plain values)) (name : QualifiedName) :
    (readCall below name).YieldsFrom tokens (Plain values) := by
  unfold readCall
  split
  · exact yieldsFrom_fail _ _
  · next function _ =>
    refine (yieldsFrom_readArguments hbelow).bind fun arguments harguments => ?_
    split
    · next argument =>
      exact yieldsFrom_pure (.call function (harguments argument List.mem_cons_self))
    · exact yieldsFrom_fail _ _

theorem yieldsFrom_readName {below : Readers}
    (hbelow : (below.expression false).YieldsFrom tokens (Plain values)) (first : String) :
    (readName below first).YieldsFrom tokens (Plain values) := by
  have hafter : ∀ more : QualifiedName, (peekIs (·.kind == .openParen) >>= fun isCall =>
      if isCall then readCall below (first :: more)
      else pure (reference (first :: more))).YieldsFrom tokens (Plain values) := fun more =>
    (yieldsFrom_peekIs _).bind fun _ _ =>
      yieldsFrom_ite (yieldsFrom_readCall hbelow _) (yieldsFrom_pure (.reference _))
  refine (yieldsFrom_consume _).bind fun _ _ => yieldsFrom_ite ?_ ?_
  · exact stopsBefore_qualifiedName.bindFrom hafter
  · exact hafter []

theorem yieldsFrom_readOperand {below : Readers} (hscope : scope.SuppliesFrom tokens values)
    (hbelow : (below.expression false).YieldsFrom tokens (Plain values))
    (hsigned : below.signed.YieldsFrom tokens (Plain values)) :
    (readOperand scope below).YieldsFrom tokens (Plain values) := by
  refine yieldsFrom_expectNext.bind fun token htoken => ?_
  split
  · next number hkind => exact yieldsFrom_pure (.value (hscope.number token number htoken hkind))
  · next text unicode _ =>
    cases unicode with
    | false => exact yieldsFrom_pure (.value (hscope.varchar text))
    | true => exact yieldsFrom_pure (.value (hscope.nvarchar text))
  · exact yieldsFrom_pure (.value hscope.null)
  · next name _ =>
    refine (yieldsFrom_ofExcept fun v hv => ?_).bind fun v hv => yieldsFrom_pure (.value hv)
    exact hscope.parameter name v hv
  · next name _ =>
    refine (yieldsFrom_ofExcept fun v hv => ?_).bind fun v hv => yieldsFrom_pure (.value hv)
    exact hscope.systemVariable name v hv
  · exact hsigned.bind fun _ h => yieldsFrom_pure (.negative h)
  · exact hsigned
  · refine hbelow.bind fun _ h => (yieldsFrom_expect _).bind fun _ _ => ?_
    exact yieldsFrom_pure (.parenthesized h)
  · exact yieldsFrom_readName hbelow _
  · exact yieldsFrom_readName hbelow _
  · exact yieldsFrom_fail _ _

theorem yieldsFrom_readAfter {rest : Parse Expression} {P : Expression → Prop} {left : Expression}
    (hleft : P left) (hrest : rest.YieldsFrom tokens P)
    (hjoin : ∀ op right, P right → P (join op left right)) :
    (readAfter rest left false).YieldsFrom tokens P := by
  refine stopsBefore_nextOperator?.bindFrom fun op? => ?_
  cases op? with
  | none => exact yieldsFrom_pure hleft
  | some op => exact hrest.bind fun right hright => yieldsFrom_pure (hjoin op right hright)

/-- Expressions and signed operands are plain, on every level. -/
theorem yieldsFrom_readers (hscope : scope.SuppliesFrom tokens values) (levels : Nat) :
    ((readers scope levels).expression false).YieldsFrom tokens (Plain values) ∧
      (readers scope levels).signed.YieldsFrom tokens (Plain values) := by
  induction levels with
  | zero => exact ⟨yieldsFrom_fail _ _, yieldsFrom_fail _ _⟩
  | succ levels ih =>
    have hoperand := yieldsFrom_readOperand hscope ih.1 ih.2
    refine ⟨?_, hoperand⟩
    exact hoperand.bind fun left hleft =>
      yieldsFrom_readAfter hleft ih.1 fun op _ hright => hleft.join op hright

theorem yieldsFrom_read (hscope : scope.SuppliesFrom tokens values) (levels : Nat) :
    (read scope levels).YieldsFrom tokens (Plain values) :=
  (yieldsFrom_readers hscope levels).1

theorem yieldsFrom_readAliased (hscope : scope.SuppliesFrom tokens values) (levels : Nat) :
    (readAliased scope levels).YieldsFrom tokens (PlainUpToName values) := by
  unfold readAliased
  induction levels with
  | zero => exact yieldsFrom_fail _ _
  | succ levels ih =>
    obtain ⟨hbelow, hsigned⟩ := yieldsFrom_readers hscope levels
    refine (yieldsFrom_readOperand hscope hbelow hsigned).bind fun left hleft => ?_
    refine (yieldsFrom_consume _).bind fun isNamed _ => ?_
    cases isNamed with
    | true =>
      have halias : StopsBefore Token.EndsStatement expectAlias := .expectAlias
      exact halias.bindFrom fun name => yieldsFrom_pure (.inr ⟨left, name, rfl, hleft⟩)
    | false =>
      exact yieldsFrom_readAfter (.inl hleft) ih fun op _ hright => hright.join op hleft

theorem yields_read (hscope : scope.Supplies values) (levels : Nat) :
    (read scope levels).Yields (Plain values) :=
  (yieldsFrom_read hscope.suppliesFrom levels).yields

theorem yields_readAliased (hscope : scope.Supplies values) (levels : Nat) :
    (readAliased scope levels).Yields (PlainUpToName values) :=
  (yieldsFrom_readAliased hscope.suppliesFrom levels).yields

end Expression
end TransactSql
