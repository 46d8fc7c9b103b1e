/-
TransactSql.Proofs.Expression.Leaves — what an expression is computed from.

The leaves of an expression are its literals and its references to
columns; everything above them is computed. `operands` are the
expressions right below a node, and `nodes` are all expressions from a
node down. With `induction_operands` a statement about expressions has
one case, that of a node of which it is known what holds of its operands.

Of an expression that is read, the literals have every property that the
scope supplies (`PlainUpToName.literals`). If the operations keep such a
property, and the cells of the row have it too, then so has the value
(`Literals.eval`). Being well formed is one (`isWellFormed_eval`).
-/
import TransactSql.Proofs.Expression.Plain
import TransactSql.Proofs.Value.WellFormed

namespace TransactSql

namespace Expression

/-- The literals and the references of an expression, from left to right. -/
def leaves : Expression → List Expression
  | value v => [value v]
  | reference name => [reference name]
  | named inner _ => inner.leaves
  | parenthesized inner => inner.leaves
  | negative operand => operand.leaves
  | binary _ left right => left.leaves ++ right.leaves
  | call _ argument => argument.leaves

/-- The expressions whose values an expression is computed from; a leaf has none. -/
def operands : Expression → List Expression
  | value _ => []
  | reference _ => []
  | named inner _ => [inner]
  | parenthesized inner => [inner]
  | negative operand => [operand]
  | binary _ left right => [left, right]
  | call _ argument => [argument]

/-- The expression and all that stands below it. -/
def nodes : Expression → List Expression
  | value v => [value v]
  | reference name => [reference name]
  | named inner name => named inner name :: inner.nodes
  | parenthesized inner => parenthesized inner :: inner.nodes
  | negative operand => negative operand :: operand.nodes
  | binary op left right => binary op left right :: (left.nodes ++ right.nodes)
  | call function argument => call function argument :: argument.nodes

/-- What holds of a node whenever it holds of its operands holds of every expression. -/
theorem induction_operands {P : Expression → Prop}
    (h : ∀ e : Expression, (∀ operand ∈ e.operands, P operand) → P e) (e : Expression) : P e := by
  induction e with
  | value | reference => exact h _ (List.forall_mem_nil P)
  | named _ _ ih | parenthesized _ ih | negative _ ih | call _ _ ih =>
    exact h _ (List.forall_mem_singleton.mpr ih)
  | binary _ _ _ ihleft ihright =>
    exact h _ (List.forall_mem_cons.mpr ⟨ihleft, List.forall_mem_singleton.mpr ihright⟩)

theorem leaves_of_leaf {e : Expression} (h : e.operands = []) : e.leaves = [e] := by
  cases e with
  | value | reference => rfl
  | _ => cases h

theorem leaves_of_operands {e : Expression} (h : e.operands ≠ []) :
    e.leaves = e.operands.flatMap leaves := by
  cases e with
  | value | reference => exact absurd rfl h
  | _ => simp [leaves, operands]

theorem nodes_eq (e : Expression) : e.nodes = e :: e.operands.flatMap nodes := by
  cases e <;> simp [nodes, operands]

/-- Every literal of the expression has a property. -/
def Literals (values : Value → Prop) (e : Expression) : Prop :=
  ∀ v, value v ∈ e.leaves → values v

variable {values : Value → Prop} {row : Lookup} {op : ArithmeticOperator}
  {e left right : Expression}

@[simp] theorem literals_value {v : Value} : (value v).Literals values ↔ values v := by
  simp [Literals, leaves]

@[simp] theorem literals_reference (name : QualifiedName) : (reference name).Literals values := by
  simp [Literals, leaves]

@[simp] theorem literals_named {name : String} :
    (named e name).Literals values ↔ e.Literals values := Iff.rfl

@[simp] theorem literals_parenthesized :
    (parenthesized e).Literals values ↔ e.Literals values := Iff.rfl

@[simp] theorem literals_negative : (negative e).Literals values ↔ e.Literals values := Iff.rfl

@[simp] theorem literals_call {function : BuiltIn} :
    (call function e).Literals values ↔ e.Literals values := Iff.rfl

@[simp] theorem literals_binary :
    (binary op left right).Literals values ↔ left.Literals values ∧ right.Literals values := by
  simp only [Literals, leaves, List.mem_append, or_imp, forall_and]

theorem Plain.literals (h : Plain values e) : e.Literals values := by
  induction h with
  | value hvalue => exact literals_value.mpr hvalue
  | reference name => exact literals_reference name
  | parenthesized _ ih => exact literals_parenthesized.mpr ih
  | negative _ ih => exact literals_negative.mpr ih
  | binary _ _ _ ihleft ihright => exact literals_binary.mpr ⟨ihleft, ihright⟩
  | call _ _ ih => exact literals_call.mpr ih

theorem PlainUpToName.literals (h : PlainUpToName values e) : e.Literals values := by
  rcases h with hplain | ⟨inner, name, rfl, hinner⟩
  · exact hplain.literals
  · exact literals_named.mpr hinner.literals

/-! ## Properties of values -/

end Expression

/-- Whatever an expression does with values keeps the property. -/
structure Value.Kept (values : Value → Prop) : Prop where
  negate : ∀ {v w : Value}, v.negate = .ok w → values v → values w
  apply : ∀ {op : ArithmeticOperator} {left right result : Value},
    left.apply op right = .ok result → values left → values right → values result
  function : ∀ {function : BuiltIn} {v w : Value}, function.apply v = .ok w → values v → values w

theorem Value.isWellFormed_kept : Value.Kept fun v => v.isWellFormed = true where
  negate := Value.isWellFormed_negate
  apply h _ _ := Value.isWellFormed_apply h
  function h _ := Value.isWellFormed_function h

namespace Expression

variable {values : Value → Prop} {row : Lookup} {e : Expression}

/-- The value of an expression has a property if its literals and the cells of the row have it. -/
theorem Literals.eval {v : Value} (h : e.Literals values) (hkept : Value.Kept values)
    (hrow : ∀ name v, row name = .ok v → values v) (heval : e.eval row = .ok v) : values v := by
  induction e generalizing v with
  | value w =>
    cases heval
    exact literals_value.mp h
  | reference name => exact hrow name v heval
  | named _ _ ih => exact ih (literals_named.mp h) heval
  | parenthesized _ ih => exact ih (literals_parenthesized.mp h) heval
  | negative _ ih =>
    obtain ⟨w, hw, hneg⟩ := bind_eq_ok.mp heval
    exact hkept.negate hneg (ih (literals_negative.mp h) hw)
  | binary op _ _ ihleft ihright =>
    obtain ⟨hleft, hright⟩ := literals_binary.mp h
    obtain ⟨l, hl, heval⟩ := bind_eq_ok.mp heval
    obtain ⟨r, hr, happly⟩ := bind_eq_ok.mp heval
    exact hkept.apply happly (ihleft hleft hl) (ihright hright hr)
  | call function _ ih =>
    obtain ⟨w, hw, happly⟩ := bind_eq_ok.mp heval
    exact hkept.function happly (ih (literals_call.mp h) hw)

/-- The value of an expression is well formed if its literals and the cells of the row are. -/
theorem isWellFormed_eval {v : Value} (h : e.Literals fun v => v.isWellFormed = true)
    (hrow : ∀ name v, row name = .ok v → v.isWellFormed = true) (heval : e.eval row = .ok v) :
    v.isWellFormed = true :=
  h.eval Value.isWellFormed_kept hrow heval

end Expression
end TransactSql
