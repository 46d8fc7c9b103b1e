/-
TransactSql.Proofs.Expression.Typing — the type of an expression.

An expression has a type before it is computed in any row: a literal has
its own, a reference that of its column, and an operator the common type
of its operands (`type?`). It has one exactly if at every operator the
types of the operands have a common one (`exists_type?_iff`).

In a row whose cells have the types of their columns, every value of the
expression has this type, whether something in it is NULL or not
(`hasType_eval`). A NULL gets its type in other branches than a number or
a text does; that both agree is shown for each operation on its own. What
can go wrong is then about the values, and not that two of them have no
common type (`noMismatch_eval`).
-/
import TransactSql.Proofs.Expression.Leaves
import TransactSql.Proofs.Value.Failures

namespace TransactSql

/-- The value is of the type, and it is well formed. -/
structure Value.HasType (type : DataType) (v : Value) : Prop where
  type : v.type = type
  wellFormed : v.isWellFormed = true

/-- The computation does not fail because two values have no common type. -/
abbrev NoMismatch {α : Type} (x : Except Error α) : Prop :=
  FailsWith (fun e => ∀ op left right, e ≠ .noCommonType op left right) x

theorem FailsOnValues.noMismatch {α : Type} {x : Except Error α} (h : FailsOnValues x) :
    NoMismatch x := by
  rintro e he op left right rfl
  cases h _ he

/-! ## Operators, signs and functions -/

namespace Value

variable {op : ArithmeticOperator} {type common : DataType} {v w left right : Value}

/-- The result of an operator is of the common type, also if an operand is NULL. -/
theorem hasType_apply (hcommon : DataType.common? left.type right.type = some common)
    (h : apply op left right = .ok v) : v.HasType common := by
  refine ⟨?_, isWellFormed_apply h⟩
  rw [apply, applyWith, hcommon] at h
  dsimp only at h
  split at h
  · split at h
    · obtain ⟨l, -, h⟩ := bind_eq_ok.mp h
      obtain ⟨r, -, h⟩ := bind_eq_ok.mp h
      obtain ⟨s, -, h⟩ := bind_eq_ok.mp h
      cases h
      rfl
    · cases h
  · cases h
    rfl

theorem type_negate (h : v.negate = .ok w) : w.type = v.type := by
  unfold negate at h
  split at h
  · cases h
    rfl
  · obtain ⟨s, -, h⟩ := bind_eq_ok.mp h
    cases h
    rfl
  · obtain ⟨s, -, h⟩ := bind_eq_ok.mp h
    cases h
    rfl
  · cases h
    rfl
  · cases h

theorem HasType.negate (hv : v.HasType type) (h : v.negate = .ok w) : w.HasType type :=
  ⟨(type_negate h).trans hv.type, isWellFormed_negate h hv.wellFormed⟩

/-- A number is of one type only. -/
theorem type_eq_naturalType {s r : Scalar} (hv : v.isWellFormed = true) (hs : v.scalar = some s)
    (hnumber : s.rank ≠ 3) (hsame : r.rank = s.rank) : r.naturalType = v.type := by
  rw [isWellFormed_of_some hs, ← Scalar.fits_eq_of_rank_eq hsame] at hv
  rw [← hsame] at hnumber
  generalize v.type = type at hv
  cases r <;> cases type <;> first | rfl | exact absurd rfl hnumber | cases hv

/-- The absolute value gets the type that its number has by nature, and that is the type of the
operand. -/
theorem type_abs (hv : v.isWellFormed = true) (h : v.abs = .ok w) : w.type = v.type := by
  unfold abs at h
  split at h
  · cases h
    rfl
  · rename_i hs
    obtain ⟨s, hresult, h⟩ := bind_eq_ok.mp h
    cases h
    have hrank := Scalar.rank_ofInt32? (Scalar.orOverflow_eq_ok.mp hresult)
    exact type_eq_naturalType hv hs nofun hrank
  · rename_i hs
    obtain ⟨s, hresult, h⟩ := bind_eq_ok.mp h
    cases h
    have hrank := Scalar.rank_ofInt64? (Scalar.orOverflow_eq_ok.mp hresult)
    exact type_eq_naturalType hv hs nofun hrank
  · rename_i hs
    cases h
    exact type_eq_naturalType (r := .float _) hv hs nofun rfl
  · cases h

end Value

/-- The type of what a function answers for an argument of a type. -/
def BuiltIn.resultType : BuiltIn → DataType → DataType
  | abs, type => type
  | datalength, _ => .int

theorem Value.HasType.function {function : BuiltIn} {type : DataType} {v w : Value}
    (hv : v.HasType type) (h : function.apply v = .ok w) :
    w.HasType (function.resultType type) := by
  refine ⟨?_, Value.isWellFormed_function h⟩
  cases function with
  | abs => exact (Value.type_abs hv.wellFormed h).trans hv.type
  | datalength =>
    cases h
    unfold dataLengthWith
    split <;> rfl

/-! ## Expressions -/

namespace Expression

/-- The type of an expression over columns of these types. -/
def type? (columns : QualifiedName → DataType) : Expression → Option DataType
  | value v => some v.type
  | reference name => some (columns name)
  | named inner _ => inner.type? columns
  | parenthesized inner => inner.type? columns
  | negative operand => operand.type? columns
  | binary _ left right => do
    let l ← left.type? columns
    let r ← right.type? columns
    DataType.common? l r
  | call function argument => (argument.type? columns).map function.resultType

/-- At every operator in the expression, the operands have types, and these have a common one. -/
def WellTyped (columns : QualifiedName → DataType) (e : Expression) : Prop :=
  ∀ op left right, binary op left right ∈ e.nodes → ∃ l r common,
    left.type? columns = some l ∧ right.type? columns = some r ∧
      DataType.common? l r = some common

variable {columns : QualifiedName → DataType} {row : Lookup} {type : DataType}
  {op : ArithmeticOperator} {e left right : Expression} {v : Value}

theorem type?_binary : (binary op left right).type? columns = some type ↔ ∃ l r,
    left.type? columns = some l ∧ right.type? columns = some r ∧
      DataType.common? l r = some type := by
  simp [type?, Option.bind_eq_some_iff]

/-- An expression has a type exactly if the operands of every operator go together. -/
theorem exists_type?_iff : (∃ type, e.type? columns = some type) ↔ e.WellTyped columns := by
  induction e with
  | value | reference => simp [type?, WellTyped, nodes]
  | named _ _ ih | parenthesized _ ih | negative _ ih => simpa [type?, WellTyped, nodes] using ih
  | call _ _ ih => simpa [type?, WellTyped, nodes, Option.map_eq_some_iff] using ih
  | binary op left right ihleft ihright =>
    simp only [type?_binary]
    constructor
    · rintro ⟨type, l, r, hl, hr, hcommon⟩ op' left' right' hnode
      rw [nodes, List.mem_cons, List.mem_append] at hnode
      rcases hnode with hroot | hleft | hright
      · cases hroot
        exact ⟨l, r, type, hl, hr, hcommon⟩
      · exact ihleft.mp ⟨l, hl⟩ op' left' right' hleft
      · exact ihright.mp ⟨r, hr⟩ op' left' right' hright
    · intro h
      obtain ⟨l, r, type, hl, hr, hcommon⟩ := h op left right List.mem_cons_self
      exact ⟨type, l, r, hl, hr, hcommon⟩

end Expression

/-- Every cell that a name stands for has the type of its column, and no cell is the result of
joining values without a common type. -/
structure Lookup.HasTypes (columns : QualifiedName → DataType) (row : Lookup) : Prop where
  cells : ∀ name v, row name = .ok v → v.HasType (columns name)
  failures : ∀ name, NoMismatch (row name)

namespace Expression

variable {columns : QualifiedName → DataType} {row : Lookup} {type : DataType} {e : Expression}
  {v : Value}

/-- Every value of an expression is of the type of the expression. -/
theorem hasType_eval (hvalues : e.Literals fun v => v.isWellFormed = true)
    (hrow : row.HasTypes columns) (htype : e.type? columns = some type)
    (h : e.eval row = .ok v) : v.HasType type := by
  induction e generalizing type v with
  | value w =>
    cases htype
    cases h
    exact ⟨rfl, literals_value.mp hvalues⟩
  | reference name =>
    cases htype
    exact hrow.cells name v h
  | named _ _ ih => exact ih (literals_named.mp hvalues) htype h
  | parenthesized _ ih => exact ih (literals_parenthesized.mp hvalues) htype h
  | negative _ ih =>
    obtain ⟨w, hw, h⟩ := bind_eq_ok.mp h
    exact (ih (literals_negative.mp hvalues) htype hw).negate h
  | binary op _ _ ihleft ihright =>
    obtain ⟨hvaluesLeft, hvaluesRight⟩ := literals_binary.mp hvalues
    obtain ⟨l, hl, h⟩ := bind_eq_ok.mp h
    obtain ⟨r, hr, h⟩ := bind_eq_ok.mp h
    obtain ⟨typeLeft, typeRight, htypeLeft, htypeRight, hcommon⟩ := type?_binary.mp htype
    rw [← (ihleft hvaluesLeft htypeLeft hl).type, ← (ihright hvaluesRight htypeRight hr).type]
      at hcommon
    exact Value.hasType_apply hcommon h
  | call function _ ih =>
    obtain ⟨typeArgument, htypeArgument, rfl⟩ := Option.map_eq_some_iff.mp htype
    obtain ⟨w, hw, h⟩ := bind_eq_ok.mp h
    exact (ih (literals_call.mp hvalues) htypeArgument hw).function h

/-- An expression that has a type never comes to two values without a common type. -/
theorem noMismatch_eval (hvalues : e.Literals fun v => v.isWellFormed = true)
    (hrow : row.HasTypes columns) (htype : e.type? columns = some type) :
    NoMismatch (e.eval row) := by
  induction e generalizing type with
  | value w => exact failsWith_ok _ w
  | reference name => exact hrow.failures name
  | named _ _ ih => exact ih (literals_named.mp hvalues) htype
  | parenthesized _ ih => exact ih (literals_parenthesized.mp hvalues) htype
  | negative _ ih =>
    refine (ih (literals_negative.mp hvalues) htype).bind fun w _ => ?_
    exact w.failsWith_negate.noMismatch
  | binary op _ _ ihleft ihright =>
    obtain ⟨hvaluesLeft, hvaluesRight⟩ := literals_binary.mp hvalues
    obtain ⟨typeLeft, typeRight, htypeLeft, htypeRight, hcommon⟩ := type?_binary.mp htype
    refine (ihleft hvaluesLeft htypeLeft).bind fun l hl => ?_
    refine (ihright hvaluesRight htypeRight).bind fun r hr => ?_
    rw [← (hasType_eval hvaluesLeft hrow htypeLeft hl).type,
      ← (hasType_eval hvaluesRight hrow htypeRight hr).type] at hcommon
    exact (Value.failsWith_apply hcommon).noMismatch
  | call function _ ih =>
    obtain ⟨typeArgument, htypeArgument, rfl⟩ := Option.map_eq_some_iff.mp htype
    refine (ih (literals_call.mp hvalues) htypeArgument).bind fun w _ => ?_
    exact (function.failsWith_apply w).noMismatch

end Expression
end TransactSql
