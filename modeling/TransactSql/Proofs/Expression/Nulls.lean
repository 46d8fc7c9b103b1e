/-
TransactSql.Proofs.Expression.Nulls — where a NULL comes from.

An operator, a sign or a function answers NULL as soon as one of its
operands is NULL, whatever the types are, and it answers NULL only then
(`isNull_iff_of_eval`, `isNull_of_operands`). So the value of an
expression is NULL exactly if one of its leaves is. What fails is a
reference, or a node whose operands all have values and none of them a
NULL (`exists_failing_node`).
-/
import TransactSql.Proofs.Expression.Leaves

namespace TransactSql

/-! ## Operators, signs and functions -/

namespace Value

variable {op : ArithmeticOperator} {function : BuiltIn} {v w left right : Value}

theorem isNull_iff_scalar : v.isNull = true ↔ v.scalar = none := Option.isNone_iff_eq_none

/-- A NULL on one side makes the result NULL, with or without a common type. -/
theorem apply_of_isNull (op : ArithmeticOperator) (h : left.isNull = true ∨ right.isNull = true) :
    ∃ v, apply op left right = .ok v ∧ v.isNull = true := by
  unfold apply applyWith
  split
  · by_cases hleft : left.isNull = true
    · exact ⟨_, if_pos hleft, rfl⟩
    · exact ⟨_, (if_neg hleft).trans (if_pos (h.resolve_left hleft)), rfl⟩
  · split
    · rename_i hleft hright
      rw [isNull_iff_scalar, isNull_iff_scalar, hleft, hright] at h
      rcases h with h | h <;> cases h
    · exact ⟨_, rfl, rfl⟩

theorem isNull_of_apply (h : apply op left right = .ok v) (hv : v.isNull = true) :
    left.isNull = true ∨ right.isNull = true := by
  unfold apply applyWith at h
  split at h
  · split at h
    · exact .inl ‹_›
    · split at h
      · exact .inr ‹_›
      · cases h
  · split at h
    · split at h
      · -- an operator that is carried out answers a scalar
        obtain ⟨l, -, h⟩ := bind_eq_ok.mp h
        obtain ⟨r, -, h⟩ := bind_eq_ok.mp h
        obtain ⟨s, -, h⟩ := bind_eq_ok.mp h
        cases h
        cases hv
      · cases h
    · rename_i hmissing
      rw [isNull_iff_scalar, isNull_iff_scalar]
      cases hleft : left.scalar with
      | none => exact .inl rfl
      | some l =>
        cases hright : right.scalar with
        | none => exact .inr rfl
        | some r => exact absurd hright (hmissing l r hleft)

theorem negate_of_isNull (h : v.isNull = true) : v.negate = .ok v := by
  rw [negate, isNull_iff_scalar.mp h]

theorem isNull_of_negate (h : v.negate = .ok w) (hw : w.isNull = true) : v.isNull = true := by
  unfold negate at h
  split at h
  · exact isNull_iff_scalar.mpr ‹_›
  · obtain ⟨s, -, h⟩ := bind_eq_ok.mp h
    cases h
    cases hw
  · obtain ⟨s, -, h⟩ := bind_eq_ok.mp h
    cases h
    cases hw
  · cases h
    cases hw
  · cases h

theorem function_of_isNull (h : v.isNull = true) :
    ∃ w, function.apply v = .ok w ∧ w.isNull = true := by
  rw [isNull_iff_scalar] at h
  cases function with
  | abs => exact ⟨null v.type, by rw [BuiltIn.apply, BuiltIn.applyWith, abs, h], rfl⟩
  | datalength =>
    refine ⟨null .int, ?_, rfl⟩
    rw [BuiltIn.apply, BuiltIn.applyWith, dataLengthWith, byteLengthWith?, h]
    rfl

theorem isNull_of_function (h : function.apply v = .ok w) (hw : w.isNull = true) :
    v.isNull = true := by
  rw [isNull_iff_scalar]
  cases function with
  | abs =>
    unfold BuiltIn.apply BuiltIn.applyWith abs at h
    dsimp only at h
    split at h
    · assumption
    · obtain ⟨s, -, h⟩ := bind_eq_ok.mp h
      cases h
      cases hw
    · obtain ⟨s, -, h⟩ := bind_eq_ok.mp h
      cases h
      cases hw
    · cases h
      cases hw
    · cases h
  | datalength =>
    cases h
    cases hscalar : v.scalar with
    | none => rfl
    | some s =>
      rw [dataLengthWith, byteLengthWith?, hscalar] at hw
      cases hw

end Value

/-! ## Nodes -/

namespace Expression

/-- The expression has a value in the row, and it is NULL. -/
def IsNull (row : Lookup) (e : Expression) : Prop :=
  ∃ v, e.eval row = .ok v ∧ v.isNull = true

/-- The expression has a value in the row, and it is not NULL. -/
def IsNotNull (row : Lookup) (e : Expression) : Prop :=
  ∃ v, e.eval row = .ok v ∧ v.isNull = false

variable {row : Lookup} {e : Expression} {v : Value} {error : Error}

theorem isNull_iff (h : e.eval row = .ok v) : e.IsNull row ↔ v.isNull = true := by
  simp [IsNull, h]

/-- A node has a value only if its operands have. -/
theorem exists_operand_value (h : e.eval row = .ok v) :
    ∀ operand ∈ e.operands, ∃ w, operand.eval row = .ok w := by
  cases e with
  | value | reference => exact List.forall_mem_nil _
  | named | parenthesized => exact List.forall_mem_singleton.mpr ⟨v, h⟩
  | negative | call =>
    obtain ⟨w, hw, -⟩ := bind_eq_ok.mp h
    exact List.forall_mem_singleton.mpr ⟨w, hw⟩
  | binary =>
    obtain ⟨l, hl, h⟩ := bind_eq_ok.mp h
    obtain ⟨r, hr, -⟩ := bind_eq_ok.mp h
    exact List.forall_mem_cons.mpr ⟨⟨l, hl⟩, List.forall_mem_singleton.mpr ⟨r, hr⟩⟩

/-- A node of which one operand is NULL is NULL, if only its operands have values. -/
theorem isNull_of_operands (hvalues : ∀ operand ∈ e.operands, ∃ v, operand.eval row = .ok v)
    (hnull : ∃ operand ∈ e.operands, operand.IsNull row) : e.IsNull row := by
  obtain ⟨operand, hoperand, v, heval, hv⟩ := hnull
  cases e with
  | value | reference => cases hoperand
  | named | parenthesized =>
    cases List.mem_singleton.mp hoperand
    exact ⟨v, heval, hv⟩
  | negative =>
    cases List.mem_singleton.mp hoperand
    exact ⟨v, bind_eq_ok.mpr ⟨v, heval, Value.negate_of_isNull hv⟩, hv⟩
  | call =>
    cases List.mem_singleton.mp hoperand
    obtain ⟨w, hw, hnull⟩ := Value.function_of_isNull hv
    exact ⟨w, bind_eq_ok.mpr ⟨v, heval, hw⟩, hnull⟩
  | binary op left right =>
    obtain ⟨l, hl⟩ := hvalues left (by simp [operands])
    obtain ⟨r, hr⟩ := hvalues right (by simp [operands])
    have hone : l.isNull = true ∨ r.isNull = true := by
      simp only [operands, List.mem_cons, List.not_mem_nil, or_false] at hoperand
      rcases hoperand with rfl | rfl
      · exact .inl (Except.ok.inj (hl.symm.trans heval) ▸ hv)
      · exact .inr (Except.ok.inj (hr.symm.trans heval) ▸ hv)
    obtain ⟨w, hw, hnull⟩ := Value.apply_of_isNull op hone
    exact ⟨w, bind_eq_ok.mpr ⟨l, hl, bind_eq_ok.mpr ⟨r, hr, hw⟩⟩, hnull⟩

/-- A node that has operands is NULL exactly if one of them is. -/
theorem isNull_iff_of_eval (hoperands : e.operands ≠ []) (h : e.eval row = .ok v) :
    v.isNull = true ↔ ∃ operand ∈ e.operands, operand.IsNull row := by
  cases e with
  | value | reference => exact absurd rfl hoperands
  | named | parenthesized =>
    simp only [operands, List.mem_singleton, exists_eq_left]
    exact (isNull_iff h).symm
  | negative =>
    obtain ⟨w, hw, h⟩ := bind_eq_ok.mp h
    simp only [operands, List.mem_singleton, exists_eq_left, isNull_iff hw]
    refine ⟨Value.isNull_of_negate h, fun hnull => ?_⟩
    obtain rfl : w = v := Except.ok.inj ((Value.negate_of_isNull hnull).symm.trans h)
    exact hnull
  | call =>
    obtain ⟨w, hw, h⟩ := bind_eq_ok.mp h
    simp only [operands, List.mem_singleton, exists_eq_left, isNull_iff hw]
    refine ⟨Value.isNull_of_function h, fun hnull => ?_⟩
    obtain ⟨u, hu, hnull⟩ := Value.function_of_isNull hnull
    exact Except.ok.inj (hu.symm.trans h) ▸ hnull
  | binary =>
    obtain ⟨l, hl, h⟩ := bind_eq_ok.mp h
    obtain ⟨r, hr, h⟩ := bind_eq_ok.mp h
    simp only [operands, List.mem_cons, List.not_mem_nil, or_false, exists_eq_or_imp,
      exists_eq_left, isNull_iff hl, isNull_iff hr]
    refine ⟨Value.isNull_of_apply h, fun hnull => ?_⟩
    obtain ⟨u, hu, hnull⟩ := Value.apply_of_isNull _ hnull
    exact Except.ok.inj (hu.symm.trans h) ▸ hnull

/-- If a node fails, one of its operands fails like that, or all of them have values and none of
these is NULL. -/
theorem operands_of_error (h : e.eval row = .error error) :
    (∃ operand ∈ e.operands, operand.eval row = .error error) ∨
      ∀ operand ∈ e.operands, operand.IsNotNull row := by
  by_cases hvalues : ∀ operand ∈ e.operands, ∃ v, operand.eval row = .ok v
  · refine .inr fun operand hoperand => ?_
    obtain ⟨v, hv⟩ := hvalues operand hoperand
    cases hnull : v.isNull with
    | false => exact ⟨v, hv, hnull⟩
    | true =>
      obtain ⟨w, hw, -⟩ := isNull_of_operands hvalues ⟨operand, hoperand, v, hv, hnull⟩
      cases hw.symm.trans h
  · left
    cases e with
    | value | reference => exact absurd (List.forall_mem_nil _) hvalues
    | named | parenthesized => exact ⟨_, List.mem_cons_self, h⟩
    | negative operand | call _ operand =>
      refine ⟨operand, List.mem_cons_self, ?_⟩
      cases hoperand : operand.eval row with
      | error other =>
        change (operand.eval row >>= _) = _ at h
        rw [hoperand] at h
        exact h
      | ok v => exact absurd (List.forall_mem_singleton.mpr ⟨v, hoperand⟩) hvalues
    | binary op left right =>
      rw [eval_binary] at h
      cases hleft : left.eval row with
      | error other =>
        rw [hleft] at h
        exact ⟨left, by simp [operands], hleft.trans h⟩
      | ok l =>
        rw [hleft] at h
        cases hright : right.eval row with
        | error other =>
          rw [hright] at h
          exact ⟨right, by simp [operands], hright.trans h⟩
        | ok r =>
          refine absurd (List.forall_mem_cons.mpr ⟨⟨l, hleft⟩, ?_⟩) hvalues
          exact List.forall_mem_singleton.mpr ⟨r, hright⟩

/-! ## Expressions -/

/-- The value of an expression is NULL exactly if one of its leaves is. -/
theorem isNull_iff_leaf (e : Expression) :
    ∀ v, e.eval row = .ok v → (v.isNull = true ↔ ∃ leaf ∈ e.leaves, leaf.IsNull row) := by
  induction e using induction_operands with
  | h e ih =>
    intro v h
    by_cases hleaf : e.operands = []
    · rw [leaves_of_leaf hleaf]
      simpa using (isNull_iff h).symm
    · rw [isNull_iff_of_eval hleaf h, leaves_of_operands hleaf]
      simp only [List.mem_flatMap]
      constructor
      · rintro ⟨operand, hoperand, w, hw, hnull⟩
        obtain ⟨leaf, hleaf, hleafNull⟩ := (ih operand hoperand w hw).mp hnull
        exact ⟨leaf, ⟨operand, hoperand, hleaf⟩, hleafNull⟩
      · rintro ⟨leaf, ⟨operand, hoperand, hleaf⟩, hleafNull⟩
        obtain ⟨w, hw⟩ := exists_operand_value h operand hoperand
        exact ⟨operand, hoperand, w, hw, (ih operand hoperand w hw).mpr ⟨leaf, hleaf, hleafNull⟩⟩

/-- What fails is a node whose operands all have values, none of them NULL. -/
theorem exists_failing_node (e : Expression) (h : e.eval row = .error error) :
    ∃ node ∈ e.nodes, node.eval row = .error error ∧
      ∀ operand ∈ node.operands, operand.IsNotNull row := by
  induction e using induction_operands with
  | h e ih =>
    rw [nodes_eq]
    rcases operands_of_error h with ⟨operand, hoperand, herror⟩ | hvalues
    · obtain ⟨node, hnode, hfails⟩ := ih operand hoperand herror
      exact ⟨node, List.mem_cons_of_mem _ (List.mem_flatMap.mpr ⟨operand, hoperand, hnode⟩), hfails⟩
    · exact ⟨e, List.mem_cons_self, h, hvalues⟩

/-- NULL is contagious, and only NULL makes NULL. The value of an expression is NULL exactly if that
of a literal or a reference in it is. No operator, sign or function fails because of a NULL: with
one among its operands, and values of all others, it answers NULL itself. So where an expression
fails, a reference does, or a node does whose operands all have values other than NULL. -/
theorem null_exactly_of_null (e : Expression) (row : Lookup) :
    (∀ v, e.eval row = .ok v → (v.isNull = true ↔ ∃ leaf ∈ e.leaves, leaf.IsNull row)) ∧
      ((∀ operand ∈ e.operands, ∃ v, operand.eval row = .ok v) →
        (∃ operand ∈ e.operands, operand.IsNull row) → e.IsNull row) ∧
      ∀ error, e.eval row = .error error → ∃ node ∈ e.nodes, node.eval row = .error error ∧
        ∀ operand ∈ node.operands, operand.IsNotNull row :=
  ⟨isNull_iff_leaf e, isNull_of_operands, fun _ => exists_failing_node e⟩

/-- The sum of a number and a text has no type, but if the number is NULL, it has a value. The
quotient in it is what fails. -/
theorem null_exactly_of_null_sum :
    let row : Lookup := fun _ => .ok (.null .int)
    let sum := binary .add (reference ["a"]) (value (.nvarchar "x"))
    let quotient := binary .divide (value (.int 1)) (value (.int 0))
    sum.eval row = .ok (.null .nvarchar) ∧ (∃ leaf ∈ sum.leaves, leaf.IsNull row) ∧
      sum.IsNull row ∧
      (binary .add sum quotient).eval row = .error .divideByZero ∧
      ∃ node ∈ (binary .add sum quotient).nodes, node.eval row = .error .divideByZero ∧
        ∀ operand ∈ node.operands, operand.IsNotNull row := by
  intro row sum quotient
  have hsum : sum.eval row = .ok (.null .nvarchar) := rfl
  have hfails : (binary .add sum quotient).eval row = .error .divideByZero := rfl
  have hvalues : ∀ operand ∈ sum.operands, ∃ v, operand.eval row = .ok v :=
    List.forall_mem_cons.mpr ⟨⟨_, rfl⟩, List.forall_mem_singleton.mpr ⟨_, rfl⟩⟩
  have hnull : ∃ operand ∈ sum.operands, operand.IsNull row :=
    ⟨reference ["a"], List.mem_cons_self, .null .int, rfl, rfl⟩
  exact ⟨hsum, ((null_exactly_of_null sum row).1 _ hsum).mp rfl,
    (null_exactly_of_null sum row).2.1 hvalues hnull, hfails,
    (null_exactly_of_null (binary .add sum quotient) row).2.2 _ hfails⟩

end Expression
end TransactSql
