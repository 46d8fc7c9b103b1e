/-
TransactSql.Proofs.Query.Typing — the types of result columns.

The rows of a source are typed if every cell is of the type of its column
(`RowSet.Typed`). A column reference then has the type of the first
column of its name (`RowSet.Typed.lookup`).

An entry of a select list makes one column, whose place depends on the
entries before it alone (`Select.Projects.cell`). So if the operands in
it go together, all cells of this column are of one type, which is known
before a row is looked at (`uniformly_typed`).
-/
import TransactSql.Proofs.Expression.Typing
import TransactSql.Proofs.Query.Visiting

namespace TransactSql

/-! ## Related lists -/

section Lists

variable {α β : Type} {R : α → β → Prop}

theorem exists_of_getElem?_forall₂ {xs : List α} {ys : List β} (h : List.Forall₂ R xs ys) {i : Nat}
    {y : β} (hy : ys[i]? = some y) : ∃ x, xs[i]? = some x ∧ R x y := by
  induction h generalizing i with
  | nil => cases hy
  | cons hfirst _ ih =>
    cases i with
    | zero =>
      cases hy
      exact ⟨_, rfl, hfirst⟩
    | succ i => exact ih hy

theorem exists_of_forall₂_middle {before after : List α} {x : α} {ys : List β}
    (h : List.Forall₂ R (before ++ x :: after) ys) :
    ∃ first y rest, List.Forall₂ R before first ∧ R x y ∧ ys = first ++ y :: rest := by
  induction before generalizing ys with
  | nil =>
    obtain ⟨y, rest, hy, -, rfl⟩ := List.forall₂_cons_left_iff.mp h
    exact ⟨[], y, rest, .nil, hy, rfl⟩
  | cons x' before ih =>
    obtain ⟨y', ys, hy', hys, rfl⟩ := List.forall₂_cons_left_iff.mp h
    obtain ⟨first, y, rest, hfirst, hy, rfl⟩ := ih hys
    exact ⟨y' :: first, y, rest, .cons hy' hfirst, hy, rfl⟩

end Lists

/-! ## Typed rows -/

namespace RowSet

/-- Every row has one cell of each of the types, which belong to the columns in this order. -/
structure Typed (types : List DataType) (set : RowSet) : Prop where
  length : types.length = set.columns.length
  rows : ∀ row ∈ set.rows, List.Forall₂ (fun type cell => Value.HasType type cell) types row

/-- The type of the column that a name stands for, if the columns have these types. A name that
stands for none gets a type all the same; it has no value. -/
def columnType (set : RowSet) (types : List DataType) (name : QualifiedName) : DataType :=
  ((set.columnIndex? name.last).bind (types[·]?)).getD .int

variable {set : RowSet} {types : List DataType} {row : Row}

theorem Typed.rectangular (h : set.Typed types) : set.Rectangular :=
  fun row hrow => (h.rows row hrow).length_eq.symm.trans h.length

theorem Typed.lookup (h : set.Typed types) (hrow : row ∈ set.rows) :
    Lookup.HasTypes (set.columnType types) (set.lookup row) := by
  constructor
  · intro name v hname
    unfold RowSet.lookup at hname
    split at hname
    · rename_i cell hcell
      cases hname
      obtain ⟨place, hplace, hcell⟩ := Option.bind_eq_some_iff.mp hcell
      obtain ⟨type, htype, hcell⟩ := exists_of_getElem?_forall₂ (h.rows row hrow) hcell
      rw [columnType, hplace, Option.bind_some, htype]
      exact hcell
    · cases hname
  · intro name e he op left right hmismatch
    unfold RowSet.lookup at he
    split at he
    · cases he
    · cases he
      cases hmismatch

end RowSet

/-! ## The column of an entry -/

namespace Select

variable {s : Select} {source result : RowSet} {before after : List SelectItem} {e : Expression}

/-- The number of columns that the entries of a select list make. -/
def place (source : RowSet) (before : List SelectItem) : Nat :=
  (before.flatMap (·.columnNames source.columns)).length

/-- Behind the cells of the entries before it, an entry puts its value into the row. -/
theorem Projects.cell {row output : Row} (hrow : row.length = source.columns.length)
    (hitems : s.items = before ++ .expression e :: after) (h : s.Projects source row output) :
    ∃ v, e.eval (source.lookup row) = .ok v ∧ output[place source before]? = some v := by
  obtain ⟨parts, hparts, rfl⟩ := h
  rw [hitems] at hparts
  obtain ⟨first, part, rest, hfirst, hpart, rfl⟩ := exists_of_forall₂_middle hparts
  cases hpart with | @expression _ v hv =>
  have hplace : first.flatten.length = place source before :=
    length_of_projects (s := ⟨none, before, none⟩) hrow ⟨first, hfirst, rfl⟩
  refine ⟨v, hv, ?_⟩
  rw [List.flatten_append, ← hplace, List.getElem?_append_right (Nat.le_refl _), Nat.sub_self]
  rfl

/-- The cells of the column of an entry are values of its expression. -/
theorem cell_run (hsource : source.Rectangular)
    (hitems : s.items = before ++ .expression e :: after) (h : s.run source = .ok result)
    {output : Row} (houtput : output ∈ result.rows) :
    ∃ row ∈ source.rows, ∃ v, e.eval (source.lookup row) = .ok v ∧
      output[place source before]? = some v := by
  obtain ⟨row, hrow, hprojects⟩ := exists_source_row h houtput
  exact ⟨row, hrow, hprojects.cell (hsource row hrow) hitems⟩

end Select

/-! ## Uniform types -/

/-- An expression in which the operands of every operator have a common type has a type itself,
before a row is looked at. Whichever cells are NULL, all its values are of that type, and it does
not fail for want of a common type. So the column that it makes in the result of a selection is of
one type, too. -/
theorem uniformly_typed {source : RowSet} {types : List DataType} {e : Expression}
    (hsource : source.Typed types) (hvalues : e.Literals fun v => v.isWellFormed = true)
    (h : e.WellTyped (source.columnType types)) :
    ∃ type, e.type? (source.columnType types) = some type ∧
      (∀ row ∈ source.rows,
        (∀ v, e.eval (source.lookup row) = .ok v → v.type = type) ∧
          ∀ op left right, e.eval (source.lookup row) ≠ .error (.noCommonType op left right)) ∧
      ∀ (s : Select) (before after : List SelectItem) (result : RowSet),
        s.items = before ++ .expression e :: after → s.run source = .ok result →
        ∀ output ∈ result.rows,
          ∃ v, output[Select.place source before]? = some v ∧ v.type = type := by
  obtain ⟨type, htype⟩ := Expression.exists_type?_iff.mpr h
  have hcells : ∀ row ∈ source.rows, ∀ v, e.eval (source.lookup row) = .ok v → v.type = type :=
    fun row hrow v hv => (Expression.hasType_eval hvalues (hsource.lookup hrow) htype hv).type
  refine ⟨type, htype, fun row hrow => ⟨hcells row hrow, fun op left right hfails => ?_⟩, ?_⟩
  · exact Expression.noMismatch_eval hvalues (hsource.lookup hrow) htype _ hfails op left right rfl
  · intro s before after result hitems hresult output houtput
    obtain ⟨row, hrow, v, hv, hcell⟩ :=
      Select.cell_run hsource.rectangular hitems hresult houtput
    exact ⟨v, hcell, hcells row hrow v hv⟩

/-- A `bigint`, whether one of the operands is NULL, both are or none is. -/
theorem uniformly_typed_sum :
    let source : RowSet := ⟨["a", "b"], [[.int (-7), .bigint 2], [.null .int, .bigint 3],
      [.int 4, .null .bigint], [.null .int, .null .bigint]]⟩
    let e : Expression :=
      .call .abs (.binary .add (.negative (.reference ["A"])) (.reference ["t", "b"]))
    let result : RowSet := ⟨["a", "b", ""], [[.int (-7), .bigint 2, .bigint 9],
      [.null .int, .bigint 3, .null .bigint], [.int 4, .null .bigint, .null .bigint],
      [.null .int, .null .bigint, .null .bigint]]⟩
    source.Typed [.int, .bigint] ∧ e.WellTyped (source.columnType [.int, .bigint]) ∧
      Select.run ⟨none, [.wildcard, .expression e], none⟩ source = .ok result ∧
      ∃ type, e.type? (source.columnType [.int, .bigint]) = some type ∧
        ∀ output ∈ result.rows, ∃ v, output[2]? = some v ∧ v.type = type := by
  intro source e result
  have hsource : source.Typed [.int, .bigint] := by
    refine ⟨rfl, ?_⟩
    simp only [source, List.forall_mem_cons, List.forall₂_cons, List.Forall₂.nil, and_true]
    refine ⟨⟨⟨rfl, rfl⟩, rfl, rfl⟩, ⟨⟨rfl, rfl⟩, rfl, rfl⟩, ⟨⟨rfl, rfl⟩, rfl, rfl⟩,
      ⟨⟨rfl, rfl⟩, rfl, rfl⟩, List.forall_mem_nil _⟩
  have htyped : e.WellTyped (source.columnType [.int, .bigint]) :=
    Expression.exists_type?_iff.mp ⟨.bigint, by decide +kernel⟩
  have hrun : Select.run ⟨none, [.wildcard, .expression e], none⟩ source = .ok result := by
    decide +kernel
  obtain ⟨type, htype, -, hcolumn⟩ := uniformly_typed hsource (by simp [e]) htyped
  exact ⟨hsource, htyped, hrun, type, htype, hcolumn _ [.wildcard] [] result rfl hrun⟩

end TransactSql
