/-
TransactSql.Proofs.Query.Dependence — what a query depends on.

The value of an expression, and likewise the truth of a condition, depends
on a row only through the references in it (`Expression.eval_congr`,
`Predicate.eval_congr`). So a selection from a table makes the same of
two rows if they have the same cells in the columns to which its
references lead, and row by row that carries over to all the rows that it
walks through (`Select.collect_congr`). A selection that asks for all
columns is the one that sees the others.

Where a reference leads is a matter of the columns of the table: to the
one that has the last part of the name, in any spelling
(`Table.columnOrdinal?`). Two states of a table with the same columns,
and with the same cells in those that are referred to, cannot be told
apart by the query, by its rows or by its failure
(`run_determined_by_named_columns`).
-/
import TransactSql.Proofs.Query.Visiting
import TransactSql.Proofs.Store.Loading

namespace TransactSql

variable {row row' : Lookup}

/-! ## Expressions and conditions -/

namespace Expression

/-- The references to columns in an expression, from left to right. -/
def references : Expression → List QualifiedName
  | value _ => []
  | reference name => [name]
  | named inner _ => inner.references
  | parenthesized inner => inner.references
  | negative operand => operand.references
  | binary _ left right => left.references ++ right.references
  | call _ argument => argument.references

/-- Where its references stand for the same, an expression has the same value. -/
theorem eval_congr {e : Expression} (h : ∀ name ∈ e.references, row name = row' name) :
    e.eval row = e.eval row' := by
  induction e with
  | value v => rfl
  | reference name => exact h name List.mem_cons_self
  | named inner _ ih | parenthesized inner ih => exact ih h
  | negative operand ih => rw [eval_negative, eval_negative, ih h]
  | binary op left right ihleft ihright =>
    obtain ⟨hleft, hright⟩ := List.forall_mem_append.mp h
    rw [eval_binary, eval_binary, ihleft hleft, ihright hright]
  | call function argument ih => rw [eval_call, eval_call, ih h]

end Expression

namespace Predicate

/-- The references to columns in a condition, from left to right. -/
def references : Predicate → List QualifiedName
  | comparison _ left right => left.references ++ right.references
  | and left right => left.references ++ right.references
  | or left right => left.references ++ right.references

theorem eval_congr {p : Predicate} (h : ∀ name ∈ p.references, row name = row' name) :
    p.eval row = p.eval row' := by
  induction p with
  | comparison op left right =>
    obtain ⟨hleft, hright⟩ := List.forall_mem_append.mp h
    rw [eval, eval, Expression.eval_congr hleft, Expression.eval_congr hright]
  | and left right ihleft ihright | or left right ihleft ihright =>
    obtain ⟨hleft, hright⟩ := List.forall_mem_append.mp h
    rw [eval, eval, ihleft hleft, ihright hright]

end Predicate

/-! ## Selections -/

/-- The references to columns in an entry of a select list. -/
def SelectItem.references : SelectItem → List QualifiedName
  | wildcard => []
  | expression e => e.references

namespace Select

variable {s : Select} {set set' : RowSet}

/-- The references to columns in the select list and in the condition. -/
def references (s : Select) : List QualifiedName :=
  s.items.flatMap (·.references) ++ (s.filter.map (·.references)).getD []

/-- What a selection without wildcards tries on a row, and what it makes of it, depends on its
references. -/
theorem keeps_congr {cells cells' : Row}
    (h : ∀ name ∈ s.references, set.lookup cells name = set'.lookup cells' name) :
    s.keeps set cells = s.keeps set' cells' := by
  unfold keeps
  cases hfilter : s.filter with
  | none => rfl
  | some p =>
    refine Predicate.eval_congr fun name hname => h name (List.mem_append_right _ ?_)
    rwa [hfilter]

theorem project_congr (hitems : ∀ item ∈ s.items, item.isWildcard = false) {cells cells' : Row}
    (h : ∀ name ∈ s.references, set.lookup cells name = set'.lookup cells' name) :
    s.project set cells = s.project set' cells' := by
  have hparts : s.items.mapM (·.project set cells) = s.items.mapM (·.project set' cells') := by
    refine mapM_congr fun item hitem => ?_
    cases item with
    | wildcard => cases hitems _ hitem
    | expression e =>
      rw [SelectItem.project, SelectItem.project, e.eval_congr fun name hname => h name
        (List.mem_append_left _ (List.mem_flatMap_of_mem hitem hname))]
  rw [project, project, hparts]

/-- A walk through rows depends on what is tried on each row and on what is made of it. -/
theorem collect_congr {limit : Option Nat} {rows rows' : List Row}
    (h : List.Forall₂ (fun cells cells' => s.keeps set cells = s.keeps set' cells' ∧
      s.project set cells = s.project set' cells') rows rows') :
    s.collect set limit rows = s.collect set' limit rows' := by
  induction h generalizing limit with
  | nil => rw [collect_nil, collect_nil]
  | cons hfirst _ ih =>
    by_cases hlimit : limit = some 0
    · rw [hlimit, collect_zero, collect_zero]
    · rw [collect_cons hlimit, collect_cons hlimit, hfirst.1, hfirst.2, ih, ih]

end Select

/-! ## Tables -/

/-- A reference goes to the column to which its last part leads. -/
theorem Table.columnIndex?_eq (t : Table) (name : String) :
    RowSet.columnIndex? ⟨t.columnNames, t.rows⟩ name = t.columnOrdinal? name := by
  rw [RowSet.columnIndex?, Collation.indexOf?, columnNames, List.findIdx?_map,
    List.findIdx?_eq_fst_find?_zipIdx]
  rfl

namespace Query

/-- A selection without wildcards from a table depends on the columns that it names. On two states
of the table with the same columns and with as many rows it has the same result, or fails alike, if
the rows have the same cells in every column to which a reference in its entries or in its condition
leads. -/
theorem run_determined_by_named_columns {s : Select} {name : QualifiedName}
    {tableAlias : Option String} {catalog catalog' : Catalog} {t t' : Table}
    (hitems : ∀ item ∈ s.items, item.isWildcard = false)
    (hread : catalog.read? name.last = some t) (hread' : catalog'.read? name.last = some t')
    (hcolumns : t.columns = t'.columns)
    (hrows : List.Forall₂ (fun cells cells' : Row => ∀ reference ∈ s.references,
      ∀ place ∈ t.columnOrdinal? reference.last, cells[place]? = cells'[place]?) t.rows t'.rows) :
    Query.run ⟨s, .table name tableAlias⟩ catalog =
      Query.run ⟨s, .table name tableAlias⟩ catalog' := by
  have hnames : t.columnNames = t'.columnNames := by
    rw [Table.columnNames, Table.columnNames, hcolumns]
  have hlookup : ∀ {cells cells' : Row}, (∀ reference ∈ s.references,
      ∀ place ∈ t.columnOrdinal? reference.last, cells[place]? = cells'[place]?) →
      ∀ reference ∈ s.references, RowSet.lookup ⟨t.columnNames, t.rows⟩ cells reference =
        RowSet.lookup ⟨t'.columnNames, t'.rows⟩ cells' reference := by
    intro cells cells' hcells reference hreference
    have hplace : RowSet.columnIndex? ⟨t'.columnNames, t'.rows⟩ reference.last =
        t.columnOrdinal? reference.last := by
      rw [← t.columnIndex?_eq, hnames]
      rfl
    rw [RowSet.lookup, RowSet.lookup, hplace, t.columnIndex?_eq]
    cases hordinal : t.columnOrdinal? reference.last with
    | none => rfl
    | some place =>
      rw [Option.bind_some, Option.bind_some, hcells reference hreference place hordinal]
  have hcollect : s.collect ⟨t.columnNames, t.rows⟩ s.limit t.rows =
      s.collect ⟨t'.columnNames, t'.rows⟩ s.limit t'.rows :=
    Select.collect_congr (hrows.imp fun _ _ hcells =>
      ⟨Select.keeps_congr (hlookup hcells), Select.project_congr hitems (hlookup hcells)⟩)
  have hload : Source.load catalog (.table name tableAlias) = .ok ⟨t.columnNames, t.rows⟩ := by
    rw [Source.load, hread]
  have hload' : Source.load catalog' (.table name tableAlias) = .ok ⟨t'.columnNames, t'.rows⟩ := by
    rw [Source.load, hread']
  simp only [run, hload, hload']
  change Select.run s _ = Select.run s _
  rw [Select.run, Select.run, hcollect, hnames]

/-- References are spelled in other ways than the columns, and both rows have another cell in the
column that is not named. With the condition there is a row, and without it a failure. -/
theorem run_determined_by_named_columns_of_three :
    let columns : List Column := [⟨"a", .int, true⟩, ⟨"B", .nvarchar, true⟩, ⟨"c", .int, true⟩]
    let t : Table := ⟨"t", columns,
      [[.int 0, .nvarchar "x", .int 1], [.int 2, .nvarchar "y", .int 3]]⟩
    let t' : Table := ⟨"t", columns,
      [[.int 0, .nvarchar "x", .null .int], [.int 2, .nvarchar "y", .int 4]]⟩
    let items : List SelectItem := [.expression (.binary .divide (.value (.int 6))
      (.reference ["d", "A"]))]
    let filter : Predicate := .comparison .equal (.reference ["b"]) (.value (.varchar "Y"))
    let source : Source := .table ["dbo", "T"] (some "d")
    (∀ item ∈ items, item.isWildcard = false) ∧
      (Catalog.empty.store t).read? "T" = some t ∧ (Catalog.empty.store t').read? "T" = some t' ∧
      Query.run ⟨⟨none, items, some filter⟩, source⟩ (Catalog.empty.store t) =
        .ok ⟨[""], [[.int 3]]⟩ ∧
      Query.run ⟨⟨none, items, some filter⟩, source⟩ (Catalog.empty.store t') =
        .ok ⟨[""], [[.int 3]]⟩ ∧
      Query.run ⟨⟨none, items, none⟩, source⟩ (Catalog.empty.store t') = .error .divideByZero := by
  intro columns t t' items filter source
  have hitems : ∀ item ∈ items, item.isWildcard = false := by decide
  have hread : (Catalog.empty.store t).read? "T" = some t := by decide +kernel
  have hread' : (Catalog.empty.store t').read? "T" = some t' := by decide +kernel
  have hresult : Query.run ⟨⟨none, items, some filter⟩, source⟩ (Catalog.empty.store t) =
      .ok ⟨[""], [[.int 3]]⟩ := by decide +kernel
  have hfailure : Query.run ⟨⟨none, items, none⟩, source⟩ (Catalog.empty.store t) =
      .error .divideByZero := by decide +kernel
  have hsame : Query.run ⟨⟨none, items, some filter⟩, source⟩ (Catalog.empty.store t) =
      Query.run ⟨⟨none, items, some filter⟩, source⟩ (Catalog.empty.store t') :=
    run_determined_by_named_columns hitems hread hread' rfl (by decide +kernel)
  have hsame' : Query.run ⟨⟨none, items, none⟩, source⟩ (Catalog.empty.store t) =
      Query.run ⟨⟨none, items, none⟩, source⟩ (Catalog.empty.store t') :=
    run_determined_by_named_columns hitems hread hread' rfl (by decide +kernel)
  exact ⟨hitems, hread, hread', hresult, hsame ▸ hresult, hsame' ▸ hfailure⟩

end Query
end TransactSql
