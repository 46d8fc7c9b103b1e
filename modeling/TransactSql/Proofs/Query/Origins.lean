/-
TransactSql.Proofs.Query.Origins — where the values of a result come from.

A cell of a result is copied from a row of the source, or it is computed
from such a row and the literals of the select list. The rows of the
source come from a table, from the system table, or from another query.
So if a property is kept by every operation, and the literals and the
stored cells have it, then all cells of the result have it
(`Query.cells_run`). Conditions and limits play no part: they only choose
among rows.

The literals themselves are tokens of the text, parameters and system
variables (`Query.yieldsFrom_read`).
-/
import TransactSql.Proofs.Query.Visiting

namespace TransactSql

open Parse

/-! ## Literals -/

/-- The literals of an expression in the select list have a property. -/
def SelectItem.Literals (values : Value → Prop) : SelectItem → Prop
  | wildcard => True
  | expression e => e.Literals values

def Select.Literals (values : Value → Prop) (s : Select) : Prop :=
  ∀ item ∈ s.items, item.Literals values

/-- The literals in the select lists of derived tables have a property, to any depth. -/
def Source.Literals (values : Value → Prop) : Source → Prop
  | unit => True
  | table _ _ => True
  | derived select source _ => select.Literals values ∧ source.Literals values

/-- The literals in all select lists of a query have a property. -/
def Query.Literals (values : Value → Prop) (q : Query) : Prop :=
  q.select.Literals values ∧ q.source.Literals values

/-! ## Reading -/

namespace Query

variable {tokens : Token → Prop} {values : Value → Prop} {scope : Scope}

theorem yieldsFrom_readItem (hscope : scope.SuppliesFrom tokens values) (levels : Nat) :
    (readItem scope levels).YieldsFrom tokens (SelectItem.Literals values) := by
  refine (yieldsFrom_consume _).bind fun _ _ => yieldsFrom_ite (yieldsFrom_pure trivial) ?_
  refine (Expression.yieldsFrom_readAliased hscope levels).bind fun e he => ?_
  refine yieldsFrom_ite (yieldsFrom_pure he.literals) ?_
  refine stopsBefore_implicitAlias?.bindFrom fun name? => ?_
  cases name? with
  | none => exact yieldsFrom_pure he.literals
  | some name => exact yieldsFrom_pure (Expression.literals_named.mpr he.literals)

theorem yieldsFrom_readSource {derived : Parse Query}
    (hderived : derived.YieldsFrom tokens (Query.Literals values)) :
    (readSource derived).YieldsFrom tokens (Source.Literals values) := by
  have hsingle : (readSource.readSingle derived).YieldsFrom tokens (Source.Literals values) := by
    refine (yieldsFrom_consume _).bind fun _ _ => yieldsFrom_ite ?_ ?_
    · refine (yieldsFrom_expect _).bind fun _ _ => hderived.bind fun query hquery => ?_
      refine (yieldsFrom_expect _).bind fun _ _ => ?_
      refine stopsBefore_readSourceAlias?.bindFrom fun name? => ?_
      cases name? with
      | none => exact yieldsFrom_fail _ _
      | some name => exact yieldsFrom_pure hquery
    · refine stopsBefore_qualifiedName.bindFrom fun _ => ?_
      exact stopsBefore_readSourceAlias?.bindFrom fun _ => yieldsFrom_pure trivial
  refine hsingle.bind fun source hsource => (yieldsFrom_peekIs _).bind fun _ _ => ?_
  exact yieldsFrom_ite (yieldsFrom_fail _ _) (yieldsFrom_pure hsource)

theorem yieldsFrom_readQuery {derived : Parse Query}
    (hderived : derived.YieldsFrom tokens (Query.Literals values))
    (hscope : scope.SuppliesFrom tokens values) (levels : Nat) :
    (readQuery scope levels derived).YieldsFrom tokens (Query.Literals values) := by
  refine stopsBefore_refuseQuantifier.bindFrom fun _ => ?_
  refine (stopsBefore_readLimit? scope levels).bindFrom fun limit => ?_
  refine (yieldsFrom_commaSeparated (yieldsFrom_readItem hscope levels)).bind fun items hitems => ?_
  have hafter : ∀ source : Source, source.Literals values →
      (readQuery.readFilter? scope levels >>= fun filter => refuseClause >>= fun _ =>
        pure ⟨⟨limit, items, filter⟩, source⟩).YieldsFrom tokens (Query.Literals values) :=
    fun source hsource => (stopsBefore_readFilter? scope levels).bindFrom fun _ =>
      stopsBefore_refuseClause.bindFrom fun _ => yieldsFrom_pure ⟨hitems.2, hsource⟩
  refine (yieldsFrom_consume _).bind fun _ _ => yieldsFrom_ite ?_ ?_
  · exact (yieldsFrom_readSource hderived).bind fun source hsource =>
      yieldsFrom_ite (yieldsFrom_fail _ _) (hafter source hsource)
  · exact yieldsFrom_ite (yieldsFrom_fail _ _) (hafter .unit trivial)

/-- The literals of a query that is read have what the scope and the tokens supply. -/
theorem yieldsFrom_read (hscope : scope.SuppliesFrom tokens values) (levels : Nat) :
    (read scope levels).YieldsFrom tokens (Query.Literals values) := by
  induction levels with
  | zero => exact yieldsFrom_readQuery (yieldsFrom_fail _ _) hscope 0
  | succ levels ih => exact yieldsFrom_readQuery ih hscope (levels + 1)

end Query

/-! ## Running -/

/-- Every cell has a property. -/
def RowSet.Cells (values : Value → Prop) (set : RowSet) : Prop :=
  ∀ row ∈ set.rows, ∀ v ∈ row, values v

instance RowSet.decidableCells (values : Value → Prop) [DecidablePred values] (set : RowSet) :
    Decidable (set.Cells values) :=
  inferInstanceAs (Decidable (∀ row ∈ set.rows, ∀ v ∈ row, values v))

/-- Every cell of every table has a property. -/
def Catalog.Cells (values : Value → Prop) (catalog : Catalog) : Prop :=
  ∀ entry ∈ catalog.tables.toList, ∀ row ∈ entry.2.rows, ∀ v ∈ row, values v

/-- A property that an operation keeps, and that integers, texts and NULLs have. -/
structure Value.Spreads (values : Value → Prop) : Prop extends Value.Kept values where
  convert : ∀ {v w : Value} {target : DataType}, v.convert target = .ok w → values v → values w
  null : ∀ type, values (.null type)
  int : ∀ i, values (.int i)
  varchar : ∀ text, values (.varchar text)
  nvarchar : ∀ text, values (.nvarchar text)

variable {values : Value → Prop}

theorem RowSet.lookup_mem {set : RowSet} {row : Row} {name : QualifiedName} {v : Value}
    (h : set.lookup row name = .ok v) : v ∈ row := by
  unfold RowSet.lookup at h
  split at h
  · next cell hcell =>
    cases h
    obtain ⟨place, -, hcell⟩ := Option.bind_eq_some_iff.mp hcell
    exact List.mem_of_getElem? hcell
  · cases h

theorem Select.cells_run {s : Select} {source result : RowSet} (hkept : Value.Kept values)
    (hs : s.Literals values) (hsource : source.Cells values) (h : s.run source = .ok result) :
    result.Cells values := by
  intro output houtput v hv
  obtain ⟨row, hrow, parts, hparts, rfl⟩ := Select.exists_source_row h houtput
  obtain ⟨part, hpart, hv⟩ := List.mem_flatten.mp hv
  obtain ⟨item, hitem, hmakes⟩ := exists_of_mem_forall₂ hparts hpart
  cases hmakes with
  | wildcard => exact hsource row hrow v hv
  | @expression e w hw =>
    rw [List.mem_singleton.mp hv]
    have hliterals : e.Literals values := hs _ hitem
    exact hliterals.eval hkept (fun name u hu => hsource row hrow u (RowSet.lookup_mem hu)) hw

theorem SystemType.cells_table (hvalues : Value.Spreads values) :
    ∀ row ∈ SystemType.table.rows, ∀ v ∈ row, values v := by
  intro row hrow v hv
  obtain ⟨type, -, rfl⟩ := List.mem_map.mp hrow
  rcases List.mem_cons.mp hv with rfl | hv
  · exact hvalues.nvarchar _
  · obtain ⟨i, -, rfl⟩ := List.mem_map.mp hv
    exact hvalues.int i

theorem Catalog.cells_read? {catalog : Catalog} {name : String} {table : Table}
    (hvalues : Value.Spreads values) (hcatalog : catalog.Cells values)
    (h : catalog.read? name = some table) : ∀ row ∈ table.rows, ∀ v ∈ row, values v := by
  unfold Catalog.read? at h
  split at h
  · next found hfound =>
    cases h
    obtain ⟨entry, hentry, rfl⟩ := CollatedMap.exists_mem_of_get? hfound
    exact hcatalog entry hentry
  · split at h <;> cases h
    exact SystemType.cells_table hvalues

theorem Source.cells_load {catalog : Catalog} {source : Source} {set : RowSet}
    (hvalues : Value.Spreads values) (hcatalog : catalog.Cells values)
    (hsource : source.Literals values) (h : source.load catalog = .ok set) : set.Cells values := by
  induction source generalizing set with
  | unit =>
    cases h
    simp [RowSet.Cells]
  | table name tableAlias =>
    unfold Source.load at h
    split at h
    · next found hfound =>
      cases h
      exact Catalog.cells_read? hvalues hcatalog hfound
    · cases h
  | derived select source tableAlias ih =>
    obtain ⟨rows, hrows, h⟩ := bind_eq_ok.mp h
    obtain ⟨result, hresult, h⟩ := bind_eq_ok.mp h
    have hcells := Select.cells_run hvalues.toKept hsource.1 (ih hsource.2 hrows) hresult
    unfold Source.checkNames at h
    split at h <;> cases h
    exact hcells

/-- If the literals of a query and the cells of all tables have a property that is kept, then every
cell of the result has it. -/
theorem Query.cells_run {catalog : Catalog} {q : Query} {set : RowSet}
    (hvalues : Value.Spreads values) (hcatalog : catalog.Cells values) (hq : q.Literals values)
    (h : q.run catalog = .ok set) : set.Cells values := by
  obtain ⟨source, hsource, h⟩ := bind_eq_ok.mp h
  exact Select.cells_run hvalues.toKept hq.1
    (Source.cells_load hvalues hcatalog hq.2 hsource) h

end TransactSql
