/-
TransactSql.Proofs.Statement.Origins — where stored values come from.

The rows of an insertion hold values of expressions, and these are computed
from tokens, parameters and system variables alone
(`Statement.yieldsFrom_origins`). Before they are stored they are converted
to the types of their columns, and NULLs fill the other columns. So a
property that all these share and every operation keeps is one of every
cell that a statement stores or answers (`Statement.cells_run`).
-/
import TransactSql.Proofs.Query.Origins
import TransactSql.Proofs.Statement.Performing
import TransactSql.Proofs.Store.Inserting

namespace TransactSql

open Parse

variable {tokens : Token → Prop} {values : Value → Prop}

/-! ## Reading -/

/-- Parameters with a property are all that a scope needs to supply values with it, where the
numbers of the text have it. -/
theorem Scope.suppliesFrom_of_parameters {scope : Scope} (hvalues : Value.Spreads values)
    (hnumbers : ∀ t number, tokens t → t.kind = .number number → values number.toValue)
    (hparameters : ∀ entry ∈ scope.parameters.toList, values entry.2) :
    scope.SuppliesFrom tokens values := by
  refine ⟨hnumbers, hvalues.varchar, hvalues.nvarchar, hvalues.null .int, fun name v hv => ?_,
    fun name v hv => ?_⟩
  · obtain ⟨entry, hentry, rfl⟩ := Scope.mem_of_parameter hv
    exact hparameters entry hentry
  · rcases Scope.systemVariable_cases hv with rfl | rfl
    · exact hvalues.nvarchar _
    · exact hvalues.int _

theorem Statement.yieldsFrom_origins {scope : Scope} (hscope : scope.SuppliesFrom tokens values)
    (hkept : Value.Kept values) (token : Token) :
    (Statement.read scope token).YieldsFrom tokens fun statement =>
      statement.Supplied values ∧ statement.Selects (Query.Literals values) := by
  have hrow : ∀ name v, Lookup.noRow name = .ok v → values v := nofun
  refine Statement.yieldsFrom_read (Query.yieldsFrom_read hscope maxNesting) ?_ token
  refine (Expression.yieldsFrom_read hscope maxNesting).bind fun e he => ?_
  exact yieldsFrom_ofExcept fun v hv => he.literals.eval hkept hrow hv

/-! ## Storing -/

namespace Table

variable {t t' : Table} {row : Row}

theorem cells_place {converted : List (Nat × Value)} (hvalues : Value.Spreads values)
    (h : ∀ cell ∈ converted, values cell.2) : ∀ v ∈ t.place converted, values v := by
  intro v hv
  obtain ⟨target, -, rfl⟩ := List.mem_map.mp hv
  cases hlookup : converted.lookup target.2 with
  | none => exact hvalues.null _
  | some v =>
    obtain ⟨before, after, hsplit, -⟩ := List.lookup_eq_some_iff.mp hlookup
    exact h (target.2, v) (by simp [hsplit])

theorem cells_prepare {named : Bool} {targets : List Target} {given : Row}
    (hvalues : Value.Spreads values) (hgiven : ∀ v ∈ given, values v)
    (h : t.prepare named targets given = .ok row) : ∀ v ∈ row, values v := by
  unfold prepare at h
  split at h
  · obtain ⟨converted, hconverted, h⟩ := bind_eq_ok.mp h
    rw [convertValues_eq_mapM] at hconverted
    dsimp only at h
    split at h <;> cases h
    refine cells_place hvalues fun cell hcell => ?_
    obtain ⟨pair, hpair, hconvert⟩ := (mapM_eq_ok hconverted).2 cell hcell
    have hvalue := (convertGiven_eq_ok_iff.mp hconvert).1
    exact hvalues.convert hvalue (hgiven _ (List.of_mem_zip hpair).2)
  · cases h

theorem cells_insert {names : Option (List String)} {rows : List Row} {count : Nat}
    (hvalues : Value.Spreads values) (ht : ∀ row ∈ t.rows, ∀ v ∈ row, values v)
    (hrows : ∀ row ∈ rows, ∀ v ∈ row, values v) (h : (insert names rows).run t = .ok count t') :
    ∀ row ∈ t'.rows, ∀ v ∈ row, values v := by
  obtain ⟨targets, prepared, -, hprepared, rfl, -⟩ := insert_eq_ok h
  refine List.forall_mem_append.mpr ⟨ht, fun row hrow => ?_⟩
  obtain ⟨given, hgiven, hprepare⟩ := (mapM_eq_ok hprepared).2 row hrow
  exact cells_prepare hvalues (hrows given hgiven) hprepare

end Table

/-! ## Running -/

/-- Every cell of the rows that are answered has a property. -/
def Outcome.Cells (values : Value → Prop) : Outcome → Prop
  | rowSet set => set.Cells values
  | nonQuery _ => True

instance Outcome.decidableCells (values : Value → Prop) [DecidablePred values] :
    (outcome : Outcome) → Decidable (outcome.Cells values)
  | rowSet set => RowSet.decidableCells values set
  | nonQuery _ => isTrue trivial

/-- What a statement answers and what it stores has a property that its literals, its values and
all stored cells have. -/
theorem Statement.cells_run {catalog after : Catalog} {statement : Statement} {outcome : Outcome}
    (hvalues : Value.Spreads values) (hsound : catalog.Sound) (hcatalog : catalog.Cells values)
    (hsupplied : statement.Supplied values) (hselects : statement.Selects (Query.Literals values))
    (hrun : statement.perform.run catalog = .ok outcome after) :
    after.Cells values ∧ outcome.Cells values := by
  cases statement with
  | select query =>
    obtain ⟨set, hset, rfl, rfl⟩ := select_eq_ok.mp hrun
    exact ⟨hcatalog, Query.cells_run hvalues hcatalog hselects hset⟩
  | createTable name columns =>
    obtain ⟨table, htable, hcreate, rfl⟩ := createTable_eq_ok.mp hrun
    obtain ⟨-, -, hperm⟩ := Catalog.create_eq_ok hsound hcreate
    obtain ⟨rfl, -⟩ := Table.create_eq_ok htable
    refine ⟨fun entry hentry => ?_, trivial⟩
    rcases List.mem_cons.mp (hperm.mem_iff.mp hentry) with rfl | hentry
    · exact List.forall_mem_nil _
    · exact hcatalog entry hentry
  | insert name names rows =>
    obtain ⟨count, hinsert, rfl⟩ := insert_eq_ok.mp hrun
    obtain ⟨table, table', others, htable, -, hbefore, hafter⟩ :=
      Catalog.insert_eq_ok hsound hinsert
    refine ⟨fun entry hentry => ?_, trivial⟩
    rcases List.mem_cons.mp (hafter.mem_iff.mp hentry) with rfl | hentry
    · have hold := hcatalog _ (hbefore.mem_iff.mpr List.mem_cons_self)
      exact Table.cells_insert hvalues hold hsupplied.2 htable
    · exact hcatalog entry (hbefore.mem_iff.mpr (List.mem_cons_of_mem _ hentry))

end TransactSql
