/-
TransactSql.Proofs.Store.Loading — rows that fit are stored as they are.

A table whose columns have different names can be created. If the values
of a row are converted to cells that its columns can hold, the row is
stored cell by cell (`prepare_of_rowFits`). So rows that are inserted
into all columns of a table are found in it behind the old ones, in the
same order (`insert_of_rowFits`).
-/
import TransactSql.Proofs.Store.Catalogs

namespace TransactSql

open Collation

namespace Table

/-- The table without its rows. -/
def emptied (t : Table) : Table := { t with rows := [] }

variable {t : Table} {columns : List Column} {row : Row} {rows : List Row} {f : Value → Value}

/-! ## Creating -/

/-- No column has a name that was used before if all names differ. -/
theorem duplicate?_eq_none {used : List String}
    (hused : ∀ column ∈ columns, ∀ name ∈ used, sameName name column.name = false)
    (hnames : (columns.map (·.name)).Pairwise fun left right => sameName left right = false) :
    duplicate? used columns = none := by
  induction columns generalizing used with
  | nil => rfl
  | cons column rest ih =>
    rw [List.map_cons, List.pairwise_cons] at hnames
    have hunused : (used.any fun name => sameName name column.name) = false :=
      List.any_eq_false.mpr fun name hname => by
        rw [hused column List.mem_cons_self name hname]
        exact Bool.false_ne_true
    rw [duplicate?, hunused]
    refine ih (fun other hother name hname => ?_) hnames.2
    rcases List.mem_cons.mp hname with rfl | hname
    · exact hnames.1 other.name (List.mem_map_of_mem hother)
    · exact hused other (List.mem_cons_of_mem column hother) name hname

theorem create_of_pairwise
    (hnames : t.columnNames.Pairwise fun left right => sameName left right = false) :
    create t.name t.columns = .ok t.emptied := by
  have hnone : duplicate? [] t.columns = none :=
    duplicate?_eq_none (fun _ _ _ hname => absurd hname List.not_mem_nil) hnames
  rw [create, withRows, hnone]
  rfl

/-! ## Inserting -/

theorem convertValues_zipIdx (hlength : row.length = columns.length)
    (hconvert : ∀ cell ∈ columns.zip row, (f cell.2).convert cell.1.type = .ok cell.2)
    (offset : Nat) :
    convertValues (columns.zipIdx offset) (row.map f) =
      .ok ((row.zipIdx offset).map Prod.swap) := by
  induction columns generalizing row offset with
  | nil =>
    rw [List.length_eq_zero_iff.mp hlength]
    rfl
  | cons column columns ih =>
    cases row with
    | nil => cases hlength
    | cons v row =>
      rw [List.zip_cons_cons, List.forall_mem_cons] at hconvert
      have hrest := ih (Nat.succ.inj hlength) hconvert.2 (offset + 1)
      simp only [List.zipIdx_cons, List.map_cons, convertValues, hconvert.1, hrest]
      rfl

theorem lookup_zipIdx (row : Row) (offset i : Nat) :
    ((row.zipIdx offset).map Prod.swap).lookup (offset + i) = row[i]? := by
  induction row generalizing offset i with
  | nil => rfl
  | cons v row ih =>
    rw [List.zipIdx_cons, List.map_cons, Prod.swap_prod_mk, List.lookup_cons]
    cases i with
    | zero => simp
    | succ i =>
      have hne : (offset + (i + 1) == offset) = false := by simp
      rw [hne, List.getElem?_cons_succ, ← ih (offset + 1) i, Nat.add_right_comm]
      rfl

/-- Cells that are placed in their order are a row. -/
theorem place_zipIdx (hlength : row.length = t.columns.length) :
    t.place (row.zipIdx.map Prod.swap) = row := by
  refine List.ext_getElem (by rw [length_place, hlength]) fun i hplace hrow => ?_
  have hlookup := lookup_zipIdx row 0 i
  rw [Nat.zero_add, List.getElem?_eq_getElem hrow] at hlookup
  simp [place, hlookup]

theorem violated?_of_rowFits (h : RowFits t.columns row) : t.violated? row = none := by
  refine Option.map_eq_none_iff.mpr (List.find?_eq_none.mpr fun cell hcell => ?_)
  cases hnull : cell.2.isNull with
  | false => simp
  | true => simp [(h.cells cell hcell).nullable hnull]

/-- A row is stored as it is, if its values are what the given ones are converted to. -/
theorem prepare_of_rowFits (h : RowFits t.columns row)
    (hconvert : ∀ v ∈ row, (f v).convert v.type = .ok v) (named : Bool) :
    t.prepare named t.columns.zipIdx (row.map f) = .ok row := by
  have hcount : (row.map f).length = t.columns.zipIdx.length := by
    rw [List.length_map, List.length_zipIdx, h.length]
  have hcells : ∀ cell ∈ t.columns.zip row, (f cell.2).convert cell.1.type = .ok cell.2 := by
    intro cell hcell
    rw [← (h.cells cell hcell).type]
    exact hconvert cell.2 (List.of_mem_zip hcell).2
  have hconverted : convertValues t.columns.zipIdx (row.map f) = .ok (row.zipIdx.map Prod.swap) :=
    convertValues_zipIdx h.length hcells 0
  rw [prepare, if_pos hcount, hconverted]
  simp only [bind, Except.bind, place_zipIdx h.length, violated?_of_rowFits h]

/-- Rows that fit are stored as they are, behind the old ones. -/
theorem insert_of_rowFits (h : ∀ row ∈ rows, RowFits t.columns row)
    (hconvert : ∀ row ∈ rows, ∀ v ∈ row, (f v).convert v.type = .ok v) :
    (insert none (rows.map fun row => row.map f)).run t = .ok rows.length (t.append rows) := by
  have hprepared : t.prepareAll none (rows.map fun row => row.map f) = .ok rows := by
    change (rows.map fun row => row.map f).mapM (t.prepare false t.columns.zipIdx) = .ok rows
    induction rows with
    | nil => rfl
    | cons row rows ih =>
      rw [List.forall_mem_cons] at h hconvert
      rw [List.map_cons, List.mapM_cons, prepare_of_rowFits h.1 hconvert.1, ih h.2 hconvert.2]
      rfl
  rw [run_insert, hprepared]

end Table

namespace Catalog

variable {catalog : Catalog} {t : Table} {f : Value → Value}

/-- The catalog with a table stored under its name. -/
def store (catalog : Catalog) (t : Table) : Catalog := ⟨catalog.tables.insert t.name t⟩

theorem create_of_absent (h : catalog.contains t.name = false) :
    (create t).run catalog = .ok () (catalog.store t) := by
  have habsent : catalog.tables.contains t.name = false := h
  rw [run_create, habsent]
  rfl

theorem get?_store (h : catalog.Sound) (t : Table) :
    (catalog.store t).tables.get? t.name = some t := by
  rw [store, CollatedMap.get?_insert h.entries h.lawful, h.lawful.refl, if_pos rfl]

theorem read?_store (h : catalog.Sound) (t : Table) : (catalog.store t).read? t.name = some t := by
  rw [read?, get?_store h t]

/-- The rows of a table are inserted into a table that has none yet. -/
theorem insert_rows (h : catalog.tables.get? t.name = some t.emptied)
    (hfits : ∀ row ∈ t.rows, Table.RowFits t.columns row)
    (hconvert : ∀ row ∈ t.rows, ∀ v ∈ row, (f v).convert v.type = .ok v) :
    (insert t.name none (t.rows.map fun row => row.map f)).run catalog =
      .ok t.rows.length (catalog.store t) := by
  have hinsert : (Table.insert none (t.rows.map fun row => row.map f)).run t.emptied =
      .ok t.rows.length (t.emptied.append t.rows) :=
    Table.insert_of_rowFits hfits hconvert
  refine update_eq_ok.mpr ⟨t.emptied, t.emptied.append t.rows, h, hinsert, ?_⟩
  rw [replace_of_some h]
  rfl

end Catalog
end TransactSql
