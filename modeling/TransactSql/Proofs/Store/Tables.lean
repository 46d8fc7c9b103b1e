/-
TransactSql.Proofs.Store.Tables — what is true of every table.

`Table.Consistent` is what a table promises to the statements that read
it: its columns have different names, and each name leads to its own
column; every row has one cell for each column, of the type of the
column, and NULL only where the column allows it.

A table is consistent when it is created (`Consistent.create`), and stays
so when rows of well-formed values are inserted (`Consistent.insert`).
-/
import TransactSql.Proofs.Change
import TransactSql.Proofs.Collation.Laws
import TransactSql.Proofs.Value.WellFormed
import TransactSql.Table

namespace TransactSql

open Collation

/-- The cell can stand in the column. -/
structure Column.Holds (column : Column) (cell : Value) : Prop where
  type : cell.type = column.type
  wellFormed : cell.isWellFormed = true
  nullable : cell.isNull = true → column.nullable = true

instance decidableHolds (column : Column) (cell : Value) : Decidable (column.Holds cell) :=
  decidable_of_iff (cell.type = column.type ∧ cell.isWellFormed = true ∧
      (cell.isNull = true → column.nullable = true))
    ⟨fun h => ⟨h.1, h.2.1, h.2.2⟩, fun h => ⟨h.type, h.wellFormed, h.nullable⟩⟩

namespace Table

/-- The row has a cell for each column, and no others. -/
structure RowFits (columns : List Column) (row : Row) : Prop where
  length : row.length = columns.length
  cells : ∀ cell ∈ columns.zip row, cell.1.Holds cell.2

instance decidableRowFits (columns : List Column) (row : Row) : Decidable (RowFits columns row) :=
  decidable_of_iff
    (row.length = columns.length ∧ ∀ cell ∈ columns.zip row, cell.1.Holds cell.2)
    ⟨fun h => ⟨h.1, h.2⟩, fun h => ⟨h.length, h.cells⟩⟩

/-- What holds of every table that can be read. -/
structure Consistent (t : Table) : Prop where
  names : t.columnNames.Pairwise fun left right => sameName left right = false
  ordinals : ∀ (i : Nat) (column : Column), t.columns[i]? = some column →
    t.columnOrdinal? column.name = some i
  rows : ∀ row ∈ t.rows, RowFits t.columns row

variable {t t' : Table}

/-! ## Columns -/

theorem pairwise_of_duplicate? {used : List String} {columns : List Column}
    (h : duplicate? used columns = none) :
    (∀ column ∈ columns, ∀ name ∈ used, sameName name column.name = false) ∧
      (columns.map (·.name)).Pairwise fun left right => sameName left right = false := by
  induction columns generalizing used with
  | nil => exact ⟨List.forall_mem_nil _, .nil⟩
  | cons column rest ih =>
    unfold duplicate? at h
    split at h
    · cases h
    · rename_i hunused
      obtain ⟨hrest, hpairwise⟩ := ih h
      have hcolumn : ∀ name ∈ used, sameName name column.name = false := by
        simpa [List.any_eq_true] using hunused
      constructor
      · intro other hother
        rcases List.mem_cons.mp hother with rfl | hother
        · exact hcolumn
        · exact fun name hname => hrest other hother name (List.mem_cons_of_mem _ hname)
      · rw [List.map_cons, List.pairwise_cons]
        refine ⟨fun name hname => ?_, hpairwise⟩
        obtain ⟨other, hother, rfl⟩ := List.mem_map.mp hname
        exact hrest other hother column.name List.mem_cons_self

/-- A column is found by its name if the names differ. -/
theorem find?_name {columns : List Column} {offset i : Nat} {column : Column}
    (h : (columns.map (·.name)).Pairwise fun left right => sameName left right = false)
    (hcolumn : columns[i]? = some column) :
    (columns.zipIdx offset).find? (fun target => sameName target.1.name column.name) =
      some (column, offset + i) := by
  induction columns generalizing offset i with
  | nil => simp at hcolumn
  | cons first rest ih =>
    rw [List.map_cons, List.pairwise_cons] at h
    rw [List.zipIdx_cons]
    cases i with
    | zero =>
      obtain rfl : first = column := by simpa using hcolumn
      simp [sameName_refl]
    | succ i =>
      rw [List.getElem?_cons_succ] at hcolumn
      have hdiffers : sameName first.name column.name = false :=
        h.1 column.name (List.mem_map_of_mem (List.mem_of_getElem? hcolumn))
      rw [List.find?_cons_of_neg (by simp [hdiffers]), ih h.2 hcolumn]
      simp [Nat.add_comm, Nat.add_left_comm]

/-- A table that is created has its name and its columns, and no rows. -/
theorem create_eq_ok {name : String} {columns : List Column} (h : create name columns = .ok t) :
    t = ⟨name, columns, []⟩ ∧ duplicate? [] columns = none := by
  unfold create withRows at h
  split at h
  · cases h
  · cases h
    exact ⟨rfl, by assumption⟩

theorem Consistent.create {name : String} {columns : List Column}
    (h : Table.create name columns = .ok t) : t.Consistent := by
  obtain ⟨rfl, hcolumns⟩ := create_eq_ok h
  have hnames := (pairwise_of_duplicate? hcolumns).2
  refine ⟨hnames, fun i column hcolumn => ?_, List.forall_mem_nil _⟩
  unfold columnOrdinal? target?
  rw [find?_name hnames hcolumn, Option.map_some, Nat.zero_add]

/-! ## The columns that rows are inserted into -/

/-- The targets are columns of the table, each with its own place. -/
def Targets (t : Table) (targets : List Target) : Prop :=
  ∀ target ∈ targets, t.columns[target.2]? = some target.1

theorem targets_zipIdx (t : Table) : t.Targets t.columns.zipIdx := by
  intro target h
  exact List.mem_zipIdx_iff_getElem?.mp h

theorem targets_namedTargets {used : List Nat} {names : List String} {targets : List Target}
    (h : t.namedTargets used names = .ok targets) : t.Targets targets := by
  induction names generalizing used targets with
  | nil =>
    cases h
    exact List.forall_mem_nil _
  | cons name rest ih =>
    unfold namedTargets at h
    split at h
    · cases h
    · rename_i target htarget
      split at h
      · cases h
      · obtain ⟨more, hmore, h⟩ := bind_eq_ok.mp h
        cases h
        refine List.forall_mem_cons.mpr ⟨?_, ih hmore⟩
        exact targets_zipIdx t target (List.mem_of_find?_eq_some htarget)

theorem targets_of_targets {names : Option (List String)} {targets : List Target}
    (h : t.targets names = .ok targets) : t.Targets targets := by
  cases names with
  | none =>
    cases h
    exact targets_zipIdx t
  | some names => exact targets_namedTargets h

/-! ## Preparing a row -/

/-- A converted value is well-formed and of the type of the column that it is meant for. -/
theorem mem_convertValues {targets : List Target} {values : Row} {converted : List (Nat × Value)}
    (h : convertValues targets values = .ok converted)
    (hvalues : ∀ v ∈ values, v.isWellFormed = true) :
    ∀ cell ∈ converted, ∃ target ∈ targets,
      target.2 = cell.1 ∧ cell.2.type = target.1.type ∧ cell.2.isWellFormed = true := by
  induction targets generalizing values converted with
  | nil =>
    cases h
    exact List.forall_mem_nil _
  | cons target targets ih =>
    cases values with
    | nil =>
      cases h
      exact List.forall_mem_nil _
    | cons value values =>
      obtain ⟨first, hfirst, h⟩ := bind_eq_ok.mp h
      obtain ⟨more, hmore, h⟩ := bind_eq_ok.mp h
      cases h
      obtain ⟨hvalue, hrest⟩ := List.forall_mem_cons.mp hvalues
      refine List.forall_mem_cons.mpr ⟨?_, fun cell hcell => ?_⟩
      · obtain ⟨htype, hwellFormed⟩ := Value.isWellFormed_convert hfirst hvalue
        exact ⟨target, List.mem_cons_self, rfl, htype, hwellFormed⟩
      · obtain ⟨other, hother, hplace⟩ := ih hmore hrest cell hcell
        exact ⟨other, List.mem_cons_of_mem _ hother, hplace⟩

theorem length_place (t : Table) (values : List (Nat × Value)) :
    (t.place values).length = t.columns.length := by
  simp [place]

/-- Every cell of a row that is put together is of the type of its column. -/
theorem mem_zip_place {values : List (Nat × Value)}
    (h : ∀ cell ∈ values, ∀ column, t.columns[cell.1]? = some column →
      cell.2.type = column.type ∧ cell.2.isWellFormed = true) :
    ∀ cell ∈ t.columns.zip (t.place values),
      cell.2.type = cell.1.type ∧ cell.2.isWellFormed = true := by
  intro cell hcell
  obtain ⟨i, hi⟩ := List.getElem?_of_mem hcell
  obtain ⟨hcolumn, hvalue⟩ := List.getElem?_zip_eq_some.mp hi
  have hplaced : cell.2 = (values.lookup i).getD (.null cell.1.type) := by
    simpa [place, hcolumn] using hvalue.symm
  cases hlookup : values.lookup i with
  | none =>
    rw [hplaced, hlookup]
    exact ⟨rfl, rfl⟩
  | some v =>
    rw [hplaced, hlookup]
    obtain ⟨before, after, hsplit, -⟩ := List.lookup_eq_some_iff.mp hlookup
    exact h (i, v) (by simp [hsplit]) cell.1 hcolumn

theorem nullable_of_violated? {row : Row} (h : t.violated? row = none) :
    ∀ cell ∈ t.columns.zip row, cell.2.isNull = true → cell.1.nullable = true := by
  intro cell hcell hnull
  have hnone := List.find?_eq_none.mp (Option.map_eq_none_iff.mp h) cell hcell
  simpa [hnull] using hnone

/-- A row that is prepared fits the columns. -/
theorem rowFits_prepare {named : Bool} {targets : List Target} {values row : Row}
    (h : t.prepare named targets values = .ok row) (htargets : t.Targets targets)
    (hvalues : ∀ v ∈ values, v.isWellFormed = true) : RowFits t.columns row := by
  unfold prepare at h
  split at h
  · obtain ⟨converted, hconverted, h⟩ := bind_eq_ok.mp h
    dsimp only at h
    split at h
    · cases h
    · rename_i hviolated
      cases h
      have hcells : ∀ cell ∈ t.columns.zip (t.place converted),
          cell.2.type = cell.1.type ∧ cell.2.isWellFormed = true := by
        refine mem_zip_place fun cell hcell column hcolumn => ?_
        obtain ⟨target, htarget, hplace, hcell⟩ := mem_convertValues hconverted hvalues cell hcell
        have hsame := htargets target htarget
        rw [hplace, hcolumn] at hsame
        cases hsame
        exact hcell
      refine ⟨t.length_place converted, fun cell hcell => ?_⟩
      obtain ⟨htype, hwellFormed⟩ := hcells cell hcell
      exact ⟨htype, hwellFormed, nullable_of_violated? hviolated cell hcell⟩
  · cases h

/-! ## Inserting -/

/-- The rows that are to be stored for some rows of values, unless one of them cannot be
prepared. -/
def prepareAll (t : Table) (names : Option (List String)) (rows : List Row) :
    Except Error (List Row) := do
  let targets ← t.targets names
  rows.mapM (t.prepare names.isSome targets)

theorem insert_eq (names : Option (List String)) (rows : List Row) :
    insert names rows = (do
      let targets ← Change.reading (·.targets names)
      let prepared ← Change.reading fun t => rows.mapM (t.prepare names.isSome targets)
      modify (·.append prepared)
      return prepared.length) := by
  simp only [insert, Change.mapM_reading]

/-- An insertion appends the prepared rows, or it fails as the preparation does. -/
theorem run_insert (t : Table) (names : Option (List String)) (rows : List Row) :
    (insert names rows).run t =
      match t.prepareAll names rows with
      | .ok prepared => .ok prepared.length (t.append prepared)
      | .error failure => .error failure t := by
  rw [insert_eq, prepareAll, EStateM.run_bind, Change.run_reading]
  cases t.targets names with
  | error failure => rfl
  | ok targets =>
    dsimp only
    rw [EStateM.run_bind, Change.run_reading]
    show _ = match rows.mapM (t.prepare names.isSome targets) with
      | .ok prepared => EStateM.Result.ok prepared.length (t.append prepared)
      | .error failure => .error failure t
    cases rows.mapM (t.prepare names.isSome targets) <;> rfl

theorem answer_insert (t : Table) (names : Option (List String)) (rows : List Row) :
    (insert names rows).answer t =
      (t.prepareAll names rows).map fun prepared => (prepared.length, t.append prepared) := by
  rw [Change.answer, run_insert]
  cases t.prepareAll names rows <;> rfl

/-- All rows are prepared before any of them is stored: an insertion that fails, at whichever of its
rows, stores none. -/
theorem atomic_insert (names : Option (List String)) (rows : List Row) :
    Change.Atomic (insert names rows) := by
  rw [insert_eq]
  refine .reading_bind fun targets => .reading_bind fun prepared => Change.Total.atomic ?_
  exact (Change.total_modify _).bind fun _ => Change.total_pure _

/-- An insertion appends one row for each row that is given, and changes nothing else. -/
theorem insert_eq_ok {names : Option (List String)} {rows : List Row} {count : Nat}
    (h : (insert names rows).run t = .ok count t') :
    ∃ targets prepared, t.targets names = .ok targets ∧
      rows.mapM (t.prepare names.isSome targets) = .ok prepared ∧
      t' = t.append prepared ∧ count = prepared.length ∧ prepared.length = rows.length := by
  rw [run_insert] at h
  split at h
  · rename_i prepared hprepared
    cases h
    obtain ⟨targets, htargets, hprepared⟩ := bind_eq_ok.mp hprepared
    exact ⟨targets, prepared, htargets, hprepared, rfl, rfl, (mapM_eq_ok hprepared).1⟩
  · cases h

theorem Consistent.insert (h : t.Consistent) {names : Option (List String)} {rows : List Row}
    {count : Nat} (hinsert : (Table.insert names rows).run t = .ok count t')
    (hrows : ∀ row ∈ rows, ∀ v ∈ row, v.isWellFormed = true) : t'.Consistent := by
  obtain ⟨targets, prepared, htargets, hprepared, rfl, -⟩ := insert_eq_ok hinsert
  refine ⟨h.names, h.ordinals, fun row hrow => ?_⟩
  rcases List.mem_append.mp hrow with hrow | hrow
  · exact h.rows row hrow
  · obtain ⟨values, hvalues, hprepare⟩ := (mapM_eq_ok hprepared).2 row hrow
    have hfits : RowFits t.columns row :=
      rowFits_prepare hprepare (targets_of_targets htargets) (hrows values hvalues)
    exact hfits

end Table
end TransactSql
