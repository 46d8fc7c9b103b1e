/-
TransactSql.Proofs.Store.Inserting — what an insertion stores.

The values that are inserted are for some columns of the table: for those
that are named, each name in any spelling and each column once, or for
all of them in their order (`TargetPlaces`). Values make one row: a target
column gets what its value is converted to, and every other column gets
NULL (`Makes`). The row is stored if there are as many values as target
columns and no column gets a NULL that it does not allow (`Stores`).

An insertion answers exactly if there are target columns and a row can be
stored for each list of values, and then it appends these rows
(`insert_eq_ok_iff`). `Accepts` says of the values alone when a row can be
stored for them.
-/
import TransactSql.Proofs.Collation.Spelling
import TransactSql.Proofs.Store.Tables

namespace TransactSql

open Collation

namespace Table

variable {t t' : Table} {names : Option (List String)} {places : List Nat} {values row : Row}
  {rows : List Row} {targets : List Target} {converted : List (Nat × Value)}

/-! ## The columns that values are for -/

/-- The column at this place has the name, in some spelling. -/
def HasName (t : Table) (name : String) (place : Nat) : Prop :=
  ∃ column, t.columns[place]? = some column ∧ sameName column.name name = true

/-- The places of the columns that values are for: those of the names, each of another column, or
all in their order. -/
def TargetPlaces (t : Table) : (names : Option (List String)) → (places : List Nat) → Prop
  | none, places => places = List.range t.columns.length
  | some names, places => List.Forall₂ t.HasName names places ∧ places.Nodup

theorem target?_eq_some_iff (h : t.Consistent) {name : String} {target : Target} :
    t.target? name = some target ↔
      t.columns[target.2]? = some target.1 ∧ sameName target.1.name name = true := by
  constructor
  · intro hfind
    unfold target? at hfind
    have hmem := List.mem_of_find?_eq_some hfind
    exact ⟨List.mem_zipIdx_iff_getElem?.mp hmem, by simpa using List.find?_some hfind⟩
  · rintro ⟨hcolumn, hname⟩
    have hsame : ∀ candidate : Target,
        sameName candidate.1.name name = sameName candidate.1.name target.1.name := fun _ =>
      sameName_congr (sameName_refl _) (caseInsensitive_lawful.symm hname)
    rw [target?, funext hsame, find?_name h.names hcolumn, Nat.zero_add]

theorem namedTargets_eq_ok_iff {used : List Nat} {names : List String} {targets : List Target} :
    t.namedTargets used names = .ok targets ↔
      List.Forall₂ (fun name target => t.target? name = some target) names targets ∧
        (targets.map (·.2)).Nodup ∧ ∀ target ∈ targets, target.2 ∉ used := by
  induction names generalizing used targets with
  | nil =>
    rw [namedTargets, List.forall₂_nil_left_iff]
    refine ⟨fun h => ?_, fun h => congrArg Except.ok h.1.symm⟩
    cases h
    exact ⟨rfl, .nil, List.forall_mem_nil _⟩
  | cons name rest ih =>
    rw [namedTargets, List.forall₂_cons_left_iff]
    constructor
    · intro h
      split at h
      · cases h
      · next target htarget =>
        split at h
        · cases h
        · next hunused =>
          obtain ⟨more, hmore, h⟩ := bind_eq_ok.mp h
          cases h
          obtain ⟨hall, hnodup, hfree⟩ := ih.mp hmore
          refine ⟨⟨target, more, htarget, hall, rfl⟩, ?_, ?_⟩
          · rw [List.map_cons, List.nodup_cons]
            refine ⟨fun hmem => ?_, hnodup⟩
            obtain ⟨other, hother, hsame⟩ := List.mem_map.mp hmem
            exact hfree other hother (hsame ▸ List.mem_cons_self)
          · refine List.forall_mem_cons.mpr ⟨by simpa using hunused, fun other hother hused => ?_⟩
            exact hfree other hother (List.mem_cons_of_mem _ hused)
    · rintro ⟨⟨target, more, htarget, hall, rfl⟩, hnodup, hfree⟩
      rw [List.map_cons, List.nodup_cons] at hnodup
      rw [List.forall_mem_cons] at hfree
      have hmore : t.namedTargets (target.2 :: used) rest = .ok more := by
        refine ih.mpr ⟨hall, hnodup.2, fun other hother hused => ?_⟩
        rcases List.mem_cons.mp hused with hsame | hused
        · exact hnodup.1 (hsame ▸ List.mem_map_of_mem hother)
        · exact hfree.2 other hother hused
      simp [htarget, hfree.1, hmore, bind, Except.bind]

/-- The names lead to target columns exactly if these are the columns that have the names. -/
theorem exists_targets_iff (h : t.Consistent) :
    (∃ targets, t.targets names = .ok targets ∧ targets.map (·.2) = places) ↔
      t.TargetPlaces names places := by
  cases names with
  | none =>
    simp only [targets, Except.ok.injEq, exists_eq_left', TargetPlaces, List.zipIdx_map_snd,
      ← List.range_eq_range']
    exact eq_comm
  | some names =>
    simp only [targets, namedTargets_eq_ok_iff, TargetPlaces, List.not_mem_nil, not_false_eq_true,
      implies_true, and_true]
    constructor
    · rintro ⟨targets, ⟨hall, hnodup⟩, rfl⟩
      refine ⟨List.forall₂_map_right_iff.mpr (hall.imp fun name target htarget => ?_), hnodup⟩
      obtain ⟨hcolumn, hname⟩ := (target?_eq_some_iff h).mp htarget
      exact ⟨target.1, hcolumn, hname⟩
    · rintro ⟨hall, hnodup⟩
      suffices hsome : ∃ targets, List.Forall₂ (fun name target => t.target? name = some target)
          names targets ∧ targets.map (·.2) = places by
        obtain ⟨targets, htargets, rfl⟩ := hsome
        exact ⟨targets, ⟨htargets, hnodup⟩, rfl⟩
      clear hnodup
      induction hall with
      | nil => exact ⟨[], .nil, rfl⟩
      | @cons name place _ _ hname _ ih =>
        obtain ⟨column, hcolumn, hname⟩ := hname
        obtain ⟨targets, htargets, rfl⟩ := ih
        have htarget : t.target? name = some (column, place) :=
          (target?_eq_some_iff h).mpr ⟨hcolumn, hname⟩
        exact ⟨(column, place) :: targets, .cons htarget htargets, rfl⟩

theorem TargetPlaces.nodup (h : t.TargetPlaces names places) : places.Nodup := by
  cases names with
  | none =>
    rw [TargetPlaces] at h
    exact h ▸ List.nodup_range
  | some names => exact h.2

/-! ## The row that is made of some values -/

/-- The row that is made of some values: a target column gets what its value is converted to, and
every other column gets NULL. -/
structure Makes (t : Table) (places : List Nat) (values row : Row) : Prop where
  length : row.length = t.columns.length
  target : ∀ place v column, (place, v) ∈ places.zip values → t.columns[place]? = some column →
    ∃ cell, v.convert column.type = .ok cell ∧ row[place]? = some cell
  other : ∀ place column, place ∉ places → t.columns[place]? = some column →
    row[place]? = some (.null column.type)

/-- A column gets a NULL only if it allows one. -/
def AllowsNulls (t : Table) (row : Row) : Prop :=
  ∀ cell ∈ t.columns.zip row, cell.2.isNull = true → cell.1.nullable = true

/-- The values are as many as the columns that they are for, and the row that is made of them is
stored. -/
structure Stores (t : Table) (places : List Nat) (values row : Row) : Prop
    extends t.Makes places values row where
  count : values.length = places.length
  nulls : t.AllowsNulls row

/-- No row but one is made of values that are enough. -/
theorem Makes.unique {row' : Row} (h : t.Makes places values row) (h' : t.Makes places values row')
    (hcount : places.length ≤ values.length) : row = row' := by
  refine List.ext_getElem? fun place => ?_
  cases hcolumn : t.columns[place]? with
  | none =>
    have hlength := List.getElem?_eq_none_iff.mp hcolumn
    rw [List.getElem?_eq_none (h.length ▸ hlength), List.getElem?_eq_none (h'.length ▸ hlength)]
  | some column =>
    by_cases hplace : place ∈ places
    · obtain ⟨i, hi, rfl⟩ := List.getElem_of_mem hplace
      have hgiven : (places[i], values[i]) ∈ places.zip values :=
        List.mem_iff_getElem.mpr ⟨i, by simp; omega, by simp⟩
      obtain ⟨cell, hcell, hrow⟩ := h.target _ _ column hgiven hcolumn
      obtain ⟨cell', hcell', hrow'⟩ := h'.target _ _ column hgiven hcolumn
      rw [hcell] at hcell'
      cases hcell'
      rw [hrow, hrow']
    · rw [h.other place column hplace hcolumn, h'.other place column hplace hcolumn]

/-! ## Preparing a row -/

/-- Converts a value to the type of the column that it is for. -/
def convertGiven (given : Target × Value) : Except Error (Nat × Value) := do
  let cell ← given.2.convert given.1.1.type
  .ok (given.1.2, cell)

theorem convertGiven_eq_ok_iff {given : Target × Value} {cell : Nat × Value} :
    convertGiven given = .ok cell ↔
      given.2.convert given.1.1.type = .ok cell.2 ∧ given.1.2 = cell.1 := by
  simp only [convertGiven, bind_eq_ok, Except.ok.injEq]
  constructor
  · rintro ⟨v, hv, rfl⟩
    exact ⟨hv, rfl⟩
  · rintro ⟨hv, hplace⟩
    exact ⟨cell.2, hv, Prod.ext hplace rfl⟩

theorem convertValues_eq_mapM (targets : List Target) (values : Row) :
    convertValues targets values = (targets.zip values).mapM convertGiven := by
  induction targets generalizing values with
  | nil => rfl
  | cons target targets ih =>
    cases values with
    | nil => rfl
    | cons v values =>
      rw [convertValues, ih, List.zip_cons_cons, List.mapM_cons, convertGiven]
      cases v.convert target.1.type <;> rfl

/-- The converted values stand at the places of the target columns. -/
theorem map_fst_convertValues (hcount : values.length = targets.length)
    (h : convertValues targets values = .ok converted) :
    converted.map (·.1) = targets.map (·.2) := by
  rw [convertValues_eq_mapM, mapM_eq_ok_iff] at h
  have hplaces : List.Forall₂ Eq ((targets.zip values).map (·.1.2)) (converted.map (·.1)) := by
    rw [List.forall₂_map_left_iff, List.forall₂_map_right_iff]
    exact h.imp fun _ _ hcell => (convertGiven_eq_ok_iff.mp hcell).2
  rw [List.forall₂_eq_eq_eq] at hplaces
  have htargets : (targets.zip values).map (·.1.2) = ((targets.zip values).map (·.1)).map (·.2) :=
    (List.map_map ..).symm
  rw [← hplaces, htargets, List.map_fst_zip (Nat.le_of_eq hcount.symm)]

theorem lookup_of_mem {cells : List (Nat × Value)} {cell : Nat × Value}
    (hplaces : (cells.map (·.1)).Nodup) (h : cell ∈ cells) :
    cells.lookup cell.1 = some cell.2 := by
  induction cells with
  | nil => cases h
  | cons first cells ih =>
    rw [List.map_cons, List.nodup_cons] at hplaces
    rcases List.mem_cons.mp h with rfl | h
    · exact List.lookup_cons_self
    · have hne : (cell.1 == first.1) = false := by
        rw [beq_eq_false_iff_ne]
        exact fun heq => hplaces.1 (heq ▸ List.mem_map_of_mem h)
      rw [List.lookup_cons, hne]
      exact ih hplaces.2 h

theorem getElem?_place {place : Nat} {column : Column} (h : t.columns[place]? = some column) :
    (t.place converted)[place]? =
      some ((converted.lookup place).getD (.null column.type)) := by
  simp [Table.place, h]

theorem mem_zip_places {place : Nat} {v : Value} :
    (place, v) ∈ (targets.map (·.2)).zip values ↔
      ∃ column, ((column, place), v) ∈ targets.zip values := by
  rw [List.zip_map_left, List.mem_map]
  constructor
  · rintro ⟨⟨⟨column, _⟩, _⟩, hmem, hsame⟩
    cases hsame
    exact ⟨column, hmem⟩
  · rintro ⟨column, hmem⟩
    exact ⟨_, hmem, rfl⟩

/-- Converted values that are put at their places are the row that is made of them. -/
theorem makes_place (htargets : t.Targets targets) (hplaces : (targets.map (·.2)).Nodup)
    (hcount : values.length = targets.length)
    (h : convertValues targets values = .ok converted) :
    t.Makes (targets.map (·.2)) values (t.place converted) where
  length := t.length_place converted
  target place v column hgiven hcolumn := by
    obtain ⟨column', hmem⟩ := mem_zip_places.mp hgiven
    obtain rfl : column = column' :=
      Option.some.inj (hcolumn.symm.trans (htargets _ (List.of_mem_zip hmem).1))
    have hall := h
    rw [convertValues_eq_mapM, mapM_eq_ok_iff] at hall
    obtain ⟨cell, hcell, hconverted⟩ := exists_of_mem_forall₂ hall.flip hmem
    obtain ⟨hvalue, hplace⟩ := convertGiven_eq_ok_iff.mp hconverted
    have hkeys : (converted.map (·.1)).Nodup := map_fst_convertValues hcount h ▸ hplaces
    refine ⟨cell.2, hvalue, ?_⟩
    rw [getElem?_place hcolumn, show place = cell.1 from hplace, lookup_of_mem hkeys hcell,
      Option.getD_some]
  other place column hplace hcolumn := by
    have hnone : converted.lookup place = none := by
      rw [List.lookup_eq_none_iff]
      intro cell hcell
      rw [← map_fst_convertValues hcount h] at hplace
      simpa using fun heq : place = cell.1 => hplace (heq ▸ List.mem_map_of_mem hcell)
    rw [getElem?_place hcolumn, hnone, Option.getD_none]

/-- The values can be converted if each of them can. -/
theorem exists_convertValues (htargets : t.Targets targets)
    (h : ∀ place v column, (place, v) ∈ (targets.map (·.2)).zip values →
      t.columns[place]? = some column → ∃ cell, v.convert column.type = .ok cell) :
    ∃ converted, convertValues targets values = .ok converted := by
  simp only [convertValues_eq_mapM]
  refine exists_mapM_ok_iff.mpr ?_
  rintro ⟨⟨column, place⟩, v⟩ hgiven
  have hcolumn := htargets (column, place) (List.of_mem_zip hgiven).1
  obtain ⟨cell, hcell⟩ := h place v column (mem_zip_places.mpr ⟨column, hgiven⟩) hcolumn
  exact ⟨(place, cell), convertGiven_eq_ok_iff.mpr ⟨hcell, rfl⟩⟩

theorem violated?_eq_none_iff : t.violated? row = none ↔ t.AllowsNulls row := by
  rw [violated?, Option.map_eq_none_iff, List.find?_eq_none, AllowsNulls]
  refine forall₂_congr fun cell _ => ?_
  cases cell.2.isNull <;> simp

/-- The values of a row are stored as the row that is made of them, if they can be stored. -/
theorem prepare_eq_ok_iff (htargets : t.Targets targets) (hplaces : (targets.map (·.2)).Nodup)
    (named : Bool) : t.prepare named targets values = .ok row ↔
      t.Stores (targets.map (·.2)) values row := by
  rw [prepare]
  constructor
  · intro h
    split at h
    · next hcount =>
      obtain ⟨converted, hconverted, h⟩ := bind_eq_ok.mp h
      dsimp only at h
      split at h
      · cases h
      · next hnone =>
        cases h
        exact ⟨makes_place htargets hplaces hcount hconverted, by rw [hcount, List.length_map],
          violated?_eq_none_iff.mp hnone⟩
    · cases h
  · intro h
    have hcount : values.length = targets.length := by rw [h.count, List.length_map]
    obtain ⟨converted, hconverted⟩ := exists_convertValues htargets
      fun place v column hgiven hcolumn =>
        (h.target place v column hgiven hcolumn).imp fun _ => And.left
    have hmakes := makes_place htargets hplaces hcount hconverted
    have hrow : t.place converted = row := hmakes.unique h.toMakes (Nat.le_of_eq h.count.symm)
    have hnone : t.violated? row = none := violated?_eq_none_iff.mpr h.nulls
    rw [if_pos hcount, hconverted]
    simp only [bind, Except.bind, hrow, hnone]

/-! ## Inserting -/

/-- The values are as many as the columns that they are for, each can be converted to the type of
its column, and no column of the row that is made of them gets a NULL that it does not allow. -/
structure Accepts (t : Table) (places : List Nat) (values : Row) : Prop where
  count : values.length = places.length
  converts : ∀ place v column, (place, v) ∈ places.zip values → t.columns[place]? = some column →
    ∃ cell, v.convert column.type = .ok cell
  nulls : ∀ row, t.Makes places values row → t.AllowsNulls row

/-- Some row is stored for the values exactly if they are accepted. -/
theorem exists_stores_iff (h : t.Consistent) (hplaces : t.TargetPlaces names places) :
    (∃ row, t.Stores places values row) ↔ t.Accepts places values := by
  constructor
  · rintro ⟨row, hrow⟩
    refine ⟨hrow.count, fun place v column hgiven hcolumn => ?_, fun other hother => ?_⟩
    · exact (hrow.target place v column hgiven hcolumn).imp fun _ => And.left
    · rw [hother.unique hrow.toMakes (Nat.le_of_eq hrow.count.symm)]
      exact hrow.nulls
  · intro haccepts
    obtain ⟨targets, htargets, rfl⟩ := (exists_targets_iff h).mpr hplaces
    have htargets := targets_of_targets htargets
    have hcount : values.length = targets.length := by rw [haccepts.count, List.length_map]
    obtain ⟨converted, hconverted⟩ := exists_convertValues htargets haccepts.converts
    have hmakes := makes_place htargets hplaces.nodup hcount hconverted
    exact ⟨t.place converted, hmakes, haccepts.count, haccepts.nulls _ hmakes⟩

theorem insert_of_prepared {added : List Row} (htargets : t.targets names = .ok targets)
    (hadded : rows.mapM (t.prepare names.isSome targets) = .ok added) :
    (insert names rows).run t = .ok added.length (t.append added) := by
  have hprepared : t.prepareAll names rows = .ok added :=
    bind_eq_ok.mpr ⟨targets, htargets, hadded⟩
  rw [run_insert, hprepared]

/-- An insertion answers exactly if there are target columns and each row can be stored, and then
it appends what is stored. -/
theorem insert_eq_ok_iff (h : t.Consistent) {count : Nat} :
    (insert names rows).run t = .ok count t' ↔
      ∃ places added, t.TargetPlaces names places ∧ List.Forall₂ (t.Stores places) rows added ∧
        count = rows.length ∧ t' = t.append added := by
  constructor
  · intro hinsert
    obtain ⟨targets, added, htargets, hadded, rfl, rfl, hlength⟩ := insert_eq_ok hinsert
    have hplaces := (exists_targets_iff h).mp ⟨targets, htargets, rfl⟩
    refine ⟨_, added, hplaces, ?_, hlength, rfl⟩
    refine (mapM_eq_ok_iff.mp hadded).imp fun _ _ hprepare => ?_
    exact (prepare_eq_ok_iff (targets_of_targets htargets) hplaces.nodup _).mp hprepare
  · rintro ⟨places, added, hplaces, hadded, rfl, rfl⟩
    obtain ⟨targets, htargets, rfl⟩ := (exists_targets_iff h).mpr hplaces
    have hprepared : rows.mapM (t.prepare names.isSome targets) = .ok added := by
      refine mapM_eq_ok_iff.mpr (hadded.imp fun _ _ hstores => ?_)
      exact (prepare_eq_ok_iff (targets_of_targets htargets) hplaces.nodup _).mpr hstores
    rw [insert_of_prepared htargets hprepared, hadded.length_eq]

/-- A column that allows no NULL is a target of every row that is stored. -/
theorem Stores.mem_places (h : t.Stores places values row) {place : Nat} {column : Column}
    (hcolumn : t.columns[place]? = some column) (hnullable : column.nullable = false) :
    place ∈ places := by
  by_contra hplace
  have hnull := h.other place column hplace hcolumn
  have hcell : (column, Value.null column.type) ∈ t.columns.zip row :=
    List.mem_of_getElem? (List.getElem?_zip_eq_some.mpr ⟨hcolumn, hnull⟩)
  rw [h.nulls _ hcell rfl] at hnullable
  cases hnullable

/-- An insertion answers exactly if the names are those of different columns and the values of each
row are accepted; otherwise the table stays as it is. It answers how many rows it was given, and the
table then has one row more for each, in their order behind the old ones: the row that is made of
its values. If there are rows, no column that allows no NULL was left out. -/
theorem insert_stores (h : t.Consistent) (names : Option (List String)) (rows : List Row) :
    ((∃ count t', (insert names rows).run t = .ok count t') ↔
      ∃ places, t.TargetPlaces names places ∧ ∀ values ∈ rows, t.Accepts places values) ∧
    (∀ failure t', (insert names rows).run t = .error failure t' → t' = t) ∧
    ∀ count t', (insert names rows).run t = .ok count t' → count = rows.length ∧
      ∃ places added, t.TargetPlaces names places ∧ List.Forall₂ (t.Makes places) rows added ∧
        t' = { t with rows := t.rows ++ added } ∧
        (rows ≠ [] → ∀ place column, t.columns[place]? = some column → column.nullable = false →
          place ∈ places) := by
  refine ⟨⟨?_, ?_⟩, atomic_insert names rows t, fun count t' hinsert => ?_⟩
  · rintro ⟨count, t', hinsert⟩
    obtain ⟨places, added, hplaces, hadded, -⟩ := (insert_eq_ok_iff h).mp hinsert
    refine ⟨places, hplaces, fun values hvalues => (exists_stores_iff h hplaces).mp ?_⟩
    exact exists_forall₂_iff.mp ⟨added, hadded⟩ values hvalues
  · rintro ⟨places, hplaces, haccepts⟩
    obtain ⟨added, hadded⟩ := exists_forall₂_iff.mpr fun values hvalues =>
      (exists_stores_iff h hplaces).mpr (haccepts values hvalues)
    exact ⟨_, _, (insert_eq_ok_iff h).mpr ⟨places, added, hplaces, hadded, rfl, rfl⟩⟩
  · obtain ⟨places, added, hplaces, hadded, hcount, ht'⟩ := (insert_eq_ok_iff h).mp hinsert
    have hmakes := hadded.imp fun _ _ (hstores : t.Stores places _ _) => hstores.toMakes
    refine ⟨hcount, places, added, hplaces, hmakes, ht', fun hne place column hcolumn hnull => ?_⟩
    obtain ⟨values, hvalues⟩ := List.exists_mem_of_ne_nil rows hne
    obtain ⟨row, -, hstores⟩ := exists_of_mem_forall₂ hadded.flip hvalues
    exact hstores.mem_places hcolumn hnull

/-- Of three columns two are named, in another order and another case: the text of digits is stored
as a number in the first column, the name in the second one, and NULL in the third. -/
theorem insert_stores_of_two_names :
    let t : Table := ⟨"People", [⟨"Id", .int, false⟩, ⟨"Name", .nvarchar, false⟩,
      ⟨"Age", .bigint, true⟩], []⟩
    t.Consistent ∧ ∃ places added, t.TargetPlaces (some ["NAME", "id"]) places ∧
      List.Forall₂ (t.Makes places) [[.varchar "Ada", .varchar " 7"]] added ∧
      [[.int 7, .nvarchar "Ada", .null .bigint]] = added := by
  intro t
  have hcreate : Table.create "People" t.columns = .ok t := by decide +kernel
  have hconsistent : t.Consistent := .create hcreate
  have hinsert : (insert (some ["NAME", "id"]) [[.varchar "Ada", .varchar " 7"]]).run t =
      .ok 1 { t with rows := [[.int 7, .nvarchar "Ada", .null .bigint]] } := by decide +kernel
  obtain ⟨-, places, added, hplaces, hadded, hrows, -⟩ :=
    (insert_stores hconsistent _ _).2.2 _ _ hinsert
  exact ⟨hconsistent, places, added, hplaces, hadded, congrArg Table.rows hrows⟩

end Table
end TransactSql
