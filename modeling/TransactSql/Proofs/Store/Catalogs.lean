/-
TransactSql.Proofs.Store.Catalogs — what is true of every catalog.

`Catalog.Sound` is about the map that holds the tables: it is sound, it
compares names without regard to case, and each table is stored under its
own name. With consistent tables in it, a catalog is `Consistent`: names
are unique, and each of them leads to its table.

A catalog changes in two ways only. `create` adds a table
(`create_eq_ok`), and `insert` appends rows to one (`insert_eq_ok`).
`AddsTable` and `AppendsRows` say that everything else stays as it is.
Where one of them fails, the whole catalog does (`atomic_create`,
`atomic_insert`).
-/
import TransactSql.Catalog.Basic
import TransactSql.Proofs.Collation.MapEntries
import TransactSql.Proofs.Store.Tables

namespace TransactSql.Catalog

open Collation

/-- What holds of the map of the tables. -/
structure Sound (catalog : Catalog) : Prop where
  collation : catalog.tables.collation = caseInsensitive
  entries : catalog.tables.Sound
  keys : ∀ entry ∈ catalog.tables.toList, entry.1 = entry.2.name

/-- What holds of every catalog that can be read. -/
structure Consistent (catalog : Catalog) : Prop where
  names : (catalog.tables.toList.map (·.2.name)).Pairwise fun left right =>
    sameName left right = false
  keys : ∀ entry ∈ catalog.tables.toList, entry.1 = entry.2.name
  found : ∀ entry ∈ catalog.tables.toList, catalog.tables.get? entry.2.name = some entry.2
  tables : ∀ entry ∈ catalog.tables.toList, entry.2.Consistent

/-- A new table has been added. It is empty, and its name was not in use. -/
def AddsTable (before after : Catalog) : Prop :=
  ∃ table : Table, table.rows = [] ∧
    (∀ entry ∈ before.tables.toList, sameName entry.2.name table.name = false) ∧
    after.tables.toList.Perm ((table.name, table) :: before.tables.toList)

/-- So many rows have been appended to one of the tables. -/
def AppendsRows (count : Nat) (before after : Catalog) : Prop :=
  ∃ (table : Table) (new : List Row) (others : List (String × Table)), new.length = count ∧
    before.tables.toList.Perm ((table.name, table) :: others) ∧
    after.tables.toList.Perm ((table.name, { table with rows := table.rows ++ new }) :: others)

variable {catalog after : Catalog}

theorem Sound.lawful (h : catalog.Sound) : catalog.tables.collation.Lawful := by
  rw [h.collation]
  exact caseInsensitive_lawful

theorem empty_sound : empty.Sound :=
  ⟨rfl, CollatedMap.empty_sound _, List.forall_mem_nil _⟩

/-- Consistent tables make a consistent catalog. -/
theorem Sound.consistent (h : catalog.Sound)
    (htables : ∀ entry ∈ catalog.tables.toList, entry.2.Consistent) : catalog.Consistent := by
  refine ⟨?_, h.keys, fun entry hentry => ?_, htables⟩
  · rw [List.pairwise_map]
    refine (CollatedMap.toList_pairwise h.entries h.lawful).imp_of_mem fun hx hy hdiffers => ?_
    rwa [h.collation, h.keys _ hx, h.keys _ hy] at hdiffers
  · have hname : catalog.tables.collation.equals entry.1 entry.2.name = true := by
      rw [h.keys entry hentry]
      exact h.lawful.refl _
    have hfound := (CollatedMap.entry?_eq_some_iff h.entries h.lawful).mpr ⟨hentry, hname⟩
    rw [CollatedMap.get?, hfound, Option.map_some]

/-- Storing a table under its name keeps the catalog sound. -/
theorem Sound.insert_table (h : catalog.Sound) (key : String) {table : Table}
    (hkeys : ∀ entry ∈ (catalog.tables.insert key table).toList, entry.1 = entry.2.name) :
    Sound ⟨catalog.tables.insert key table⟩ :=
  ⟨by rw [CollatedMap.collation_insert, h.collation], h.entries.insert h.lawful key table, hkeys⟩

/-! ## Changes -/

theorem run_create (catalog : Catalog) (table : Table) :
    (create table).run catalog =
      if catalog.tables.contains table.name then
        .error (.objectAlreadyExists table.name) catalog
      else .ok () ⟨catalog.tables.insert table.name table⟩ := by
  unfold create
  rw [EStateM.run_bind, EStateM.run_get]
  dsimp only
  split <;> rfl

/-- The name is looked up before the table is added. -/
theorem atomic_create (table : Table) : Change.Atomic (create table) := by
  intro catalog failure after hfails
  rw [run_create] at hfails
  split at hfails <;> cases hfails
  rfl

/-- A table that is exchanged for itself leaves the catalog as it is. -/
theorem replace_of_get? {name : String} {table : Table}
    (h : catalog.tables.get? name = some table) : catalog.replace name table = catalog := by
  rw [replace, CollatedMap.modify_of_get? h]

/-- To put a table in the place of another one is to store it under the name. -/
theorem replace_of_some {name : String} {old : Table} (h : catalog.tables.get? name = some old)
    (table : Table) : catalog.replace name table = ⟨catalog.tables.insert name table⟩ := by
  rw [replace, CollatedMap.modify_eq_insert h]

theorem run_update {α : Type} (name : String) (change : Change Table α) (catalog : Catalog) :
    (update name change).run catalog =
      match catalog.tables.get? name with
      | none => .error (.invalidObjectName name) catalog
      | some table =>
        match change.run table with
        | .ok answer table => .ok answer (catalog.replace name table)
        | .error failure table => .error failure (catalog.replace name table) := rfl

theorem update_eq_ok {α : Type} {change : Change Table α} {name : String} {answer : α} :
    (update name change).run catalog = .ok answer after ↔
      ∃ table table', catalog.tables.get? name = some table ∧
        change.run table = .ok answer table' ∧ after = catalog.replace name table' := by
  rw [run_update]
  cases catalog.tables.get? name with
  | none => simp
  | some table => cases hchange : change.run table <;> simp [hchange, eq_comm]

theorem answer_create (catalog : Catalog) (table : Table) :
    (create table).answer catalog =
      if catalog.tables.contains table.name then .error (.objectAlreadyExists table.name)
      else .ok ((), ⟨catalog.tables.insert table.name table⟩) := by
  rw [Change.answer, run_create]
  cases catalog.tables.contains table.name <;> rfl

theorem answer_update {α : Type} (name : String) (change : Change Table α) (catalog : Catalog) :
    (update name change).answer catalog =
      match catalog.tables.get? name with
      | none => .error (.invalidObjectName name)
      | some table => (change.answer table).map fun changed =>
        (changed.1, ⟨catalog.tables.insert name changed.2⟩) := by
  rw [Change.answer, run_update]
  cases hfound : catalog.tables.get? name with
  | none => rfl
  | some table =>
    dsimp only [Change.answer]
    cases change.run table with
    | error failure left => rfl
    | ok answer table' =>
      dsimp only
      rw [replace_of_some hfound]
      rfl

/-- A table that stays as it is when its change fails stays so in its catalog. -/
theorem atomic_update {α : Type} {change : Change Table α} (h : Change.Atomic change)
    (name : String) : Change.Atomic (update name change) := by
  intro catalog failure after hfails
  rw [run_update] at hfails
  split at hfails
  · cases hfails
    rfl
  · rename_i table hfound
    split at hfails
    · cases hfails
    · rename_i left hchange
      cases hfails
      rw [h table failure left hchange]
      exact replace_of_get? hfound

/-- Whichever of the rows cannot be inserted, none of them is. -/
theorem atomic_insert (name : String) (columns : Option (List String)) (rows : List Row) :
    Change.Atomic (insert name columns rows) :=
  atomic_update (Table.atomic_insert columns rows) name

/-- What the creation of a table does. -/
theorem create_eq_ok (h : catalog.Sound) {table : Table}
    (hcreate : (create table).run catalog = .ok () after) :
    after.Sound ∧ (∀ entry ∈ catalog.tables.toList, sameName entry.2.name table.name = false) ∧
      after.tables.toList.Perm ((table.name, table) :: catalog.tables.toList) := by
  rw [run_create] at hcreate
  split at hcreate
  · cases hcreate
  · rename_i habsent
    cases hcreate
    rw [Bool.not_eq_true] at habsent
    have hperm := CollatedMap.toList_insert_of_absent h.entries table habsent
    refine ⟨h.insert_table table.name fun entry hentry => ?_, fun entry hentry => ?_, hperm⟩
    · rcases List.mem_cons.mp (hperm.mem_iff.mp hentry) with rfl | hentry
      · rfl
      · exact h.keys entry hentry
    · have hnone : catalog.tables.entry? table.name = none := by
        simpa [CollatedMap.contains] using habsent
      have hdiffers := (CollatedMap.entry?_eq_none_iff h.entries h.lawful).mp hnone entry hentry
      rwa [h.collation, h.keys entry hentry] at hdiffers

/-- What an insertion of rows does. -/
theorem insert_eq_ok (h : catalog.Sound) {name : String} {names : Option (List String)}
    {rows : List Row} {count : Nat}
    (hinsert : (insert name names rows).run catalog = .ok count after) :
    ∃ table table' others, (Table.insert names rows).run table = .ok count table' ∧
      after.Sound ∧ catalog.tables.toList.Perm ((table.name, table) :: others) ∧
      after.tables.toList.Perm ((table.name, table') :: others) := by
  obtain ⟨table, table', hfound, htable, rfl⟩ := update_eq_ok.mp hinsert
  have hreplace := replace_of_some hfound table'
  obtain ⟨⟨key, table₁⟩, hentry, rfl⟩ := Option.map_eq_some_iff.mp hfound
  obtain ⟨others, hbefore, hafter⟩ := CollatedMap.toList_insert_of_entry? h.entries table' hentry
  have hkey : key = table₁.name := h.keys _ (hbefore.mem_iff.mpr List.mem_cons_self)
  obtain ⟨-, prepared, -, -, htable', -⟩ := Table.insert_eq_ok htable
  subst hkey
  rw [hreplace]
  refine ⟨table₁, table', others, htable, ?_, hbefore, hafter⟩
  refine h.insert_table name fun entry hmem => ?_
  rcases List.mem_cons.mp (hafter.mem_iff.mp hmem) with rfl | hmem
  · rw [htable']
    rfl
  · exact h.keys entry (hbefore.mem_iff.mpr (List.mem_cons_of_mem _ hmem))

end TransactSql.Catalog
