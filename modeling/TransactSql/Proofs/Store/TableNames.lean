/-
TransactSql.Proofs.Store.TableNames — the list of the tables.

A catalog lists the names of its tables in the order of their collation.
The order has no ties there, since no two tables have the same name: each
name comes strictly before the next one. So the list does not show in
which order the tables are stored, nor how they were sorted
(`eq_of_inOrder`).

It shows little of the past of the catalog, either. Which names there are
depends on the tables that were created (`names_performAll`), and not on
the order in which they were, or on the rows that were inserted in
between. `tableNames_determined` puts all of this together.
-/
import Mathlib.Data.List.Pairwise
import TransactSql.Proofs.Store.Histories
import TransactSql.Proofs.Store.Loading

namespace TransactSql

namespace Collation

/-! ## Names in order -/

/-- No name comes after one that stands behind it. -/
def InOrder (names : List String) : Prop :=
  names.Pairwise fun left right => (caseInsensitive.compare left right).isLE = true

/-- No two names are the same. -/
def Differ (names : List String) : Prop :=
  names.Pairwise fun left right => sameName left right = false

variable {names names' : List String}

/-- The order and the equality of names go together. -/
theorem compare_eq_eq_iff {left right : String} :
    caseInsensitive.compare left right = .eq ↔ sameName left right = true := by
  have hfolds : FoldsAscii Unicode.lowercase := fun _ h => Unicode.lowercase_of_ascii h
  exact foldCompare_eq_iff.trans (foldEquals_iff hfolds).symm

theorem Differ.perm (h : Differ names) (hperm : names.Perm names') : Differ names' :=
  List.Pairwise.perm h hperm caseInsensitive_lawful.differs_symm

/-- Two of the names that are the same name are one. -/
theorem Differ.eq_of_sameName (h : Differ names) {left right : String} (hleft : left ∈ names)
    (hright : right ∈ names) (hsame : sameName left right = true) : left = right := by
  have hsymm : Std.Symm fun left right => sameName left right = false :=
    ⟨fun _ _ => caseInsensitive_lawful.differs_symm⟩
  by_contra hne
  cases hsame.symm.trans (List.Pairwise.forall h hleft hright hne)

/-- Names that differ have one order. -/
theorem eq_of_inOrder (h : Differ names) (hperm : names.Perm names') (horder : InOrder names)
    (horder' : InOrder names') : names = names' := by
  refine List.Perm.eq_of_pairwise (fun left right hleft hright hle hge => ?_) horder horder' hperm
  have hswap : caseInsensitive.compare right left = (caseInsensitive.compare left right).swap :=
    foldCompare_swap Unicode.lowercase left right
  have hequal : caseInsensitive.compare left right = .eq := by
    rw [hswap] at hge
    cases hcompare : caseInsensitive.compare left right <;> simp_all
  exact h.eq_of_sameName hleft (hperm.mem_iff.mpr hright) (compare_eq_eq_iff.mp hequal)

/-- Where names that differ are in order, each comes strictly before the next. -/
theorem InOrder.ascending (h : InOrder names) (hdiffer : Differ names) :
    names.Pairwise fun left right => caseInsensitive.compare left right = .lt := by
  refine (List.Pairwise.and h hdiffer).imp fun {left right} hboth => ?_
  obtain ⟨hle, hdiffers⟩ := hboth
  cases hcompare : caseInsensitive.compare left right with
  | lt => rfl
  | eq =>
    rw [compare_eq_eq_iff.mp hcompare] at hdiffers
    cases hdiffers
  | gt =>
    rw [hcompare] at hle
    cases hle

end Collation

/-! ## The names of tables -/

open Collation

/-- The names under which some requests create tables. -/
def CatalogRequest.created? : CatalogRequest → Option String
  | create table => some table.name
  | insert _ _ _ => none

namespace Catalog

variable {catalog after : Catalog}

/-- The names under which tables are stored. -/
def names (catalog : Catalog) : List String := catalog.tables.toList.map (·.1)

theorem Sound.differ (h : catalog.Sound) : Differ catalog.names := by
  have hpairwise := CollatedMap.toList_pairwise h.entries h.lawful
  rw [h.collation] at hpairwise
  exact List.pairwise_map.mpr hpairwise

theorem tableNames_perm (catalog : Catalog) : catalog.tableNames.Perm catalog.names :=
  List.mergeSort_perm _ _

theorem tableNames_inOrder (catalog : Catalog) : InOrder catalog.tableNames := by
  refine List.pairwise_mergeSort (foldCompare_trans Unicode.lowercase) (fun left right => ?_) _
  exact Bool.or_eq_true _ _ ▸ foldCompare_total Unicode.lowercase left right

/-! ## The names after some requests -/

/-- A table of a new name is created. -/
theorem names_create (h : catalog.Sound) {table : Table}
    (hdiffers : ∀ name ∈ catalog.names, sameName name table.name = false) :
    (catalog.perform (.create table)).names.Perm (table.name :: catalog.names) := by
  have habsent : catalog.tables.entry? table.name = none := by
    refine (CollatedMap.entry?_eq_none_iff h.entries h.lawful).mpr fun entry hentry => ?_
    rw [h.collation]
    exact hdiffers entry.1 (List.mem_map_of_mem hentry)
  have hnew : catalog.contains table.name = false := by
    rw [contains, CollatedMap.contains, habsent]
    rfl
  rw [perform, Change.stateAfter, create_of_absent hnew]
  exact (CollatedMap.toList_insert_of_absent h.entries table hnew).map (·.1)

/-- Inserted rows leave the names as they are. -/
theorem names_insert (h : catalog.Sound) (name : String) (columns : Option (List String))
    (rows : List Row) : (catalog.perform (.insert name columns rows)).names.Perm catalog.names := by
  unfold perform
  dsimp only
  rcases (atomic_insert name columns rows).stateAfter_cases catalog with hsame | ⟨_, hinsert⟩
  · rw [hsame]
  · obtain ⟨table, table', others, -, -, hbefore, hafter⟩ := insert_eq_ok h hinsert
    exact (hafter.map (·.1)).trans (hbefore.map (·.1)).symm

/-- Tables are added under the names under which they are created, and nothing else happens to the
names. -/
theorem names_performAll (h : catalog.Sound) {requests : List CatalogRequest}
    (hdiffer : Differ (catalog.names ++ requests.filterMap CatalogRequest.created?)) :
    (catalog.performAll requests).names.Perm
      (catalog.names ++ requests.filterMap CatalogRequest.created?) := by
  induction requests generalizing catalog with
  | nil => rw [List.filterMap_nil, List.append_nil]; exact .refl _
  | cons request requests ih =>
    cases request with
    | create table =>
      have hcreated : (CatalogRequest.create table :: requests).filterMap
          CatalogRequest.created? = table.name :: requests.filterMap CatalogRequest.created? := rfl
      rw [hcreated] at hdiffer ⊢
      have hnames := names_create h fun name hname =>
        (List.pairwise_append.mp hdiffer).2.2 name hname table.name List.mem_cons_self
      have hmove := (hnames.append_right (requests.filterMap CatalogRequest.created?)).trans
        List.perm_middle.symm
      exact (ih (h.perform _) (hdiffer.perm hmove.symm)).trans hmove
    | insert name columns rows =>
      have hnames := (names_insert h name columns rows).append_right
        (requests.filterMap CatalogRequest.created?)
      exact (ih (h.perform _) (hdiffer.perm hnames.symm)).trans hnames

/-- The list of the tables of a catalog that came about in any way has the name of every table,
once, and each name comes strictly before the next. Whatever the order in which the names are found
in the map of the tables, and however they are sorted, the list is the same. Requests that create
tables of the same names, which all differ, make catalogs with the same list, in whatever order they
do so and whatever they insert in between. -/
theorem tableNames_determined (requests : List CatalogRequest) :
    let catalog := empty.performAll requests
    catalog.tableNames.Perm (catalog.tables.toList.map (·.2.name)) ∧
      (catalog.tableNames.Pairwise fun left right =>
        caseInsensitive.compare left right = .lt) ∧
      (∀ listed : List String, listed.Perm (catalog.tables.toList.map (·.1)) →
        (listed.Pairwise fun left right =>
          (caseInsensitive.compare left right).isLE = true) → listed = catalog.tableNames) ∧
      ∀ others : List CatalogRequest,
        (requests.filterMap CatalogRequest.created?).Pairwise
          (fun left right => sameName left right = false) →
        (others.filterMap CatalogRequest.created?).Perm
          (requests.filterMap CatalogRequest.created?) →
        (empty.performAll others).tableNames = catalog.tableNames := by
  intro catalog
  have hsound : catalog.Sound := empty_sound.performAll requests
  have hperm := catalog.tableNames_perm
  have hdiffer : Differ catalog.tableNames := hsound.differ.perm hperm.symm
  have hkeys : catalog.names = catalog.tables.toList.map (·.2.name) :=
    List.map_congr_left hsound.keys
  refine ⟨hkeys ▸ hperm, catalog.tableNames_inOrder.ascending hdiffer,
    fun listed hlisted horder => ?_, fun others hcreated hsame => ?_⟩
  · exact (eq_of_inOrder hdiffer (hperm.trans hlisted.symm) catalog.tableNames_inOrder horder).symm
  · have hnames : catalog.names.Perm _ := names_performAll empty_sound hcreated
    have hothers : (empty.performAll others).names.Perm _ :=
      names_performAll empty_sound (Differ.perm hcreated hsame.symm)
    refine (eq_of_inOrder hdiffer ?_ catalog.tableNames_inOrder (tableNames_inOrder _)).symm
    exact (hperm.trans hnames).trans
      (hsame.symm.trans (((tableNames_perm _).trans hothers).symm))

/-- Three tables are created in two orders. Rows are inserted into one of them where it is there
already, and where it is not. -/
theorem tableNames_determined_of_three :
    let table (name : String) : Table := ⟨name, [⟨"a", .int, false⟩], []⟩
    let requests : List CatalogRequest := [.create (table "b"), .create (table "A"),
      .insert "a" none [[.int 1]], .create (table "c")]
    let others : List CatalogRequest := [.create (table "c"), .insert "a" none [[.int 1]],
      .create (table "A"), .create (table "b")]
    ((requests.filterMap CatalogRequest.created?).Pairwise fun left right =>
        sameName left right = false) ∧
      (others.filterMap CatalogRequest.created?).Perm
        (requests.filterMap CatalogRequest.created?) ∧
      (empty.performAll requests).tableNames = ["A", "b", "c"] ∧
      (empty.performAll others).tableNames = ["A", "b", "c"] := by
  intro table requests others
  have hdiffer : (requests.filterMap CatalogRequest.created?).Pairwise
      fun left right => sameName left right = false := by decide +kernel
  have hsame : (others.filterMap CatalogRequest.created?).Perm
      (requests.filterMap CatalogRequest.created?) := by decide +kernel
  obtain ⟨-, -, hlisted, hothers⟩ := tableNames_determined requests
  have hnames : (empty.performAll requests).tableNames = ["A", "b", "c"] :=
    (hlisted _ (by decide +kernel) (by decide +kernel)).symm
  exact ⟨hdiffer, hsame, hnames, (hothers others hdiffer hsame).trans hnames⟩

end Catalog
end TransactSql
