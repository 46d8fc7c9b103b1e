/-
TransactSql.Proofs.Store.Histories — how catalogs come about.

There are two ways to change a catalog: a table is created in it, or rows
are inserted into one of its tables. A `CatalogRequest` asks for one of
them. A catalog is reachable if some requests, one after the other, make
it out of the empty one, and some of them may fail.

Every reachable catalog is sound (`Reachable.sound`).
-/
import TransactSql.Proofs.Store.Catalogs

namespace TransactSql

/-- Something that changes a catalog. -/
inductive CatalogRequest where
  | create (table : Table)
  | insert (name : String) (columns : Option (List String)) (rows : List Row)

namespace Catalog

/-- The catalog after a request. -/
def perform (catalog : Catalog) : CatalogRequest → Catalog
  | .create table => (create table).stateAfter catalog
  | .insert name columns rows => (insert name columns rows).stateAfter catalog

/-- The catalog after some requests, one after the other. -/
def performAll (catalog : Catalog) (requests : List CatalogRequest) : Catalog :=
  requests.foldl perform catalog

/-- The catalog can come about. -/
def Reachable (catalog : Catalog) : Prop := ∃ requests, empty.performAll requests = catalog

variable {catalog : Catalog}

theorem Sound.perform (h : catalog.Sound) (request : CatalogRequest) :
    (catalog.perform request).Sound := by
  cases request with
  | create table =>
    rcases (atomic_create table).stateAfter_cases catalog with hsame | ⟨_, hcreate⟩
    · exact (congrArg Sound hsame).mpr h
    · exact (create_eq_ok h hcreate).1
  | insert name columns rows =>
    rcases (atomic_insert name columns rows).stateAfter_cases catalog with hsame | ⟨_, hinsert⟩
    · exact (congrArg Sound hsame).mpr h
    · obtain ⟨_, _, _, -, hsound, -, -⟩ := insert_eq_ok h hinsert
      exact hsound

theorem Sound.performAll (h : catalog.Sound) (requests : List CatalogRequest) :
    (catalog.performAll requests).Sound := by
  induction requests generalizing catalog with
  | nil => exact h
  | cons request requests ih => exact ih (h.perform request)

theorem Reachable.perform (h : catalog.Reachable) (request : CatalogRequest) :
    (catalog.perform request).Reachable := by
  obtain ⟨requests, rfl⟩ := h
  exact ⟨requests ++ [request], List.foldl_append⟩

theorem Reachable.sound (h : catalog.Reachable) : catalog.Sound := by
  obtain ⟨requests, rfl⟩ := h
  exact empty_sound.performAll requests

end Catalog
end TransactSql
