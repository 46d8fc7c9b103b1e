/-
TransactSql.Proofs.Statement.Frame — which tables a statement touches.

A statement passes the names of some tables to the catalog (`tables`).
Its answer depends on no other table, and it changes no other: on
catalogs that agree on a set of names with these among them, it answers
the same, and it leaves catalogs that agree on the set again and that are
what they were outside of it (`perform_agreeOn`).

A set of names is a predicate that does not tell spellings of one name
apart (`IgnoresSpelling`).
-/
import TransactSql.Proofs.Except
import TransactSql.Proofs.Statement.Performing

namespace TransactSql

open Collation

/-! ## Sets of names -/

/-- The predicate holds of all spellings of a name or of none. -/
def IgnoresSpelling (names : String → Prop) : Prop :=
  ∀ a b, names a → sameName a b = true → names b

variable {names : String → Prop}

/-! ## Catalogs -/

namespace Catalog

/-- The same tables are found under these names. -/
def AgreeOn (names : String → Prop) (c d : Catalog) : Prop :=
  ∀ name, names name → c.tables.get? name = d.tables.get? name

variable {c d e : Catalog} {name : String}

theorem AgreeOn.trans (h : AgreeOn names c d) (h' : AgreeOn names d e) : AgreeOn names c e :=
  fun name hname => (h name hname).trans (h' name hname)

theorem AgreeOn.mono {names' : String → Prop} (h : AgreeOn names c d)
    (hsub : ∀ name, names' name → names name) : AgreeOn names' c d :=
  fun name hname => h name (hsub name hname)

theorem AgreeOn.read?_eq (h : AgreeOn names c d) (hname : names name) :
    c.read? name = d.read? name := by
  rw [read?, read?, h name hname]

/-- Two catalogs store a table of the set. -/
theorem AgreeOn.insert (h : AgreeOn names c d) (hc : c.Sound) (hd : d.Sound) (table : Table) :
    AgreeOn names ⟨c.tables.insert name table⟩ ⟨d.tables.insert name table⟩ := by
  intro other hother
  rw [CollatedMap.get?_insert hc.entries hc.lawful, CollatedMap.get?_insert hd.entries hd.lawful,
    hc.collation, hd.collation, h other hother]

/-- To store a table of a set changes nothing outside of the set. -/
theorem agreeOn_insert (hc : c.Sound) (hnames : IgnoresSpelling names) (hname : names name)
    (table : Table) : AgreeOn (fun a => ¬names a) ⟨c.tables.insert name table⟩ c := by
  intro other hother
  rw [CollatedMap.get?_insert hc.entries hc.lawful, if_neg]
  intro hsame
  rw [hc.collation] at hsame
  exact hother (hnames name other hname (caseInsensitive_lawful.symm hsame))

theorem mem_toList_iff (hc : c.Sound) {key : String} {table : Table} :
    (key, table) ∈ c.tables.toList ↔ c.tables.get? key = some table ∧ key = table.name := by
  rw [CollatedMap.get?_eq_some_iff hc.entries hc.lawful]
  constructor
  · exact fun hmem => ⟨⟨_, hmem, hc.lawful.refl key, rfl⟩, hc.keys _ hmem⟩
  · rintro ⟨⟨entry, hmem, -, rfl⟩, rfl⟩
    rwa [← hc.keys entry hmem]

/-- Catalogs that agree on all names have the same tables. -/
theorem perm_of_get?_eq (hc : c.Sound) (hd : d.Sound)
    (h : ∀ name, c.tables.get? name = d.tables.get? name) :
    c.tables.toList.Perm d.tables.toList := by
  have hnodup : ∀ {b : Catalog}, b.Sound → b.tables.toList.Nodup := fun hb =>
    (CollatedMap.toList_pairwise hb.entries hb.lawful).imp fun hdiffers heq => by
      rw [heq, hb.lawful.refl] at hdiffers
      cases hdiffers
  rw [List.perm_ext_iff_of_nodup (hnodup hc) (hnodup hd)]
  rintro ⟨key, table⟩
  rw [mem_toList_iff hc, mem_toList_iff hd, h key]

end Catalog

/-! ## Statements -/

/-- The names that a source reads tables under. -/
def Source.tables : Source → List String
  | unit => []
  | table name _ => [name.last]
  | derived _ source _ => source.tables

/-- The names that a statement passes to the catalog. A table that cannot be made is not passed. -/
def Statement.tables : Statement → List String
  | select query => query.source.tables
  | createTable name columns =>
    match Table.create name columns with
    | .ok table => [table.name]
    | .error _ => []
  | insert table _ _ => [table]

variable {c d : Catalog}

/-- A source has the same rows where the tables of its names are the same. -/
theorem Source.load_agreeOn (h : c.AgreeOn names d) {source : Source}
    (htables : ∀ name ∈ source.tables, names name) : source.load c = source.load d := by
  induction source with
  | unit => rfl
  | table name tableAlias =>
    rw [load, load, h.read?_eq (htables name.last List.mem_cons_self)]
  | derived select source tableAlias ih => rw [load, load, ih htables]

namespace Statement

/-- Two runs, on catalogs that agree on some names, end with the same failure or with the same
outcome. Their catalogs agree on the names again, and other names stand for what they did. -/
inductive RunsAlike (names : String → Prop) (c d : Catalog) :
    Except Error (Outcome × Catalog) → Except Error (Outcome × Catalog) → Prop
  | failure (e : Error) : RunsAlike names c d (.error e) (.error e)
  | outcome (outcome : Outcome) {c' d' : Catalog} (inside : c'.AgreeOn names d')
      (left : c'.AgreeOn (fun a => ¬names a) c) (right : d'.AgreeOn (fun a => ¬names a) d) :
      RunsAlike names c d (.ok (outcome, c')) (.ok (outcome, d'))

theorem perform_agreeOn (hnames : IgnoresSpelling names) (hc : c.Sound) (hd : d.Sound)
    (h : c.AgreeOn names d) {statement : Statement}
    (htables : ∀ name ∈ statement.tables, names name) :
    RunsAlike names c d (statement.perform.answer c) (statement.perform.answer d) := by
  cases statement with
  | select query =>
    have hrows : query.run c = query.run d := by
      rw [Query.run, Query.run, Source.load_agreeOn h htables]
    rw [answer_select, answer_select, hrows]
    cases query.run d with
    | error e => exact .failure e
    | ok set => exact .outcome _ h (fun _ _ => rfl) fun _ _ => rfl
  | createTable name columns =>
    rw [answer_createTable, answer_createTable]
    rw [tables] at htables
    cases hcreate : Table.create name columns with
    | error e => exact .failure e
    | ok table =>
      rw [hcreate] at htables
      have hname : names table.name := htables table.name List.mem_cons_self
      have hcontains : c.tables.contains table.name = d.tables.contains table.name := by
        have hsame := congrArg Option.isSome (h table.name hname)
        rwa [CollatedMap.get?, CollatedMap.get?, Option.isSome_map, Option.isSome_map] at hsame
      show RunsAlike names c d ((Catalog.create table).answer c >>= _)
        ((Catalog.create table).answer d >>= _)
      rw [Catalog.answer_create, Catalog.answer_create, hcontains]
      cases d.tables.contains table.name with
      | true => exact .failure _
      | false =>
        exact .outcome _ (h.insert hc hd table) (Catalog.agreeOn_insert hc hnames hname table)
          (Catalog.agreeOn_insert hd hnames hname table)
  | insert name columns rows =>
    have hname : names name := htables name List.mem_cons_self
    rw [answer_insert, answer_insert, Catalog.insert, Catalog.answer_update,
      Catalog.answer_update, h name hname]
    cases d.tables.get? name with
    | none => exact .failure _
    | some table =>
      dsimp only
      cases (Table.insert columns rows).answer table with
      | error e => exact .failure e
      | ok inserted =>
        exact .outcome _ (h.insert hc hd inserted.2)
          (Catalog.agreeOn_insert hc hnames hname inserted.2)
          (Catalog.agreeOn_insert hd hnames hname inserted.2)

end Statement
end TransactSql
