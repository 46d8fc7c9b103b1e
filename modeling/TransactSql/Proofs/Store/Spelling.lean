/-
TransactSql.Proofs.Store.Spelling — tables up to the spelling of names.

Two tables are `Respelled` if they differ in the spelling of their names
only: their rows are the same. What is done to both of them ends alike
(`Agree`): it succeeds on both and leaves them respelled, or it fails on
both, with failures that differ in nothing but the names they give.

A catalog that holds respelled tables under respelled names therefore
stays one, whatever is created in it or inserted into it.
-/
import TransactSql.Outcome
import TransactSql.Proofs.Collation.Spelling
import TransactSql.Proofs.Store.Catalogs

namespace TransactSql

open Collation

/-! ## Failures -/

/-- The failures are of the same sort, and give the same names in some spelling. -/
inductive Error.Respelled : Error → Error → Prop
  | refl (e : Error) : Respelled e e
  | incorrectSyntax {a b : String} (h : sameName a b = true) :
      Respelled (.incorrectSyntax a) (.incorrectSyntax b)
  | invalidObjectName {a b : String} (h : sameName a b = true) :
      Respelled (.invalidObjectName a) (.invalidObjectName b)
  | invalidColumnName {a b : String} (h : sameName a b = true) :
      Respelled (.invalidColumnName a) (.invalidColumnName b)
  | mustDeclareScalarVariable {a b : String} (h : sameName a b = true) :
      Respelled (.mustDeclareScalarVariable a) (.mustDeclareScalarVariable b)
  | systemVariable {a b : String} (h : sameName a b = true) :
      Respelled (.unsupported (.systemVariable a)) (.unsupported (.systemVariable b))
  | unknownFunction {a b : String} (h : sameName a b = true) :
      Respelled (.unknownFunction a) (.unknownFunction b)
  | unknownDataType (ordinal : Nat) {a b : String} (h : sameName a b = true) :
      Respelled (.unknownDataType ordinal a) (.unknownDataType ordinal b)
  | noColumnName (ordinal : Nat) {a b : String} (h : sameName a b = true) :
      Respelled (.noColumnName ordinal a) (.noColumnName ordinal b)
  | topColumnReference {a b : String} (h : sameName a b = true) :
      Respelled (.topColumnReference a) (.topColumnReference b)
  | objectAlreadyExists {a b : String} (h : sameName a b = true) :
      Respelled (.objectAlreadyExists a) (.objectAlreadyExists b)
  | duplicateColumn {a b c d : String} (h : sameName a b = true) (h' : sameName c d = true) :
      Respelled (.duplicateColumn a c) (.duplicateColumn b d)
  | notNullViolation {a b c d : String} (h : sameName a b = true) (h' : sameName c d = true) :
      Respelled (.notNullViolation a c) (.notNullViolation b d)
  | duplicateInsertColumn {a b : String} (h : sameName a b = true) :
      Respelled (.duplicateInsertColumn a) (.duplicateInsertColumn b)

/-- The failures are made by the same constructor. -/
theorem Error.Respelled.ctorIdx_eq {e f : Error} (h : e.Respelled f) : e.ctorIdx = f.ctorIdx := by
  cases h <;> rfl

/-! ## Computations -/

/-- Both computations fail alike, or both answer, and the answers correspond. -/
inductive Agree {α β : Type} (R : α → β → Prop) : Except Error α → Except Error β → Prop
  | ok {a : α} {b : β} (h : R a b) : Agree R (.ok a) (.ok b)
  | error {e f : Error} (h : e.Respelled f) : Agree R (.error e) (.error f)

namespace Agree

variable {α β γ δ : Type} {R : α → β → Prop} {S : γ → δ → Prop}

theorem refl (x : Except Error α) : Agree Eq x x := by
  cases x with
  | error e => exact .error (.refl e)
  | ok a => exact .ok rfl

theorem bind {x : Except Error α} {y : Except Error β} {f : α → Except Error γ}
    {g : β → Except Error δ} (h : Agree R x y) (hf : ∀ a b, R a b → Agree S (f a) (g b)) :
    Agree S (x >>= f) (y >>= g) := by
  cases h with
  | error he => exact .error he
  | ok hab => exact hf _ _ hab

theorem map {x : Except Error α} {y : Except Error β} {f : α → γ} {g : β → δ} (h : Agree R x y)
    (hf : ∀ a b, R a b → S (f a) (g b)) : Agree S (x.map f) (y.map g) := by
  cases h with
  | error he => exact .error he
  | ok hab => exact .ok (hf _ _ hab)

/-- Where the first answers are equal, the computations go on from one answer. -/
theorem bind_eq {x y : Except Error α} {f : α → Except Error γ} {g : α → Except Error δ}
    (h : Agree Eq x y) (hf : ∀ a, Agree S (f a) (g a)) : Agree S (x >>= f) (y >>= g) :=
  h.bind fun a _ hab => hab ▸ hf a

theorem mapM {f : α → Except Error γ} {g : β → Except Error γ} {xs : List α} {ys : List β}
    (h : List.Forall₂ R xs ys) (hf : ∀ a b, R a b → Agree Eq (f a) (g b)) :
    Agree Eq (xs.mapM f) (ys.mapM g) := by
  induction h with
  | nil => exact .ok rfl
  | cons hab _ ih =>
    rw [List.mapM_cons, List.mapM_cons]
    exact (hf _ _ hab).bind_eq fun _ => ih.bind_eq fun _ => .ok rfl

end Agree

/-! ## Columns -/

/-- The columns are the same but for their names. -/
structure Column.Respelled (c d : Column) : Prop where
  name : sameName c.name d.name = true
  type : c.type = d.type
  nullable : c.nullable = d.nullable

namespace Table

abbrev SameColumns (cs ds : List Column) : Prop := List.Forall₂ Column.Respelled cs ds

variable {cs ds : List Column}

/-- A name is used twice on both sides or on none. -/
theorem duplicate?_respelled {used used' : List String} (hused : SameNames used used')
    (h : SameColumns cs ds) :
    Option.Rel Column.Respelled (duplicate? used cs) (duplicate? used' ds) := by
  induction h generalizing used used' with
  | nil => exact .none
  | cons hcolumn _ ih =>
    unfold duplicate?
    rw [hused.any_eq hcolumn.name]
    split
    · exact .some hcolumn
    · exact ih (.cons hcolumn.name hused)

end Table

/-! ## Tables -/

/-- The tables are the same but for the spelling of their names. -/
structure Table.Respelled (t u : Table) : Prop where
  name : sameName t.name u.name = true
  columns : SameColumns t.columns u.columns
  rows : t.rows = u.rows

namespace Table

variable {cs ds : List Column} {t u : Table} {s s' : String}

theorem create_respelled (hname : sameName s s' = true) (h : SameColumns cs ds) :
    Agree Respelled (create s cs) (create s' ds) := by
  unfold create withRows
  rcases rel_option_cases (duplicate?_respelled .nil h) with ⟨hc, hd⟩ | ⟨c, d, hc, hd, hcolumn⟩ <;>
    rw [hc, hd]
  · exact .ok ⟨hname, h, rfl⟩
  · exact .error (.duplicateColumn hname hcolumn.name)

theorem Respelled.columnNames (h : t.Respelled u) : SameNames t.columnNames u.columnNames :=
  List.rel_map (fun _ _ hcolumn => hcolumn.name) h.columns

/-! ### Inserting -/

/-- The same place is the target, under some spelling of the name of its column. -/
def SameTarget (a b : Target) : Prop := a.1.Respelled b.1 ∧ a.2 = b.2

theorem Respelled.target? (h : t.Respelled u) (hname : sameName s s' = true) :
    Option.Rel SameTarget (t.target? s) (u.target? s') :=
  rel_find? (forall₂_zipIdx h.columns 0) fun _ _ htarget => sameName_congr htarget.1.name hname

theorem Respelled.namedTargets (h : t.Respelled u) {names names' : List String}
    (hnames : SameNames names names') (used : List Nat) :
    Agree (List.Forall₂ SameTarget) (t.namedTargets used names) (u.namedTargets used names') := by
  induction hnames generalizing used with
  | nil => exact .ok .nil
  | cons hname _ ih =>
    unfold Table.namedTargets
    rcases rel_option_cases (h.target? hname) with ⟨ht, hu⟩ | ⟨a, b, ht, hu, htarget⟩ <;>
      rw [ht, hu]
    · exact .error (.invalidColumnName hname)
    · dsimp only
      rw [htarget.2]
      split
      · exact .error (.duplicateInsertColumn htarget.1.name)
      · exact (ih _).bind fun _ _ hmore => .ok (.cons htarget hmore)

theorem Respelled.targets (h : t.Respelled u) {names names' : Option (List String)}
    (hnames : Option.Rel SameNames names names') :
    Agree (List.Forall₂ SameTarget) (t.targets names) (u.targets names') := by
  cases hnames with
  | none => exact .ok (forall₂_zipIdx h.columns 0)
  | some hnames => exact h.namedTargets hnames []

/-- The values are converted to the types of the columns, whatever these are called. -/
theorem convertValues_eq {targets targets' : List Target}
    (h : List.Forall₂ SameTarget targets targets') (values : Row) :
    convertValues targets values = convertValues targets' values := by
  induction h generalizing values with
  | nil => rfl
  | cons htarget _ ih =>
    cases values with
    | nil => rfl
    | cons value values => rw [convertValues, convertValues, htarget.1.type, htarget.2, ih]

theorem Respelled.place_eq (h : t.Respelled u) (values : List (Nat × Value)) :
    t.place values = u.place values :=
  map_eq_of_forall₂ (forall₂_zipIdx h.columns 0) fun _ _ htarget => by
    rw [htarget.2, htarget.1.type]

theorem Respelled.violated? (h : t.Respelled u) (row : Row) :
    Option.Rel Column.Respelled (t.violated? row) (u.violated? row) := by
  refine rel_option_map (rel_find? (forall₂_zip h.columns row) ?_) fun _ _ hcell => hcell.1
  intro _ _ hcell
  rw [hcell.1.nullable, hcell.2]

theorem Respelled.prepare (h : t.Respelled u) {targets targets' : List Target}
    (htargets : List.Forall₂ SameTarget targets targets') (named : Bool) (values : Row) :
    Agree Eq (t.prepare named targets values) (u.prepare named targets' values) := by
  unfold Table.prepare
  rw [htargets.length_eq, convertValues_eq htargets]
  split
  · refine (Agree.refl _).bind_eq fun converted => ?_
    dsimp only
    rw [h.place_eq]
    rcases rel_option_cases (h.violated? (u.place converted)) with
      ⟨ht, hu⟩ | ⟨c, d, ht, hu, hcolumn⟩ <;> rw [ht, hu]
    · exact .ok rfl
    · exact .error (.notNullViolation h.name hcolumn.name)
  · exact .refl _

/-- So many rows have been inserted, and the tables have the same rows again. -/
def SameInsertion (a b : Nat × Table) : Prop := a.1 = b.1 ∧ a.2.Respelled b.2

theorem Respelled.prepareAll (h : t.Respelled u) {names names' : Option (List String)}
    (hnames : Option.Rel SameNames names names') (rows : List Row) :
    Agree Eq (t.prepareAll names rows) (u.prepareAll names' rows) := by
  have hnamed : names.isSome = names'.isSome := isSome_eq_of_rel hnames
  unfold Table.prepareAll
  refine (h.targets hnames).bind fun targets targets' htargets => ?_
  rw [hnamed]
  exact Agree.mapM (List.forall₂_same.mpr fun _ _ => rfl) fun row _ (hrow : row = _) =>
    hrow ▸ h.prepare htargets _ row

theorem Respelled.insert (h : t.Respelled u) {names names' : Option (List String)}
    (hnames : Option.Rel SameNames names names') (rows : List Row) :
    Agree SameInsertion ((insert names rows).answer t) ((insert names' rows).answer u) := by
  rw [answer_insert, answer_insert]
  refine (h.prepareAll hnames rows).map fun prepared _ hprepared => ?_
  subst hprepared
  exact ⟨rfl, h.name, h.columns, congrArg (· ++ prepared) h.rows⟩

end Table

/-! ## Catalogs -/

/-- The catalogs have the same tables, up to the spelling of names. -/
structure Catalog.Respelled (c d : Catalog) : Prop where
  collation : c.tables.collation = caseInsensitive
  tables : c.tables.Respelled Table.Respelled d.tables

theorem Column.Respelled.refl (column : Column) : column.Respelled column :=
  ⟨sameName_refl _, rfl, rfl⟩

theorem Table.Respelled.refl (table : Table) : table.Respelled table :=
  ⟨sameName_refl _, List.forall₂_same.mpr fun column _ => .refl column, rfl⟩

namespace Catalog.Respelled

variable {c d : Catalog} {s s' : String}

theorem refl (h : c.tables.collation = caseInsensitive) : c.Respelled c :=
  ⟨h, .refl (h ▸ caseInsensitive_lawful) Table.Respelled.refl⟩

theorem lawful (h : c.Respelled d) : c.tables.collation.Lawful :=
  h.collation ▸ caseInsensitive_lawful

theorem equals (h : c.Respelled d) (hname : sameName s s' = true) :
    c.tables.collation.equals s s' = true := by
  rw [h.collation]
  exact hname

theorem get? (h : c.Respelled d) (hname : sameName s s' = true) :
    Option.Rel Table.Respelled (c.tables.get? s) (d.tables.get? s') :=
  h.tables.get? h.lawful (h.equals hname)

/-- The same table is stored in both. -/
theorem insert_table (h : c.Respelled d) (hname : sameName s s' = true) {t u : Table}
    (htable : t.Respelled u) :
    Respelled ⟨c.tables.insert s t⟩ ⟨d.tables.insert s' u⟩ where
  collation := by rw [CollatedMap.collation_insert, h.collation]
  tables := h.tables.insert h.lawful (h.equals hname) htable

theorem create (h : c.Respelled d) {t u : Table} (htable : t.Respelled u) :
    Agree (fun a b => Respelled a.2 b.2) ((Catalog.create t).answer c)
      ((Catalog.create u).answer d) := by
  rw [answer_create, answer_create, h.tables.contains_eq h.lawful (h.equals htable.name)]
  split
  · exact .error (.objectAlreadyExists htable.name)
  · exact .ok (h.insert_table htable.name htable)

theorem insert (h : c.Respelled d) (hname : sameName s s' = true)
    {names names' : Option (List String)} (hnames : Option.Rel SameNames names names')
    (rows : List Row) :
    Agree (fun a b => a.1 = b.1 ∧ Respelled a.2 b.2) ((Catalog.insert s names rows).answer c)
      ((Catalog.insert s' names' rows).answer d) := by
  rw [Catalog.insert, Catalog.insert, answer_update, answer_update]
  rcases rel_option_cases (h.get? hname) with ⟨hc, hd⟩ | ⟨t, u, hc, hd, htable⟩ <;> rw [hc, hd]
  · exact .error (.invalidObjectName hname)
  · exact (htable.insert hnames rows).map fun _ _ hinserted =>
      ⟨hinserted.1, h.insert_table hname hinserted.2⟩

theorem read? (h : c.Respelled d) (hname : sameName s s' = true) :
    Option.Rel Table.Respelled (c.read? s) (d.read? s') := by
  unfold Catalog.read?
  rcases rel_option_cases (h.get? hname) with ⟨hc, hd⟩ | ⟨t, u, hc, hd, htable⟩ <;> rw [hc, hd]
  · have hsystem : isSystemTable s = isSystemTable s' := sameName_congr hname (sameName_refl _)
    dsimp only
    rw [hsystem]
    split
    · exact .some (.refl _)
    · exact .none
  · exact .some htable

end Catalog.Respelled

/-! ## Outcomes -/

/-- The same rows stand under the same names. -/
structure RowSet.Respelled (s t : RowSet) : Prop where
  columns : SameNames s.columns t.columns
  rows : s.rows = t.rows

/-- A column reference stands for the same value. -/
theorem RowSet.Respelled.lookup {s t : RowSet} (h : s.Respelled t) (row : Row)
    {name name' : QualifiedName} (hname : SameNames name name') :
    Agree Eq (s.lookup row name) (t.lookup row name') := by
  unfold RowSet.lookup columnIndex?
  rw [h.columns.indexOf?_eq hname.last]
  split
  · exact .ok rfl
  · exact .error (.invalidColumnName hname.last)

/-- The outcomes are of one sort, with the same counts and the same rows. -/
inductive Outcome.Respelled : Outcome → Outcome → Prop
  | rowSet {s t : RowSet} (h : s.Respelled t) : Respelled (.rowSet s) (.rowSet t)
  | nonQuery (changed : Option Int32) : Respelled (.nonQuery changed) (.nonQuery changed)

theorem Outcome.Respelled.rowCount_eq {o p : Outcome} (h : o.Respelled p) :
    o.rowCount = p.rowCount := by
  cases h with
  | rowSet h => rw [rowCount, rowCount, h.rows]
  | nonQuery changed => rfl

end TransactSql
