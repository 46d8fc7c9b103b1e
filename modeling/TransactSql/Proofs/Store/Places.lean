/-
TransactSql.Proofs.Store.Places — maps from column names to places.

A reference to a column goes to the first column of its name
(`Collation.indexOf?`). That is what a map from names to places answers
into which the columns are put in order, each unless its name is there
already (`firstPlaces`). A table is content with a plain map, in which
the last column of a name would win (`lastPlaces`): the names of its
columns all differ, and so the two maps are one and the same.
-/
import TransactSql.Proofs.Collation.Spelling
import TransactSql.Proofs.Store.Catalogs

namespace TransactSql

open Collation

variable {α : Type}

/-! ## Keys that are not replaced -/

namespace CollatedMap

variable {m : CollatedMap α}

/-- Gives a key a value, unless it has one. -/
def insertNew (m : CollatedMap α) (key : String) (value : α) : CollatedMap α :=
  if m.contains key then m else m.insert key value

theorem contains_eq_isSome_get? (key : String) : m.contains key = (m.get? key).isSome := by
  rw [contains, get?, Option.isSome_map]

theorem collation_insertNew (key : String) (value : α) :
    (m.insertNew key value).collation = m.collation := by
  unfold insertNew
  split
  · rfl
  · exact collation_insert m key value

theorem Sound.insertNew (h : m.Sound) (hc : m.collation.Lawful) (key : String) (value : α) :
    (m.insertNew key value).Sound := by
  unfold CollatedMap.insertNew
  split
  · exact h
  · exact h.insert hc key value

/-- A key keeps the value that it has. -/
theorem get?_insertNew (h : m.Sound) (hc : m.collation.Lawful) (key : String) (value : α)
    (other : String) : (m.insertNew key value).get? other =
      (m.get? other).or (if m.collation.equals key other then some value else none) := by
  have hsymm : m.collation.equals other key = m.collation.equals key other :=
    Bool.eq_iff_iff.mpr ⟨hc.symm, hc.symm⟩
  have hvalue : (m.insertNew key value).get? other =
      if m.contains key then m.get? other
      else if m.collation.equals key other then some value else m.get? other := by
    unfold insertNew
    split
    · rfl
    · rw [get?_insert h hc, hsymm]
  rw [hvalue, contains_eq_isSome_get?]
  cases hsame : m.collation.equals key other with
  | false => simp
  | true =>
    rw [get?_congr hc hsame]
    cases m.get? other <;> rfl

end CollatedMap

/-! ## Places -/

/-- The places of columns by their names; of several columns with one name the first counts. -/
def firstPlaces (columns : List String) : CollatedMap Nat :=
  columns.zipIdx.foldl (fun m column => m.insertNew column.1 column.2)
    (CollatedMap.empty caseInsensitive)

/-- The places of columns by their names; of several columns with one name the last counts. -/
def lastPlaces (columns : List String) : CollatedMap Nat :=
  CollatedMap.ofList caseInsensitive columns.zipIdx

variable {m : CollatedMap Nat}

/-- Names that are not in the map yet are found at the place of the first one. -/
theorem get?_foldl_insertNew (h : m.Sound) (hc : m.collation = caseInsensitive)
    (columns : List String) (start : Nat) (name : String) :
    ((columns.zipIdx start).foldl (fun m column => m.insertNew column.1 column.2) m).get? name =
      (m.get? name).or ((indexOf? columns name).map (· + start)) := by
  induction columns generalizing m start with
  | nil => simp [indexOf?]
  | cons column rest ih =>
    have hlawful : m.collation.Lawful := hc ▸ caseInsensitive_lawful
    have hindex : indexOf? (column :: rest) name =
        if sameName column name then some 0 else (indexOf? rest name).map (· + 1) :=
      List.findIdx?_cons
    rw [List.zipIdx_cons, List.foldl_cons, ih (h.insertNew hlawful column start)
      ((CollatedMap.collation_insertNew column start).trans hc),
      CollatedMap.get?_insertNew h hlawful, Option.or_assoc, hc, hindex]
    show (m.get? name).or ((if sameName column name then some start else none).or _) = _
    cases sameName column name with
    | true => simp
    | false =>
      rw [if_neg Bool.false_ne_true, if_neg Bool.false_ne_true, Option.none_or, Option.map_map]
      exact congrArg (fun shift => (m.get? name).or ((indexOf? rest name).map shift))
        (funext fun place => by rw [Function.comp_apply]; omega)

/-- A map in which the first columns count finds the first column of a name. -/
theorem get?_firstPlaces (columns : List String) (name : String) :
    (firstPlaces columns).get? name = indexOf? columns name := by
  have hempty : (CollatedMap.empty caseInsensitive : CollatedMap Nat).get? name = none := rfl
  have hsound : (CollatedMap.empty caseInsensitive : CollatedMap Nat).Sound :=
    CollatedMap.empty_sound _
  rw [firstPlaces, get?_foldl_insertNew hsound rfl, hempty, Option.none_or]
  exact Option.map_id'

/-- Names that all differ are all new. -/
theorem foldl_insert_eq (h : m.Sound) (hc : m.collation = caseInsensitive) {columns : List String}
    (start : Nat) (hnew : ∀ column ∈ columns, m.contains column = false)
    (hdiffer : columns.Pairwise fun left right => sameName left right = false) :
    (columns.zipIdx start).foldl (fun m column => m.insert column.1 column.2) m =
      (columns.zipIdx start).foldl (fun m column => m.insertNew column.1 column.2) m := by
  induction columns generalizing m start with
  | nil => rfl
  | cons column rest ih =>
    have hlawful : m.collation.Lawful := hc ▸ caseInsensitive_lawful
    obtain ⟨hcolumn, hrest⟩ := List.forall_mem_cons.mp hnew
    obtain ⟨hothers, hdiffer⟩ := List.pairwise_cons.mp hdiffer
    have hinsert : m.insertNew column start = m.insert column start := by
      rw [CollatedMap.insertNew, if_neg (by simp [hcolumn])]
    rw [List.zipIdx_cons, List.foldl_cons, List.foldl_cons, hinsert]
    refine ih (h.insert hlawful column start)
      ((CollatedMap.collation_insert m column start).trans hc) (start + 1) (fun other hother => ?_)
      hdiffer
    have hname : sameName other column = false :=
      caseInsensitive_lawful.differs_symm (hothers other hother)
    rw [CollatedMap.contains_eq_isSome_get?, CollatedMap.get?_insert h hlawful, hc]
    show (if sameName other column then some start else m.get? other).isSome = false
    rw [hname, if_neg Bool.false_ne_true, ← CollatedMap.contains_eq_isSome_get?]
    exact hrest other hother

/-- Where the names differ, it makes no difference which of them counts. -/
theorem lastPlaces_eq {columns : List String}
    (h : columns.Pairwise fun left right => sameName left right = false) :
    lastPlaces columns = firstPlaces columns :=
  foldl_insert_eq (CollatedMap.empty_sound _) rfl 0 (fun _ _ => rfl) h

/-- The columns of a table that can be read have different names. -/
theorem Catalog.Consistent.names_of_read? {catalog : Catalog} (h : catalog.Consistent)
    {name : String} {t : Table} (hread : catalog.read? name = some t) :
    t.columnNames.Pairwise fun left right => sameName left right = false := by
  unfold Catalog.read? at hread
  split at hread
  · next found hfound =>
    cases hread
    obtain ⟨entry, hentry, rfl⟩ := CollatedMap.exists_mem_of_get? hfound
    exact (h.tables entry hentry).names
  · split at hread
    · cases hread
      decide +kernel
    · cases hread

end TransactSql
