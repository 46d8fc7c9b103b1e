/-
TransactSql.Proofs.Store.Reordering — the order and the grouping of an
insertion.

What is stored for some values depends on which value is for which
column, and not on the order in which the columns are named. So the same
rows are stored if the names and the values of every row are put into
another order (`insert_permuted`), and naming all columns in the order of
the table is like naming none (`insert_columnNames`). Nor does it depend
on the rows before, so rows can be inserted one part after the other
(`insert_append`).
-/
import Mathlib.Data.Fin.VecNotation
import Mathlib.Data.List.FinRange
import TransactSql.Proofs.Store.Inserting

namespace TransactSql

open Collation

namespace Table

variable {t t' : Table} {n : Nat}

/-! ## Another order of the columns -/

theorem mem_zip_ofFn {α β : Type} {a : Fin n → α} {b : Fin n → β} {x : α} {y : β} :
    (x, y) ∈ (List.ofFn a).zip (List.ofFn b) ↔ ∃ i, a i = x ∧ b i = y := by
  simp only [List.mem_iff_getElem, List.length_zip, List.length_ofFn, min_self, List.getElem_zip,
    List.getElem_ofFn, Prod.mk.injEq, Fin.exists_iff]

/-- Values and their places that are put into the same other order make the same row. -/
theorem Stores.permuted {places : Fin n → Nat} {values : Fin n → Value} {row : Row}
    (h : t.Stores (List.ofFn places) (List.ofFn values) row) (σ : Equiv.Perm (Fin n)) :
    t.Stores (List.ofFn (places ∘ σ)) (List.ofFn (values ∘ σ)) row where
  length := h.length
  target place v column hgiven := by
    obtain ⟨i, hplace, hv⟩ := mem_zip_ofFn.mp hgiven
    exact h.target place v column (mem_zip_ofFn.mpr ⟨σ i, hplace, hv⟩)
  other place column hplace := by
    refine h.other place column fun hmem => hplace ?_
    obtain ⟨i, hi⟩ := List.mem_ofFn.mp hmem
    exact List.mem_ofFn.mpr ⟨σ.symm i, by simpa using hi⟩
  count := by simp
  nulls := h.nulls

/-- Names that are put into another order lead to the same columns, in that order. -/
theorem TargetPlaces.permuted {names : Fin n → String} {places : List Nat}
    (h : t.TargetPlaces (some (List.ofFn names)) places) (σ : Equiv.Perm (Fin n)) :
    ∃ place : Fin n → Nat, List.ofFn place = places ∧
      t.TargetPlaces (some (List.ofFn (names ∘ σ))) (List.ofFn (place ∘ σ)) := by
  obtain ⟨hnames, hnodup⟩ := h
  obtain ⟨hlength, hnames⟩ := List.forall₂_iff_get.mp hnames
  rw [List.length_ofFn] at hlength
  subst hlength
  refine ⟨places.get, List.ofFn_get places, List.forall₂_iff_get.mpr ⟨by simp, ?_⟩, ?_⟩
  · intro i hi _
    have hi : i < places.length := by simpa using hi
    simpa using hnames (σ ⟨i, hi⟩) (by simp) (σ ⟨i, hi⟩).isLt
  · rw [List.nodup_ofFn]
    exact (List.nodup_iff_injective_get.mp hnodup).comp σ.injective

theorem insert_permuted_of_ok (h : t.Consistent) {names : Fin n → String}
    {rows : List (Fin n → Value)} {count : Nat}
    (hinsert : (insert (some (List.ofFn names)) (rows.map List.ofFn)).run t = .ok count t')
    (σ : Equiv.Perm (Fin n)) :
    (insert (some (List.ofFn (names ∘ σ))) (rows.map fun values => List.ofFn (values ∘ σ))).run t =
      .ok count t' := by
  obtain ⟨places, added, hplaces, hadded, hcount, ht'⟩ := (insert_eq_ok_iff h).mp hinsert
  obtain ⟨place, rfl, hpermuted⟩ := hplaces.permuted σ
  refine (insert_eq_ok_iff h).mpr ⟨_, added, hpermuted, ?_, by simpa using hcount, ht'⟩
  rw [List.forall₂_map_left_iff] at hadded ⊢
  exact hadded.imp fun _ _ hstores => hstores.permuted σ

/-- The order in which columns are named makes no difference, if the values follow it. -/
theorem insert_permuted (h : t.Consistent) (σ : Equiv.Perm (Fin n)) (names : Fin n → String)
    (rows : List (Fin n → Value)) (count : Nat) (t' : Table) :
    (insert (some (List.ofFn (names ∘ σ)))
        (rows.map fun values => List.ofFn (values ∘ σ))).run t = .ok count t' ↔
      (insert (some (List.ofFn names)) (rows.map List.ofFn)).run t = .ok count t' := by
  refine ⟨fun hinsert => ?_, fun hinsert => insert_permuted_of_ok h hinsert σ⟩
  have hrows : (rows.map fun values => List.ofFn (values ∘ σ)) =
      (rows.map fun values => values ∘ σ).map List.ofFn := by
    rw [List.map_map]
    rfl
  rw [hrows] at hinsert
  have hback := insert_permuted_of_ok h hinsert σ.symm
  simpa [Function.comp_def] using hback

/-! ## All columns -/

/-- A declared name is the name of its own column only. -/
theorem hasName_name_iff (h : t.Consistent) {i place : Nat} {column : Column}
    (hcolumn : t.columns[i]? = some column) : t.HasName column.name place ↔ place = i := by
  constructor
  · rintro ⟨other, hother, hname⟩
    have hordinal := h.ordinals i column hcolumn
    have htarget : t.target? column.name = some (other, place) :=
      (target?_eq_some_iff h).mpr ⟨hother, hname⟩
    rw [columnOrdinal?, htarget] at hordinal
    exact Option.some.inj hordinal
  · rintro rfl
    exact ⟨column, hcolumn, sameName_refl _⟩

/-- The declared names lead to the columns in their order, and to nothing else. -/
theorem targetPlaces_columnNames_iff (h : t.Consistent) {places : List Nat} :
    t.TargetPlaces (some t.columnNames) places ↔ t.TargetPlaces none places := by
  rw [TargetPlaces, TargetPlaces, columnNames, List.forall₂_map_left_iff, List.forall₂_iff_get]
  constructor
  · rintro ⟨⟨hlength, hall⟩, -⟩
    refine List.ext_getElem (by simp [← hlength]) fun i hi hrange => ?_
    rw [List.length_range] at hrange
    rw [List.getElem_range]
    exact (hasName_name_iff h (List.getElem?_eq_getElem hrange)).mp (hall i hrange hi)
  · rintro rfl
    refine ⟨⟨by simp, fun i hi _ => ?_⟩, List.nodup_range⟩
    simpa using (hasName_name_iff h (List.getElem?_eq_getElem hi)).mpr rfl

theorem insert_columnNames (h : t.Consistent) (rows : List Row) (count : Nat) (t' : Table) :
    (insert (some t.columnNames) rows).run t = .ok count t' ↔
      (insert none rows).run t = .ok count t' := by
  rw [insert_eq_ok_iff h, insert_eq_ok_iff h]
  simp only [targetPlaces_columnNames_iff h]

/-! ## Rows in parts -/

theorem append_append (t : Table) (first second : List Row) :
    (t.append first).append second = t.append (first ++ second) :=
  congrArg (fun rows => { t with rows := rows }) (List.append_assoc _ _ _)

theorem namedTargets_append (t : Table) (rows : List Row) (used : List Nat)
    (names : List String) :
    (t.append rows).namedTargets used names = t.namedTargets used names := by
  induction names generalizing used with
  | nil => rfl
  | cons name rest ih =>
    simp only [namedTargets, ih]
    rfl

theorem targets_append (t : Table) (rows : List Row) (names : Option (List String)) :
    (t.append rows).targets names = t.targets names := by
  cases names with
  | none => rfl
  | some names => exact t.namedTargets_append rows [] names

theorem prepare_append (t : Table) (rows : List Row) : (t.append rows).prepare = t.prepare := rfl

/-- Rows are inserted in one call exactly if the first and then the others are. -/
theorem insert_append (names : Option (List String)) (first second : List Row) (count : Nat) :
    (insert names (first ++ second)).run t = .ok count t' ↔
      ∃ n m u, (insert names first).run t = .ok n u ∧ (insert names second).run u = .ok m t' ∧
        count = n + m := by
  constructor
  · intro h
    obtain ⟨targets, added, htargets, hadded, rfl, rfl, -⟩ := insert_eq_ok h
    rw [List.mapM_append] at hadded
    obtain ⟨before, hbefore, hadded⟩ := bind_eq_ok.mp hadded
    obtain ⟨after, hafter, hadded⟩ := bind_eq_ok.mp hadded
    cases hadded
    have htargets' := (t.targets_append before names).trans htargets
    refine ⟨_, _, _, insert_of_prepared htargets hbefore, ?_, List.length_append⟩
    rw [insert_of_prepared htargets' hafter, append_append]
  · rintro ⟨n, m, u, hfirst, hsecond, rfl⟩
    obtain ⟨targets, before, htargets, hbefore, rfl, rfl, -⟩ := insert_eq_ok hfirst
    obtain ⟨targets', after, htargets', hafter, rfl, rfl, -⟩ := insert_eq_ok hsecond
    rw [targets_append, htargets] at htargets'
    cases htargets'
    have hadded : (first ++ second).mapM (t.prepare names.isSome targets) =
        .ok (before ++ after) := by
      rw [prepare_append] at hafter
      rw [List.mapM_append, hbefore, hafter]
      rfl
    rw [insert_of_prepared htargets hadded, List.length_append, append_append]

/-- An insertion does not depend on the order in which it names its columns, if the values of all
rows are in the same order; to name all columns as they are declared is to name none; and rows may
be inserted together or one part after the other. In each case the one way answers exactly if the
other does, and then with the same table and the same number of rows. -/
theorem insert_in_any_order (h : t.Consistent) :
    (∀ (n : Nat) (σ : Equiv.Perm (Fin n)) (names : Fin n → String) (rows : List (Fin n → Value))
        (count : Nat) (t' : Table),
      (insert (some (List.ofFn (names ∘ σ)))
          (rows.map fun values => List.ofFn (values ∘ σ))).run t = .ok count t' ↔
        (insert (some (List.ofFn names)) (rows.map List.ofFn)).run t = .ok count t') ∧
    (∀ rows count t', (insert (some t.columnNames) rows).run t = .ok count t' ↔
      (insert none rows).run t = .ok count t') ∧
    ∀ names first second count t', (insert names (first ++ second)).run t = .ok count t' ↔
      ∃ n m u, (insert names first).run t = .ok n u ∧ (insert names second).run u = .ok m t' ∧
        count = n + m :=
  ⟨fun _ => insert_permuted h, insert_columnNames h, fun names first second count _ =>
    insert_append names first second count⟩

/-- Two columns are named in reverse. -/
theorem insert_in_any_order_reverse :
    let t : Table := ⟨"People", [⟨"Id", .int, false⟩, ⟨"Name", .nvarchar, true⟩], []⟩
    let names : Fin 2 → String := !["id", "NAME"]
    let values : Fin 2 → Value := ![.bigint 7, .varchar "Ada"]
    t.Consistent ∧
      (insert (some (List.ofFn (names ∘ Fin.revPerm)))
          [List.ofFn (values ∘ Fin.revPerm)]).run t =
        .ok 1 { t with rows := [[.int 7, .nvarchar "Ada"]] } := by
  intro t names values
  have hcreate : Table.create "People" t.columns = .ok t := by decide +kernel
  have hconsistent : t.Consistent := .create hcreate
  refine ⟨hconsistent,
    ((insert_in_any_order hconsistent).1 2 Fin.revPerm names [values] _ _).mpr ?_⟩
  decide +kernel

end Table
end TransactSql
