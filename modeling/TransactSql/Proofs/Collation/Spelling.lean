/-
TransactSql.Proofs.Collation.Spelling — one name in several spellings.

Names are compared in two ways. What a word means to the grammar depends
on its ASCII letters without their case (`SameLetters`): the reserved
words and the names of the types are found so. What a name stands for
depends on the collation (`sameName`), which ignores the case of all
letters. The first sort of sameness implies the second (`sameName`).

A map finds the same under all spellings of a key, and it does not matter
in which spelling its own keys were stored: maps that are `Respelled`
answer alike and stay so when an entry is inserted.
-/
import Mathlib.Data.List.Forall2
import TransactSql.Collation.Map
import TransactSql.DataType
import TransactSql.Keyword
import TransactSql.Proofs.Collation.Laws
import TransactSql.QualifiedName

namespace TransactSql

open Collation

/-! ## Lists and options that correspond item by item -/

section Related

variable {α β : Type} {R : α → β → Prop} {p : α → Bool} {q : β → Bool} {xs : List α} {ys : List β}

theorem map_eq_of_forall₂ {γ : Type} {f : α → γ} {g : β → γ} (h : List.Forall₂ R xs ys)
    (heq : ∀ a b, R a b → f a = g b) : xs.map f = ys.map g := by
  induction h with
  | nil => rfl
  | cons hab _ ih => rw [List.map_cons, List.map_cons, heq _ _ hab, ih]

theorem any_eq_of_forall₂ (h : List.Forall₂ R xs ys) (heq : ∀ a b, R a b → p a = q b) :
    xs.any p = ys.any q := by
  have hmap := congrArg (List.any · id) (map_eq_of_forall₂ h heq)
  simpa only [List.any_map, Function.id_comp] using hmap

theorem findIdx?_eq_of_forall₂ (h : List.Forall₂ R xs ys) (heq : ∀ a b, R a b → p a = q b) :
    xs.findIdx? p = ys.findIdx? q := by
  have hmap := congrArg (List.findIdx? id) (map_eq_of_forall₂ h heq)
  simpa only [List.findIdx?_map, Function.id_comp] using hmap

theorem forall₂_zipIdx (h : List.Forall₂ R xs ys) (start : Nat) :
    List.Forall₂ (fun a b => R a.1 b.1 ∧ a.2 = b.2) (xs.zipIdx start) (ys.zipIdx start) := by
  induction h generalizing start with
  | nil => exact .nil
  | cons hab _ ih => exact .cons ⟨hab, rfl⟩ (ih (start + 1))

theorem forall₂_zip {γ : Type} (h : List.Forall₂ R xs ys) (zs : List γ) :
    List.Forall₂ (fun a b => R a.1 b.1 ∧ a.2 = b.2) (xs.zip zs) (ys.zip zs) := by
  induction h generalizing zs with
  | nil => exact .nil
  | cons hab _ ih =>
    cases zs with
    | nil => exact .nil
    | cons z zs => exact .cons ⟨hab, rfl⟩ (ih zs)

theorem rel_find? (h : List.Forall₂ R xs ys) (heq : ∀ a b, R a b → p a = q b) :
    Option.Rel R (xs.find? p) (ys.find? q) := by
  induction h with
  | nil => exact .none
  | cons hab _ ih =>
    rw [List.find?_cons, List.find?_cons, heq _ _ hab]
    split
    · exact .some hab
    · exact ih

variable {x : Option α} {y : Option β}

/-- Either both are missing, or both are there and correspond. -/
theorem rel_option_cases (h : Option.Rel R x y) :
    (x = none ∧ y = none) ∨ ∃ a b, x = some a ∧ y = some b ∧ R a b := by
  cases h with
  | none => exact .inl ⟨rfl, rfl⟩
  | some hab => exact .inr ⟨_, _, rfl, rfl, hab⟩

theorem rel_option_map {γ δ : Type} {S : γ → δ → Prop} {f : α → γ} {g : β → δ}
    (h : Option.Rel R x y) (hf : ∀ a b, R a b → S (f a) (g b)) :
    Option.Rel S (x.map f) (y.map g) := by
  cases h with
  | none => exact .none
  | some hab => exact .some (hf _ _ hab)

theorem isSome_eq_of_rel (h : Option.Rel R x y) : x.isSome = y.isSome := by
  cases h <;> rfl

theorem eq_of_rel {x y : Option α} (h : Option.Rel Eq x y) : x = y := by
  cases h with
  | none => rfl
  | some hab => exact congrArg some hab

end Related

/-! ## Texts with the same letters -/

/-- A function that gives an ASCII letter what it gives its small letter does so for all
characters: the others have no small letter here. -/
theorem apply_toLower {β : Type} {f : Char → β}
    (h : ∀ n < 128, f (Char.ofNat n).toLower = f (Char.ofNat n)) (c : Char) :
    f c.toLower = f c := by
  by_cases hc : c.toNat < 128
  · have hletter := h c.toNat hc
    rwa [Char.ofNat_toNat] at hletter
  · have hsmall : c.toLower = c := by
      unfold Char.toLower
      refine dif_neg fun hcapital => hc ?_
      exact Nat.lt_of_le_of_lt (UInt32.le_iff_toNat_le.mp hcapital.2) (by decide)
    rw [hsmall]

/-- The texts are the same but for the case of ASCII letters. -/
def SameLetters (s t : String) : Prop := asciiLowercase s = asciiLowercase t

namespace SameLetters

variable {s t : String}

theorem refl (s : String) : SameLetters s s := rfl

theorem length_eq (h : SameLetters s t) : s.length = t.length := by
  have hlength := congrArg List.length h
  rwa [asciiLowercase, asciiLowercase, List.length_map, List.length_map, String.length_toList,
    String.length_toList] at hlength

/-- What is in front of both texts may be left out. -/
theorem of_append {front : String} (h : SameLetters (front ++ s) (front ++ t)) :
    SameLetters s t := by
  simp only [SameLetters, asciiLowercase, String.toList_append, List.map_append] at h
  exact List.append_cancel_left h

/-- Characters whose case is not seen are not told apart. -/
theorem map_eq (h : SameLetters s t) {β : Type} {f : Char → β}
    (hf : ∀ c : Char, f c.toLower = f c) : s.toList.map f = t.toList.map f := by
  have hmap := congrArg (List.map f) h
  simpa only [asciiLowercase, List.map_map, Function.comp_def, hf] using hmap

theorem map_toLower_eq (h : SameLetters s t) : s.map Char.toLower = t.map Char.toLower :=
  String.toList_inj.mp (by rw [String.toList_map, String.toList_map]; exact h)

theorem map_toUpper_eq (h : SameLetters s t) : s.map Char.toUpper = t.map Char.toUpper :=
  String.toList_inj.mp (by
    rw [String.toList_map, String.toList_map]
    exact h.map_eq (apply_toLower (by decide)))

/-- A word is reserved in all spellings or in none. -/
theorem ofWord?_eq (h : SameLetters s t) : Keyword.ofWord? s = Keyword.ofWord? t := by
  simp only [Keyword.ofWord?, h.map_toUpper_eq]

theorem ofName?_eq (h : SameLetters s t) : DataType.ofName? s = DataType.ofName? t := by
  simp only [DataType.ofName?, h.map_toLower_eq]

end SameLetters

/-! ## Collations -/

/-- The collation takes texts with the same letters for the same name. -/
structure Collation.IgnoresCase (c : Collation) : Prop where
  lawful : c.Lawful
  equals : ∀ s t, SameLetters s t → c.equals s t = true

/-- The same names are taken for each other in any spelling. -/
theorem Collation.Lawful.equals_congr {c : Collation} (h : c.Lawful) {s s' t t' : String}
    (hs : c.equals s s' = true) (ht : c.equals t t' = true) : c.equals s t = c.equals s' t' := by
  rw [Bool.eq_iff_iff]
  exact ⟨fun hst => h.trans (h.symm hs) (h.trans hst ht),
    fun hst => h.trans hs (h.trans hst (h.symm ht))⟩

namespace Collation

variable {s s' t t' : String}

theorem foldText_lowercase_iff :
    sameName s t = true ↔ foldText Unicode.lowercase s = foldText Unicode.lowercase t :=
  foldEquals_iff fun _ h => Unicode.lowercase_of_ascii h

theorem sameName_congr (hs : sameName s s' = true) (ht : sameName t t' = true) :
    sameName s t = sameName s' t' :=
  caseInsensitive_lawful.equals_congr hs ht

theorem sameName_append (hs : sameName s s' = true) (ht : sameName t t' = true) :
    sameName (s ++ t) (s' ++ t') = true := by
  rw [foldText_lowercase_iff] at hs ht ⊢
  simp only [foldText, String.toList_append, List.flatMap_append] at hs ht ⊢
  rw [hs, ht]

theorem foldText_lowercase_eq_nil : foldText Unicode.lowercase s = [] ↔ s = "" := by
  have hletter : ∀ c, Unicode.lowercase c ≠ [] := by
    intro c
    unfold Unicode.lowercase
    split
    · exact List.cons_ne_nil _ _
    · split <;> exact List.cons_ne_nil _ _
  rw [foldText, List.flatMap_eq_nil_iff, ← String.toList_eq_nil_iff, List.eq_nil_iff_forall_not_mem]
  exact forall_congr' fun c => ⟨fun h hmem => hletter c (h hmem), fun h hmem => absurd hmem h⟩

theorem isEmpty_eq_of_sameName (h : sameName s t = true) : s.isEmpty = t.isEmpty := by
  rw [foldText_lowercase_iff] at h
  rw [Bool.eq_iff_iff, String.isEmpty_iff, String.isEmpty_iff, ← foldText_lowercase_eq_nil, h,
    foldText_lowercase_eq_nil]

end Collation

/-- Texts with the same letters are the same name. -/
theorem SameLetters.sameName {s t : String} (h : SameLetters s t) : sameName s t = true := by
  rw [foldText_lowercase_iff, foldText, foldText, List.flatMap_def, List.flatMap_def,
    h.map_eq (apply_toLower (by decide +kernel))]

theorem Collation.caseInsensitive_ignoresCase : caseInsensitive.IgnoresCase :=
  ⟨caseInsensitive_lawful, fun _ _ h => h.sameName⟩

/-! ## Lists of names -/

/-- The lists have the same names, in the same places. -/
abbrev SameNames (names names' : List String) : Prop :=
  List.Forall₂ (fun a b => sameName a b = true) names names'

namespace SameNames

variable {names names' : List String}

theorem indexOf?_eq (h : SameNames names names') {s t : String} (hname : sameName s t = true) :
    indexOf? names s = indexOf? names' t :=
  findIdx?_eq_of_forall₂ h fun _ _ hab => sameName_congr hab hname

theorem any_eq (h : SameNames names names') {s t : String} (hname : sameName s t = true) :
    (names.any fun name => sameName name s) = names'.any fun name => sameName name t :=
  any_eq_of_forall₂ h fun _ _ hab => sameName_congr hab hname

/-- The names of the objects themselves are the same, behind all qualifiers. -/
theorem last {name name' : QualifiedName} (h : SameNames name name') :
    sameName name.last name'.last = true := by
  unfold QualifiedName.last
  induction h with
  | nil => rfl
  | cons hab hrest ih =>
    cases hrest with
    | nil => exact hab
    | cons _ _ => exact ih

/-- The whole names are the same as well. -/
theorem toText {name name' : QualifiedName} (h : SameNames name name') :
    sameName name.toText name'.toText = true := by
  unfold QualifiedName.toText
  induction h with
  | nil => rfl
  | cons hab hrest ih =>
    cases hrest with
    | nil => simpa using hab
    | cons _ _ =>
      rw [String.intercalate_cons_cons, String.intercalate_cons_cons]
      exact sameName_append (sameName_append hab rfl) ih

end SameNames

/-! ## Maps -/

namespace CollatedMap

variable {α : Type} {R : α → α → Prop} {m n : CollatedMap α}

/-- The keys are the same name, and the values correspond. -/
def SameEntry (collation : Collation) (R : α → α → Prop) (x y : String × α) : Prop :=
  collation.equals x.1 y.1 = true ∧ R x.2 y.2

/-- The entries of the buckets correspond. -/
abbrev SameBuckets (collation : Collation) (R : α → α → Prop)
    (bs bs' : List (UInt64 × List (String × α))) : Prop :=
  List.Forall₂ (fun b b' => b.1 = b'.1 ∧ List.Forall₂ (SameEntry collation R) b.2 b'.2) bs bs'

/-- The maps have the same entries, in the same places, up to the spelling of the keys. -/
structure Respelled (R : α → α → Prop) (m n : CollatedMap α) : Prop where
  collation : m.collation = n.collation
  buckets : SameBuckets m.collation R m.buckets n.buckets

theorem Respelled.refl (hlawful : m.collation.Lawful) (hR : ∀ a, R a a) : m.Respelled R m where
  collation := rfl
  buckets := List.forall₂_same.mpr fun _ _ =>
    ⟨rfl, List.forall₂_same.mpr fun _ _ => ⟨hlawful.refl _, hR _⟩⟩

theorem Respelled.toList (h : m.Respelled R n) :
    List.Forall₂ (SameEntry m.collation R) m.toList n.toList :=
  List.rel_flatMap h.buckets fun _ _ hb => hb.2

/-! ### Finding -/

theorem sameEntry_lookup {collation : Collation} {bs bs' : List (UInt64 × List (String × α))}
    (h : SameBuckets collation R bs bs') (hash : UInt64) :
    List.Forall₂ (SameEntry collation R) ((bs.lookup hash).getD [])
      ((bs'.lookup hash).getD []) := by
  induction h with
  | nil => exact .nil
  | cons hb _ ih =>
    rw [List.lookup_cons, List.lookup_cons, ← hb.1]
    split
    · exact hb.2
    · exact ih

theorem Respelled.bucket (h : m.Respelled R n) (hash : UInt64) :
    List.Forall₂ (SameEntry m.collation R) (m.bucket hash) (n.bucket hash) :=
  sameEntry_lookup h.buckets hash

variable {s t : String}

theorem Respelled.entry? (h : m.Respelled R n) (hlawful : m.collation.Lawful)
    (hkey : m.collation.equals s t = true) :
    Option.Rel (SameEntry m.collation R) (m.entry? s) (n.entry? t) := by
  unfold CollatedMap.entry?
  rw [← h.collation, ← hlawful.hash_eq hkey]
  exact rel_find? (h.bucket _) fun _ _ hentry => hlawful.equals_congr hentry.1 hkey

theorem Respelled.get? (h : m.Respelled R n) (hlawful : m.collation.Lawful)
    (hkey : m.collation.equals s t = true) : Option.Rel R (m.get? s) (n.get? t) :=
  rel_option_map (h.entry? hlawful hkey) fun _ _ hentry => hentry.2

theorem Respelled.contains_eq (h : m.Respelled R n) (hlawful : m.collation.Lawful)
    (hkey : m.collation.equals s t = true) : m.contains s = n.contains t :=
  isSome_eq_of_rel (h.entry? hlawful hkey)

/-- A map finds the same value under all spellings of a key. -/
theorem get?_congr (hlawful : m.collation.Lawful) (hkey : m.collation.equals s t = true) :
    m.get? s = m.get? t :=
  eq_of_rel ((Respelled.refl hlawful fun _ => rfl).get? hlawful hkey)

/-! ### Inserting -/

theorem sameBuckets_withBucket {collation : Collation}
    {bs bs' : List (UInt64 × List (String × α))} {entries entries' : List (String × α)}
    (h : SameBuckets collation R bs bs') (hash : UInt64)
    (hentries : List.Forall₂ (SameEntry collation R) entries entries') :
    SameBuckets collation R (withBucket bs hash entries) (withBucket bs' hash entries') := by
  have hempty : entries.isEmpty = entries'.isEmpty := by cases hentries <;> rfl
  induction h with
  | nil =>
    unfold withBucket
    rw [hempty]
    split
    · exact .nil
    · exact .cons ⟨rfl, hentries⟩ .nil
  | cons hb hrest ih =>
    unfold withBucket
    rw [← hb.1, hempty]
    split
    · split
      · exact hrest
      · exact .cons ⟨rfl, hentries⟩ hrest
    · exact .cons hb ih

theorem sameEntry_modifyEntry {collation : Collation} (hlawful : collation.Lawful)
    {change change' : α → α} (hchange : ∀ a b, R a b → R (change a) (change' b))
    (hkey : collation.equals s t = true) {entries entries' : List (String × α)}
    (h : List.Forall₂ (SameEntry collation R) entries entries') :
    List.Forall₂ (SameEntry collation R) (modifyEntry collation s change entries)
      (modifyEntry collation t change' entries') := by
  induction h with
  | nil => exact .nil
  | cons hentry hrest ih =>
    unfold modifyEntry
    rw [hlawful.equals_congr hentry.1 hkey]
    split
    · exact .cons ⟨hentry.1, hchange _ _ hentry.2⟩ hrest
    · exact .cons hentry ih

theorem Respelled.updateBucket (h : m.Respelled R n) (hlawful : m.collation.Lawful)
    (hkey : m.collation.equals s t = true)
    {change change' : List (String × α) → List (String × α)}
    (hchange : ∀ entries entries', List.Forall₂ (SameEntry m.collation R) entries entries' →
      List.Forall₂ (SameEntry m.collation R) (change entries) (change' entries')) :
    (m.updateBucket s change).Respelled R (n.updateBucket t change') where
  collation := h.collation
  buckets := by
    unfold CollatedMap.updateBucket
    rw [← h.collation, ← hlawful.hash_eq hkey]
    exact sameBuckets_withBucket h.buckets _ (hchange _ _ (h.bucket _))

theorem Respelled.recount (h : m.Respelled R n) (count count' : Nat) :
    (m.recount count).Respelled R (n.recount count') where
  collation := h.collation
  buckets := h.buckets

theorem Respelled.insert (h : m.Respelled R n) (hlawful : m.collation.Lawful)
    (hkey : m.collation.equals s t = true) {a b : α} (hvalue : R a b) :
    (m.insert s a).Respelled R (n.insert t b) := by
  unfold CollatedMap.insert
  rw [h.contains_eq hlawful hkey]
  split
  · refine h.updateBucket hlawful hkey fun _ _ hentries => ?_
    rw [← h.collation]
    exact sameEntry_modifyEntry hlawful (fun _ _ _ => hvalue) hkey hentries
  · refine Respelled.recount ?_ _ _
    exact h.updateBucket hlawful hkey fun _ _ hentries =>
      List.rel_append hentries (.cons ⟨hkey, hvalue⟩ .nil)

end CollatedMap
end TransactSql
