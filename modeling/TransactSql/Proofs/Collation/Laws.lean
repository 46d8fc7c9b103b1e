/-
TransactSql.Proofs.Collation.Laws — what a collation promises to a map.

A map finds its keys by their hash codes and then by the equality of its
collation. That works under two laws, `Collation.Lawful`: the equality is
an equivalence relation, and equal texts have equal hash codes.

`folding_lawful`: a collation that folds characters is lawful, as long as
it folds an ASCII character as the shortcut of `foldEquals` does. The
shortcut is the only place where two ways to compare meet, and
`foldEquals_iff` says that they agree.

A list of names is also sorted by its collation, and texts are compared
by it. `Coherent` are the laws of the order as well: it is total, and the
texts that are equal in it are the equal ones. The order is that of the
folded characters, so it needs no law of the folding.
-/
import TransactSql.Collation.Basic

namespace TransactSql.Collation

/-- The laws that a map needs of the collation of its keys. -/
structure Lawful (c : Collation) : Prop where
  refl : ∀ s, c.equals s s = true
  symm : ∀ {s t}, c.equals s t = true → c.equals t s = true
  trans : ∀ {s t u}, c.equals s t = true → c.equals t u = true → c.equals s u = true
  hash_eq : ∀ {s t}, c.equals s t = true → c.hash s = c.hash t

theorem Lawful.differs_symm {c : Collation} (hc : c.Lawful) {s t : String}
    (h : c.equals s t = false) : c.equals t s = false := by
  rw [← Bool.not_eq_true] at h ⊢
  exact fun hequal => h (hc.symm hequal)

/-! ## Folding -/

/-- An ASCII character is folded to its small letter alone. -/
def FoldsAscii (fold : Char → List Char) : Prop :=
  ∀ c : Char, c.toNat < 128 → fold c = [c.toLower]

theorem foldText_of_ascii {fold : Char → List Char} (hf : FoldsAscii fold) {text : String}
    (h : isAscii text = true) : foldText fold text = asciiLowercase text := by
  have hfold : ∀ cs : List Char, (∀ c ∈ cs, c.toNat < 128) →
      cs.flatMap fold = cs.map Char.toLower := by
    intro cs
    induction cs with
    | nil => intro _; rfl
    | cons c cs ih =>
      intro hcs
      rw [List.flatMap_cons, hf c (hcs c (by simp)), ih (fun d hd => hcs d (by simp [hd]))]
      rfl
  exact hfold text.toList (by simpa [isAscii, List.all_eq_true] using h)

theorem foldCompare_eq_iff {fold : Char → List Char} {s t : String} :
    foldCompare fold s t = .eq ↔ foldText fold s = foldText fold t :=
  Std.compare_eq_iff_eq

/-- Equal texts are those that fold to the same characters, also where the shortcut is taken. -/
theorem foldEquals_iff {fold : Char → List Char} (hf : FoldsAscii fold) {s t : String} :
    foldEquals fold s t = true ↔ foldText fold s = foldText fold t := by
  unfold foldEquals
  split
  · rename_i h
    simp only [Bool.and_eq_true] at h
    rw [foldText_of_ascii hf h.1, foldText_of_ascii hf h.2, beq_iff_eq]
  · rw [beq_iff_eq, foldCompare_eq_iff]

theorem folding_lawful (name : String) {fold : Char → List Char} (hf : FoldsAscii fold)
    (hash : List Char → UInt64) : (folding name fold hash).Lawful where
  refl _ := (foldEquals_iff hf).mpr rfl
  symm h := (foldEquals_iff hf).mpr ((foldEquals_iff hf).mp h).symm
  trans h h' := (foldEquals_iff hf).mpr
    (((foldEquals_iff hf).mp h).trans ((foldEquals_iff hf).mp h'))
  hash_eq h := congrArg hash ((foldEquals_iff hf).mp h)

/-! ## Order -/

/-- The order, the equality and the hash code of a collation go with one another. -/
structure Coherent (c : Collation) : Prop where
  refl : ∀ s, c.compare s s = .eq
  swap : ∀ s t, c.compare t s = (c.compare s t).swap
  total : ∀ s t, (c.compare s t).isLE = true ∨ (c.compare t s).isLE = true
  trans : ∀ s t u, (c.compare s t).isLE = true → (c.compare t u).isLE = true →
    (c.compare s u).isLE = true
  equals_iff : ∀ s t, c.equals s t = true ↔ c.compare s t = .eq
  equivalence : Equivalence fun s t => c.equals s t = true
  hash_eq : ∀ s t, c.equals s t = true → c.hash s = c.hash t

instance (fold : Char → List Char) : Std.TransCmp (foldCompare fold) :=
  inferInstanceAs (Std.TransCmp (compareOn (foldText fold)))

theorem foldCompare_swap (fold : Char → List Char) (s t : String) :
    foldCompare fold t s = (foldCompare fold s t).swap := Std.OrientedCmp.eq_swap

theorem foldCompare_total (fold : Char → List Char) (s t : String) :
    (foldCompare fold s t).isLE = true ∨ (foldCompare fold t s).isLE = true := by
  rw [foldCompare_swap fold s t]
  cases foldCompare fold s t <;> simp

theorem foldCompare_trans (fold : Char → List Char) (s t u : String)
    (h : (foldCompare fold s t).isLE = true) (h' : (foldCompare fold t u).isLE = true) :
    (foldCompare fold s u).isLE = true := Std.TransCmp.isLE_trans h h'

/-- Texts that are compared by their folded characters are in a total preorder, whatever the
folding does. If it makes ASCII capitals small and leaves all other ASCII characters alone, then the
equality is that of the order, between ASCII texts, other texts, and one of each; and equal texts
have equal hash codes, whichever hash code of the folded characters is taken. -/
theorem folding_coherent (name : String) {fold : Char → List Char} (hf : FoldsAscii fold)
    (hash : List Char → UInt64) : (folding name fold hash).Coherent where
  refl _ := foldCompare_eq_iff.mpr rfl
  swap := foldCompare_swap fold
  total := foldCompare_total fold
  trans := foldCompare_trans fold
  equals_iff _ _ := (foldEquals_iff hf).trans foldCompare_eq_iff.symm
  equivalence := ⟨(folding_lawful name hf hash).refl, (folding_lawful name hf hash).symm,
    (folding_lawful name hf hash).trans⟩
  hash_eq _ _ := (folding_lawful name hf hash).hash_eq

/-- The sign of the unit kelvin, which is not ASCII, is folded to a letter that is. -/
theorem folding_coherent_of_kelvin :
    FoldsAscii Unicode.lowercase ∧ caseInsensitive.equals "\u212a" "K" = true ∧
      caseInsensitive.compare "\u212a" "K" = .eq ∧
      caseInsensitive.hash "\u212a" = caseInsensitive.hash "K" := by
  have hfolds : FoldsAscii Unicode.lowercase := fun _ h => Unicode.lowercase_of_ascii h
  have hequal : caseInsensitive.equals "\u212a" "K" = true := by decide +kernel
  have hcoherent : caseInsensitive.Coherent := folding_coherent _ hfolds _
  exact ⟨hfolds, hequal, (hcoherent.equals_iff _ _).mp hequal, hcoherent.hash_eq _ _ hequal⟩

/-! ## The collation of all names -/

theorem caseInsensitive_lawful : caseInsensitive.Lawful :=
  folding_lawful _ (fun _ h => Unicode.lowercase_of_ascii h) _

theorem sameName_refl (s : String) : sameName s s = true :=
  caseInsensitive_lawful.refl s

end TransactSql.Collation
