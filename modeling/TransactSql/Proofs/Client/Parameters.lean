/-
TransactSql.Proofs.Client.Parameters — parameters are kept apart by their
names.

The parameters of a command are only changed in a few ways (`Change`). As
long as no name is given with two `@` in front, they are a map: names
differ (`Distinct`), a parameter that is added replaces its namesake and
nothing else, it is found under the name that it was given with, and a
command text sees the value of each (`run_keeps_apart`).

A parameter keeps its name without one `@`, and so does a look-up.
But `add` looks up the name that is already kept that way. For a name with
two `@` it therefore looks for another name than it adds, and finds none
of its namesakes (`not_distinct_of_two_signs`).
-/
import Mathlib.Data.List.Pairwise
import TransactSql.Client.Parameter
import TransactSql.Proofs.Collation.MapEntries
import TransactSql.Proofs.Collation.Spelling

namespace TransactSql

open Collation

namespace Parameter

variable {name : String}

/-- The name is given with at most one `@` in front. -/
def IsPlain (name : String) : Prop := ¬['@', '@'] <+: name.toList

instance : Decidable (IsPlain name) := inferInstanceAs (Decidable (¬_))

theorem bareName_eq_ofList {rest : List Char} (h : name.toList = '@' :: rest) :
    bareName name = String.ofList rest := by
  simp only [bareName, h]

theorem bareName_eq_self (h : ∀ rest, name.toList ≠ '@' :: rest) : bareName name = name := by
  unfold bareName
  split
  · exact absurd ‹_› (h _)
  · rfl

/-- A name that is given plainly is left with no `@` to be taken away. -/
theorem bareName_bareName (h : IsPlain name) : bareName (bareName name) = bareName name := by
  by_cases hsign : ∃ rest, name.toList = '@' :: rest
  · obtain ⟨rest, hrest⟩ := hsign
    rw [bareName_eq_ofList hrest]
    refine bareName_eq_self fun rest' hrest' => h ?_
    rw [String.toList_ofList] at hrest'
    rw [hrest, hrest']
    exact ⟨rest', rfl⟩
  · rw [bareName_eq_self (not_exists.mp hsign), bareName_eq_self (not_exists.mp hsign)]

/-- The failure of converting the value of a parameter to its type. -/
def failure? (p : Parameter) : Option Error :=
  match p.toValue with
  | .ok _ => none
  | .error failure => some failure

theorem failure?_eq_some {p : Parameter} {failure : Error} (h : p.failure? = some failure) :
    p.toValue = .error failure := by
  unfold failure? at h
  split at h
  · cases h
  · rwa [← Option.some.inj h]

end Parameter

namespace Parameters

/-- A change of the parameters of a command. -/
inductive Change where
  | add (name : String) (value : Option Scalar) (declaredType : Option DataType)
  | remove (name : String)
  | clear
  | setValue (name : String) (value : Option Scalar)
  | setDeclaredType (name : String) (declaredType : Option DataType)

/-- The parameters after a change. -/
def perform (ps : Parameters) : Change → Parameters
  | .add name value declaredType => ps.add (.create name value declaredType)
  | .remove name => ps.remove name
  | .clear => []
  | .setValue name value => ps.modify name fun p => { p with value }
  | .setDeclaredType name declaredType => ps.modify name fun p => { p with declaredType }

/-- The parameters of a new command after some changes. -/
def run (changes : List Change) : Parameters := changes.foldl perform []

/-- The change adds no parameter under a name with two `@` in front. -/
def Change.AddsPlainly : Change → Prop
  | .add name _ _ => Parameter.IsPlain name
  | _ => True

/-- No two parameters have the same name. -/
def Distinct (ps : Parameters) : Prop :=
  ps.Pairwise fun p q => sameName p.name q.name = false

variable {ps before after : Parameters} {p found : Parameter} {name : String}

/-! ## Looking up -/

/-- The parameter that is found under a name is the first of that name. -/
theorem position?_cases (ps : Parameters) (name : String) :
    (∃ before found after, ps = before ++ found :: after ∧
      sameName found.name (Parameter.bareName name) = true ∧
      (∀ q ∈ before, sameName q.name (Parameter.bareName name) = false) ∧
      ps.position? name = some before.length) ∨
    (∀ q ∈ ps, sameName q.name (Parameter.bareName name) = false) ∧ ps.position? name = none := by
  unfold position?
  induction ps with
  | nil => exact .inr ⟨nofun, rfl⟩
  | cons q ps ih =>
    rw [List.findIdx?_cons]
    cases hq : sameName q.name (Parameter.bareName name) with
    | true => exact .inl ⟨[], q, ps, rfl, hq, nofun, rfl⟩
    | false =>
      rcases ih with ⟨before, found, after, hps, hfound, hbefore, hplace⟩ | ⟨hnone, hplace⟩
      · refine .inl ⟨q :: before, found, after, by rw [hps]; rfl, hfound, ?_, by rw [hplace]; rfl⟩
        exact List.forall_mem_cons.mpr ⟨hq, hbefore⟩
      · exact .inr ⟨List.forall_mem_cons.mpr ⟨hq, hnone⟩, by rw [hplace]; rfl⟩

theorem get?_eq_of_position? {place : Nat} (h : ps.position? name = some place) :
    ps.get? name = ps[place]? := by
  rw [get?, h, Option.bind_some]

theorem Distinct.eq_of_sameName (h : ps.Distinct) (hp : p ∈ ps) (hfound : found ∈ ps)
    (hsame : sameName p.name found.name = true) : p = found := by
  have : Std.Symm fun p q : Parameter => sameName p.name q.name = false :=
    ⟨fun _ _ => caseInsensitive_lawful.differs_symm⟩
  by_contra hne
  rw [h.forall hp hfound hne] at hsame
  cases hsame

/-- A parameter is found under its name if the names differ. -/
theorem Distinct.get?_eq (h : ps.Distinct) (hp : p ∈ ps)
    (hname : sameName p.name (Parameter.bareName name) = true) : ps.get? name = some p := by
  rcases position?_cases ps name with ⟨before, found, after, hps, hfound, -, hplace⟩ | ⟨hnone, -⟩
  · have hmem : found ∈ ps := by rw [hps]; simp
    have hsame := caseInsensitive_lawful.trans hfound (caseInsensitive_lawful.symm hname)
    rw [get?_eq_of_position? hplace, ← h.eq_of_sameName hmem hp hsame, hps]
    simp
  · exact absurd (hnone p hp) (by simp [hname])

/-! ## Changing -/

/-- A parameter takes the place of the one that is found under its name, or comes behind all
others. -/
theorem add_cases (ps : Parameters) (p : Parameter) :
    (∃ before found after, ps = before ++ found :: after ∧
      sameName found.name (Parameter.bareName p.name) = true ∧
      ps.add p = before ++ p :: after) ∨
    (∀ q ∈ ps, sameName q.name (Parameter.bareName p.name) = false) ∧ ps.add p = ps ++ [p] := by
  unfold add
  rcases position?_cases ps p.name with
    ⟨before, found, after, hps, hfound, -, hplace⟩ | ⟨hnone, hplace⟩
  · rw [hplace]
    exact .inl ⟨before, found, after, hps, hfound, by rw [hps]; simp⟩
  · rw [hplace]
    exact .inr ⟨hnone, rfl⟩

/-- The parameter that is found under a name is taken away, and no other one. -/
theorem remove_cases (ps : Parameters) (name : String) :
    (∃ before found after, ps = before ++ found :: after ∧
      sameName found.name (Parameter.bareName name) = true ∧ ps.remove name = before ++ after) ∨
    (∀ q ∈ ps, sameName q.name (Parameter.bareName name) = false) ∧ ps.remove name = ps := by
  unfold remove
  rcases position?_cases ps name with
    ⟨before, found, after, hps, hfound, -, hplace⟩ | ⟨hnone, hplace⟩
  · rw [hplace]
    exact .inl ⟨before, found, after, hps, hfound, by rw [hps]; simp [List.eraseIdx_append]⟩
  · rw [hplace]
    exact .inr ⟨hnone, rfl⟩

/-- The parameter that is found under a name is changed, and no other one. -/
theorem modify_cases (ps : Parameters) (name : String) (change : Parameter → Parameter) :
    (∃ before found after, ps = before ++ found :: after ∧
      sameName found.name (Parameter.bareName name) = true ∧
      ps.modify name change = before ++ change found :: after) ∨
    (∀ q ∈ ps, sameName q.name (Parameter.bareName name) = false) ∧ ps.modify name change = ps := by
  unfold modify
  rcases position?_cases ps name with
    ⟨before, found, after, hps, hfound, -, hplace⟩ | ⟨hnone, hplace⟩
  · rw [hplace]
    refine .inl ⟨before, found, after, hps, hfound, ?_⟩
    change List.modify ps before.length change = _
    rw [hps, List.modify_eq_set_getElem?]
    simp
  · rw [hplace]
    exact .inr ⟨hnone, rfl⟩

/-- In the place of a parameter another one of the same name can stand. -/
theorem Distinct.exchange (h : Distinct (before ++ found :: after))
    (hsame : sameName found.name p.name = true) : Distinct (before ++ p :: after) := by
  have hname (q : Parameter) : sameName q.name found.name = sameName q.name p.name :=
    sameName_congr (sameName_refl _) hsame
  have hname' (q : Parameter) : sameName found.name q.name = sameName p.name q.name :=
    sameName_congr hsame (sameName_refl _)
  unfold Distinct at h ⊢
  simpa only [List.pairwise_append, List.pairwise_cons, List.forall_mem_cons, hname, hname'] using h

theorem Distinct.add (h : ps.Distinct) (hname : Parameter.bareName p.name = p.name) :
    (ps.add p).Distinct := by
  rcases add_cases ps p with ⟨before, found, after, rfl, hfound, hadd⟩ | ⟨hnone, hadd⟩
  · rw [hadd]
    exact h.exchange (hname ▸ hfound)
  · rw [hadd]
    refine List.pairwise_append.mpr ⟨h, List.pairwise_singleton _ _, fun q hq r hr => ?_⟩
    rw [List.mem_singleton.mp hr]
    exact hname ▸ hnone q hq

theorem Distinct.remove (h : ps.Distinct) (name : String) : (ps.remove name).Distinct := by
  rcases remove_cases ps name with ⟨before, found, after, rfl, -, hremove⟩ | ⟨-, hremove⟩
  · rw [hremove]
    exact h.sublist ((List.Sublist.refl before).append (List.sublist_cons_self found after))
  · rwa [hremove]

theorem Distinct.modify (h : ps.Distinct) (name : String) {change : Parameter → Parameter}
    (hchange : ∀ p, (change p).name = p.name) : (ps.modify name change).Distinct := by
  rcases modify_cases ps name change with ⟨before, found, after, rfl, -, hmodify⟩ | ⟨-, hmodify⟩
  · rw [hmodify]
    exact h.exchange (hchange found ▸ sameName_refl _)
  · rwa [hmodify]

/-- A change keeps the names apart. -/
theorem Distinct.perform (h : ps.Distinct) {change : Change} (hchange : change.AddsPlainly) :
    (ps.perform change).Distinct := by
  cases change with
  | add name value declaredType => exact h.add (Parameter.bareName_bareName hchange)
  | remove name => exact h.remove name
  | clear => exact .nil
  | setValue name value => exact h.modify name fun _ => rfl
  | setDeclaredType name declaredType => exact h.modify name fun _ => rfl

theorem distinct_run {changes : List Change} (h : ∀ change ∈ changes, change.AddsPlainly) :
    (run changes).Distinct := by
  have hfold : ∀ (changes : List Change) (ps : Parameters), ps.Distinct →
      (∀ change ∈ changes, change.AddsPlainly) → (changes.foldl perform ps).Distinct := by
    intro changes
    induction changes with
    | nil => exact fun _ h _ => h
    | cons change changes ih =>
      intro ps hps hchanges
      rw [List.forall_mem_cons] at hchanges
      exact ih _ (hps.perform hchanges.1) hchanges.2
  exact hfold changes [] .nil h

/-! ## Values -/

/-- The value of each parameter is bound, and to no other name anything. -/
theorem Distinct.get?_bindings (h : ps.Distinct) {bound bindings : Bindings} (hsound : bound.Sound)
    (hcollation : bound.collation = caseInsensitive)
    (hbindings : ps.foldlM (fun bound p => do
      let value ← p.toValue
      .ok (bound.insert p.name value)) bound = .ok bindings) :
    (∀ p ∈ ps, ∃ value, p.toValue = .ok value ∧ bindings.get? p.name = some value) ∧
      ∀ name, (∀ p ∈ ps, sameName p.name name = false) → bindings.get? name = bound.get? name := by
  induction ps generalizing bound with
  | nil =>
    cases hbindings
    exact ⟨nofun, fun _ _ => rfl⟩
  | cons p ps ih =>
    obtain ⟨hp, hps⟩ := List.pairwise_cons.mp h
    rw [List.foldlM_cons] at hbindings
    cases hvalue : p.toValue with
    | error failure =>
      rw [hvalue] at hbindings
      cases hbindings
    | ok value =>
      rw [hvalue] at hbindings
      have hlawful : bound.collation.Lawful := hcollation ▸ caseInsensitive_lawful
      have hget := CollatedMap.get?_insert hsound hlawful p.name value
      rw [hcollation] at hget
      obtain ⟨hvalues, habsent⟩ := ih hps (hsound.insert hlawful p.name value)
        ((CollatedMap.collation_insert _ _ _).trans hcollation) hbindings
      refine ⟨List.forall_mem_cons.mpr ⟨⟨value, hvalue, ?_⟩, hvalues⟩, fun name hname => ?_⟩
      · rw [habsent p.name fun q hq => caseInsensitive_lawful.differs_symm (hp q hq), hget,
          caseInsensitive_lawful.refl, if_pos rfl]
      · rw [List.forall_mem_cons] at hname
        have hother : caseInsensitive.equals name p.name = false :=
          caseInsensitive_lawful.differs_symm hname.1
        rw [habsent name hname.2, hget, hother, if_neg Bool.false_ne_true]

/-- The values of parameters are told, or the failure of the first that has none. -/
theorem bindings_cases (ps : Parameters) :
    (∃ failure, ps.findSome? Parameter.failure? = some failure ∧ ps.bindings = .error failure) ∨
      ps.findSome? Parameter.failure? = none ∧ ∃ bindings, ps.bindings = .ok bindings := by
  unfold bindings
  generalize Bindings.none = bound
  induction ps generalizing bound with
  | nil => exact .inr ⟨rfl, bound, rfl⟩
  | cons p ps ih =>
    rw [List.findSome?_cons, List.foldlM_cons]
    cases hp : p.toValue with
    | error failure =>
      have hfailure : p.failure? = some failure := by rw [Parameter.failure?, hp]
      rw [hfailure]
      exact .inl ⟨failure, rfl, rfl⟩
    | ok value =>
      have hnone : p.failure? = none := by rw [Parameter.failure?, hp]
      rw [hnone]
      exact ih (bound.insert p.name value)

theorem exists_of_bindings_error {failure : Error} (h : ps.bindings = .error failure) :
    ∃ p ∈ ps, p.toValue = .error failure := by
  rcases ps.bindings_cases with ⟨failure', hfirst, hbindings⟩ | ⟨-, bindings, hbindings⟩
  · rw [hbindings] at h
    cases h
    obtain ⟨p, hp, hfailure⟩ := List.exists_of_findSome?_eq_some hfirst
    exact ⟨p, hp, Parameter.failure?_eq_some hfailure⟩
  · rw [hbindings] at h
    cases h

/-- As long as no name is given with two `@` in front, parameters are kept apart by their names. One
that is added is found under its name; it takes the place of its namesake, or the last place, and
leaves the others alone. One that is removed is the one of that name. A command text sees the value
of each parameter under its name, and nothing else; or else one of the values has no conversion. -/
theorem run_keeps_apart {changes : List Change} (h : ∀ change ∈ changes, change.AddsPlainly) :
    let ps := run changes
    ps.Distinct ∧
    (∀ name value declaredType, Parameter.IsPlain name →
      let p := Parameter.create name value declaredType
      (ps.add p).get? name = some p ∧
      ((∃ before namesake after, ps = before ++ namesake :: after ∧
          sameName namesake.name p.name = true ∧ ps.add p = before ++ p :: after) ∨
        (∀ q ∈ ps, sameName q.name p.name = false) ∧ ps.add p = ps ++ [p])) ∧
    (∀ name,
      (∃ before namesake after, ps = before ++ namesake :: after ∧
          sameName namesake.name (Parameter.bareName name) = true ∧
          ps.remove name = before ++ after) ∨
        (∀ q ∈ ps, sameName q.name (Parameter.bareName name) = false) ∧ ps.remove name = ps) ∧
    (∀ bindings, ps.bindings = .ok bindings →
      (∀ p ∈ ps, ∃ value, p.toValue = .ok value ∧ bindings.get? p.name = some value) ∧
        ∀ name, (∀ p ∈ ps, sameName p.name name = false) → bindings.get? name = none) ∧
    (∀ failure, ps.bindings = .error failure → ∃ p ∈ ps, p.toValue = .error failure) := by
  intro ps
  have hps : ps.Distinct := distinct_run h
  refine ⟨hps, fun name value declaredType hname => ?_, ps.remove_cases, fun bindings hok => ?_,
    fun failure => exists_of_bindings_error⟩
  · intro p
    have hbare : Parameter.bareName p.name = p.name := Parameter.bareName_bareName hname
    have hcases := ps.add_cases p
    rw [hbare] at hcases
    have hmem : p ∈ ps.add p := by
      rcases hcases with ⟨before, _, after, -, -, hadd⟩ | ⟨-, hadd⟩ <;> rw [hadd] <;> simp
    exact ⟨(hps.add hbare).get?_eq hmem (sameName_refl _), hcases⟩
  · exact hps.get?_bindings (CollatedMap.empty_sound _) rfl hok

/-- Names that are written in other letters, or with an `@`, or with two where nothing is added, do
no harm. -/
theorem run_keeps_apart_of_two :
    let changes : List Change := [.add "@Total" (some (.int 1)) none,
      .add "id" (some (.int 2)) (some .bigint), .remove "@@id", .setValue "@@total" none]
    (run changes).Distinct ∧
      ((run changes).add (.create "@TOTAL" (some (.int 3)) none)).get? "@TOTAL" =
        some ⟨"TOTAL", some (.int 3), none⟩ := by
  intro changes
  have hplain : ∀ change ∈ changes, change.AddsPlainly := by
    simp [changes, Change.AddsPlainly, Parameter.IsPlain]
  obtain ⟨hdistinct, hadd, -⟩ := run_keeps_apart hplain
  exact ⟨hdistinct, (hadd "@TOTAL" (some (.int 3)) none (by decide)).1⟩

/-! ## Two signs -/

/-- No name is the same with an `@` in front. -/
theorem sameName_sign (name : String) : sameName ("@" ++ name) name = false := by
  rw [← Bool.not_eq_true, foldText_lowercase_iff]
  intro h
  have hlength := congrArg List.length h
  simp [foldText, Unicode.lowercase_of_ascii (c := '@') (by decide)] at hlength

/-- A name with two `@` in front that is added twice is there twice. -/
theorem not_distinct_of_two_signs (name : String) (value value' : Option Scalar)
    (declaredType declaredType' : Option DataType) :
    ¬(run [.add ("@@" ++ name) value declaredType,
      .add ("@@" ++ name) value' declaredType']).Distinct := by
  have htwo : ("@@" ++ name).toList = '@' :: '@' :: name.toList := by simp
  have hsign : Parameter.bareName ("@@" ++ name) = "@" ++ name :=
    (Parameter.bareName_eq_ofList htwo).trans (String.toList_inj.mp (by simp))
  have hname : Parameter.bareName ("@" ++ name) = name :=
    (Parameter.bareName_eq_ofList (by simp)).trans String.ofList_toList
  have hadd : run [.add ("@@" ++ name) value declaredType,
      .add ("@@" ++ name) value' declaredType'] =
      [⟨"@" ++ name, value, declaredType⟩, ⟨"@" ++ name, value', declaredType'⟩] := by
    have hposition : position? [⟨"@" ++ name, value, declaredType⟩] ("@" ++ name) = none := by
      rw [position?, hname, List.findIdx?_singleton, sameName_sign, if_neg Bool.false_ne_true]
    simp only [run, List.foldl_cons, List.foldl_nil, perform, Parameter.create, hsign]
    change add [⟨"@" ++ name, value, declaredType⟩] _ = _
    rw [add, hposition]
    rfl
  rw [hadd, Distinct, List.pairwise_pair, sameName_refl]
  exact Bool.noConfusion

/-- Of two parameters that are stored under one name, a look-up finds the one that was added
first. -/
theorem run_of_two_signs :
    run [.add "@@x" (some (.int 1)) none, .add "@@x" (some (.int 2)) none] =
        [⟨"@x", some (.int 1), none⟩, ⟨"@x", some (.int 2), none⟩] ∧
      get? (run [.add "@@x" (some (.int 1)) none, .add "@@x" (some (.int 2)) none]) "@@x" =
        some ⟨"@x", some (.int 1), none⟩ := by
  decide +kernel

end Parameters
end TransactSql
