/-
TransactSql.Proofs.Collation.Dictionary — a collated map is a dictionary.

A `Dictionary` is what a map means: a list of entries, in which a key is
looked up by comparing it with one key after the other. It knows neither
hash codes nor buckets, and it counts its entries when it is asked for
their number.

`Represents m d` says that the map `m` stands for the dictionary `d`: they
have the same entries, in whatever order, and the number that the map
keeps is theirs. Then they answer every request alike, and go on standing
for each other (`represents_perform`); so do maps and dictionaries on
which any operations are run (`runAll_represents`). How many texts share
a hash code makes no difference.
-/
import Mathlib.Data.List.Forall2
import TransactSql.Collation.Request
import TransactSql.Proofs.Collation.MapEntries

namespace TransactSql

variable {α : Type}

/-! ## Dictionaries -/

/-- Entries under keys that are compared by a collation. -/
structure Dictionary (α : Type) where
  collation : Collation
  entries : List (String × α)

namespace Dictionary

def empty (collation : Collation) : Dictionary α := ⟨collation, []⟩

/-- The entry of a key. -/
def entry? (d : Dictionary α) (key : String) : Option (String × α) :=
  d.entries.find? fun entry => d.collation.equals entry.1 key

def get? (d : Dictionary α) (key : String) : Option α :=
  (d.entry? key).map (·.2)

/-- Changes the value of a key, if it has one. -/
def modify (d : Dictionary α) (key : String) (change : α → α) : Dictionary α :=
  { d with
    entries := d.entries.map fun entry =>
      if d.collation.equals entry.1 key then (entry.1, change entry.2) else entry }

/-- Gives a key a value. A key that has one already keeps its spelling. -/
def insert (d : Dictionary α) (key : String) (value : α) : Dictionary α :=
  match d.entry? key with
  | some _ => d.modify key fun _ => value
  | none => { d with entries := d.entries ++ [(key, value)] }

/-- Removes the entry of a key, if it has one. -/
def erase (d : Dictionary α) (key : String) : Dictionary α :=
  { d with entries := d.entries.filter fun entry => !d.collation.equals entry.1 key }

/-- The dictionary of some entries, inserted in order. -/
def ofList (collation : Collation) (entries : List (String × α)) : Dictionary α :=
  entries.foldl (fun d entry => d.insert entry.1 entry.2) (empty collation)

/-- The answer to a request, and the dictionary after it. -/
def perform (d : Dictionary α) : MapRequest α → MapAnswer α × Dictionary α
  | .insert key value => (.value (d.get? key), d.insert key value)
  | .erase key => (.value (d.get? key), d.erase key)
  | .get key => (.value (d.get? key), d)
  | .entry key => (.entry (d.entry? key), d)
  | .modify key change => (.value (d.get? key), d.modify key change)
  | .contains key => (.truth (d.entry? key).isSome, d)
  | .size => (.number d.entries.length, d)
  | .isEmpty => (.truth (d.entries.length == 0), d)

/-- Runs operations on dictionaries. -/
def runAll (dictionaries : List (Dictionary α)) (operations : List (MapOperation α)) :
    List (Option (MapAnswer α)) × List (Dictionary α) :=
  MapOperation.runAll perform (ofList Collation.caseInsensitive) dictionaries operations

end Dictionary

/-! ## Maps that stand for dictionaries -/

namespace CollatedMap

variable {m : CollatedMap α} {d : Dictionary α} {key : String}

/-- The map stands for the dictionary. -/
structure Represents (m : CollatedMap α) (d : Dictionary α) : Prop where
  collation : m.collation = d.collation
  lawful : m.collation.Lawful
  sound : m.Sound
  entries : m.toList.Perm d.entries
  size : m.size = d.entries.length

theorem represents_empty {collation : Collation} (h : collation.Lawful) :
    (empty collation : CollatedMap α).Represents (.empty collation) where
  collation := rfl
  lawful := h
  sound := empty_sound collation
  entries := .refl []
  size := rfl

namespace Represents

/-- No two entries of the dictionary have equal keys. -/
theorem pairwise (h : m.Represents d) :
    d.entries.Pairwise fun x y => m.collation.equals x.1 y.1 = false :=
  (h.entries.pairwise_iff h.lawful.differs_symm).mp
    (toList_pairwise h.sound h.lawful)

theorem entry?_eq (h : m.Represents d) (key : String) : m.entry? key = d.entry? key := by
  refine Option.ext fun entry => ?_
  rw [entry?_eq_some_iff h.sound h.lawful, h.entries.mem_iff, Dictionary.entry?, ← h.collation]
  constructor
  · rintro ⟨hmem, hkey⟩
    cases hfind : d.entries.find? fun entry => m.collation.equals entry.1 key with
    | none => exact absurd hkey (List.find?_eq_none.mp hfind entry hmem)
    | some found =>
      have hfound : m.collation.equals found.1 key = true := by simpa using List.find?_some hfind
      rw [eq_of_distinct h.lawful (List.pairwise_map.mpr h.pairwise)
        (List.mem_of_find?_eq_some hfind) hmem (h.lawful.trans hfound (h.lawful.symm hkey))]
  · intro hfind
    exact ⟨List.mem_of_find?_eq_some hfind, by simpa using List.find?_some hfind⟩

theorem get?_eq (h : m.Represents d) (key : String) : m.get? key = d.get? key := by
  rw [CollatedMap.get?, Dictionary.get?, h.entry?_eq]

/-! ### Changes -/

/-- Where a key is found, the other entries are under other keys. -/
theorem others_differ (h : m.Represents d) {found : String × α} {rest : List (String × α)}
    (hfound : m.entry? key = some found) (hperm : m.toList.Perm (found :: rest)) :
    ∀ entry ∈ rest, m.collation.equals entry.1 key = false := by
  have hdistinct : (found :: rest).Pairwise fun x y => m.collation.equals x.1 y.1 = false :=
    (hperm.pairwise_iff h.lawful.differs_symm).mp
      (toList_pairwise h.sound h.lawful)
  have hkey := equals_of_entry? hfound
  intro entry hentry
  have hdiffers := (List.pairwise_cons.mp hdistinct).1 entry hentry
  rw [← Bool.not_eq_true] at hdiffers ⊢
  exact fun hequal => hdiffers (h.lawful.trans hkey (h.lawful.symm hequal))

theorem modify (h : m.Represents d) (key : String) (change : α → α) :
    (m.modify key change).Represents (d.modify key change) where
  collation := h.collation
  lawful := h.lawful
  sound := h.sound.modify key change
  entries := by
    let changed (entry : String × α) :=
      if m.collation.equals entry.1 key then (entry.1, change entry.2) else entry
    have hkept : ∀ rest : List (String × α),
        (∀ entry ∈ rest, m.collation.equals entry.1 key = false) → rest.map changed = rest := by
      intro rest hrest
      exact (List.map_congr_left fun entry hentry => by simp [changed, hrest entry hentry]).trans
        (List.map_id rest)
    have hentries : (d.modify key change).entries = d.entries.map changed := by
      rw [Dictionary.modify, ← h.collation]
    rw [hentries]
    cases hfound : m.entry? key with
    | none =>
      have habsent := (entry?_eq_none_iff h.sound h.lawful).mp hfound
      have hsame := hkept d.entries fun entry hentry =>
        habsent entry (h.entries.mem_iff.mpr hentry)
      rw [hsame]
      exact (toList_modify_of_absent h.sound h.lawful change hfound).trans h.entries
    | some found =>
      obtain ⟨rest, hbefore, hafter⟩ := toList_modify_of_entry? h.sound change hfound
      have hkey := equals_of_entry? hfound
      have hchanged : (found :: rest).map changed = (found.1, change found.2) :: rest := by
        rw [List.map_cons, hkept rest (h.others_differ hfound hbefore)]
        simp [changed, hkey]
      rw [← hchanged] at hafter
      exact hafter.trans ((hbefore.symm.trans h.entries).map changed)
  size := by
    rw [Dictionary.modify, List.length_map]
    exact h.size

theorem insert (h : m.Represents d) (key : String) (value : α) :
    (m.insert key value).Represents (d.insert key value) := by
  unfold Dictionary.insert
  rw [← h.entry?_eq key]
  cases hfound : m.entry? key with
  | some found =>
    rw [CollatedMap.insert, if_pos (by simp [contains, hfound])]
    exact h.modify key fun _ => value
  | none =>
    have habsent : m.contains key = false := by simp [contains, hfound]
    have hentries : (m.insert key value).toList.Perm (d.entries ++ [(key, value)]) :=
      (toList_insert_of_absent h.sound value habsent).trans
        ((h.entries.cons _).trans (List.perm_append_singleton _ _).symm)
    have hsize : (m.insert key value).size = (d.entries ++ [(key, value)]).length := by
      rw [CollatedMap.insert, if_neg (by simp [habsent]), List.length_append, ← h.size]
      rfl
    exact {
      collation := (collation_insert m key value).trans h.collation
      lawful := (collation_insert m key value).symm ▸ h.lawful
      sound := h.sound.insert h.lawful key value
      entries := hentries
      size := hsize }

theorem erase (h : m.Represents d) (key : String) : (m.erase key).Represents (d.erase key) := by
  have hentries : (d.erase key).entries =
      d.entries.filter fun entry => !m.collation.equals entry.1 key := by
    rw [Dictionary.erase, ← h.collation]
  have hkept : ∀ rest : List (String × α),
      (∀ entry ∈ rest, m.collation.equals entry.1 key = false) →
        rest.filter (fun entry => !m.collation.equals entry.1 key) = rest := fun rest hrest =>
    List.filter_eq_self.mpr fun entry hentry => by simp [hrest entry hentry]
  cases hfound : m.entry? key with
  | none =>
    have habsent := (entry?_eq_none_iff h.sound h.lawful).mp hfound
    rw [hkept d.entries fun entry hentry => habsent entry (h.entries.mem_iff.mpr hentry)]
      at hentries
    have hsame : d.erase key = d := congrArg (Dictionary.mk d.collation) hentries
    rw [erase_of_absent hfound, hsame]
    exact h
  | some found =>
    have hkey := equals_of_entry? hfound
    have hperm := toList_erase_of_entry? h.sound hfound
    have hrest : (m.erase key).toList.Perm (d.erase key).entries := by
      have hfilter := (hperm.symm.trans h.entries).filter fun entry =>
        !m.collation.equals entry.1 key
      rwa [List.filter_cons_of_neg (by simp [hkey]),
        hkept _ (h.others_differ hfound hperm), ← hentries] at hfilter
    have hsize : (m.erase key).size = m.size - 1 := by
      rw [CollatedMap.erase, if_pos (by simp [contains, hfound])]
      rfl
    have hlength := (hperm.symm.trans h.entries).length_eq
    rw [List.length_cons, hrest.length_eq, ← h.size] at hlength
    exact {
      collation := (collation_erase m key).trans h.collation
      lawful := (collation_erase m key).symm ▸ h.lawful
      sound := h.sound.erase key
      entries := hrest
      size := by rw [hsize, ← hlength, Nat.add_sub_cancel] }

theorem ofList (entries : List (String × α)) :
    (CollatedMap.ofList Collation.caseInsensitive entries).Represents
      (Dictionary.ofList Collation.caseInsensitive entries) := by
  unfold CollatedMap.ofList Dictionary.ofList
  have hstart := represents_empty (α := α) Collation.caseInsensitive_lawful
  revert hstart
  generalize CollatedMap.empty Collation.caseInsensitive = m
  generalize Dictionary.empty Collation.caseInsensitive = d
  intro h
  induction entries generalizing m d with
  | nil => exact h
  | cons entry rest ih => exact ih _ _ (h.insert entry.1 entry.2)

end Represents

/-! ## Running operations -/

/-- A request is answered alike, and the map goes on standing for the dictionary. -/
theorem represents_perform (h : m.Represents d) (request : MapRequest α) :
    (m.perform request).1 = (d.perform request).1 ∧
      (m.perform request).2.Represents (d.perform request).2 := by
  cases request with
  | insert key value => exact ⟨congrArg MapAnswer.value (h.get?_eq key), h.insert key value⟩
  | erase key => exact ⟨congrArg MapAnswer.value (h.get?_eq key), h.erase key⟩
  | get key => exact ⟨congrArg MapAnswer.value (h.get?_eq key), h⟩
  | entry key => exact ⟨congrArg MapAnswer.entry (h.entry?_eq key), h⟩
  | modify key change => exact ⟨congrArg MapAnswer.value (h.get?_eq key), h.modify key change⟩
  | contains key =>
    exact ⟨congrArg (fun found => MapAnswer.truth (Option.isSome found)) (h.entry?_eq key), h⟩
  | size => exact ⟨congrArg MapAnswer.number h.size, h⟩
  | isEmpty => exact ⟨congrArg (fun n => MapAnswer.truth (n == 0)) h.size, h⟩

end CollatedMap

namespace MapOperation

variable {M N : Type} {R : M → N → Prop} {perform : M → MapRequest α → MapAnswer α × M}
  {perform' : N → MapRequest α → MapAnswer α × N} {collect : List (String × α) → M}
  {collect' : List (String × α) → N} {maps : List M} {maps' : List N}

/-- At each place there are two maps that correspond, or there is none. -/
theorem getElem?_cases (h : List.Forall₂ R maps maps') (place : Nat) :
    (maps[place]? = none ∧ maps'[place]? = none) ∨
      ∃ m n, maps[place]? = some m ∧ maps'[place]? = some n ∧ R m n := by
  induction h generalizing place with
  | nil => exact .inl ⟨List.getElem?_nil, List.getElem?_nil⟩
  | cons hmn _ ih =>
    cases place with
    | zero => exact .inr ⟨_, _, List.getElem?_cons_zero, List.getElem?_cons_zero, hmn⟩
    | succ place =>
      rw [List.getElem?_cons_succ, List.getElem?_cons_succ]
      exact ih place

theorem forall₂_set (h : List.Forall₂ R maps maps') (place : Nat) {m : M} {n : N} (hmn : R m n) :
    List.Forall₂ R (maps.set place m) (maps'.set place n) := by
  induction h generalizing place with
  | nil => exact .nil
  | cons hfirst hrest ih =>
    cases place with
    | zero => exact .cons hmn hrest
    | succ place => exact .cons hfirst (ih place)

/-- An operation on maps that correspond is answered alike, if requests are, and the maps go on
corresponding. -/
theorem run_alike
    (hperform : ∀ m n, R m n → ∀ request, (perform m request).1 = (perform' n request).1 ∧
      R (perform m request).2 (perform' n request).2)
    (hcollect : ∀ entries, R (collect entries) (collect' entries)) (h : List.Forall₂ R maps maps')
    (operation : MapOperation α) :
    (run perform collect maps operation).1 = (run perform' collect' maps' operation).1 ∧
      List.Forall₂ R (run perform collect maps operation).2
        (run perform' collect' maps' operation).2 := by
  cases operation with
  | ask place request =>
    rcases getElem?_cases h place with ⟨hm, hn⟩ | ⟨m, n, hm, hn, hmn⟩ <;> simp only [run, hm, hn]
    · exact ⟨trivial, h⟩
    · obtain ⟨hanswer, hafter⟩ := hperform m n hmn request
      exact ⟨congrArg some hanswer, forall₂_set h place hafter⟩
  | copy place =>
    rcases getElem?_cases h place with ⟨hm, hn⟩ | ⟨m, n, hm, hn, hmn⟩ <;> simp only [run, hm, hn]
    · exact ⟨trivial, h⟩
    · exact ⟨trivial, List.rel_append h (.cons hmn .nil)⟩
  | collect entries => exact ⟨rfl, List.rel_append h (.cons (hcollect entries) .nil)⟩

theorem runAll_alike
    (hperform : ∀ m n, R m n → ∀ request, (perform m request).1 = (perform' n request).1 ∧
      R (perform m request).2 (perform' n request).2)
    (hcollect : ∀ entries, R (collect entries) (collect' entries)) (h : List.Forall₂ R maps maps')
    (operations : List (MapOperation α)) :
    (runAll perform collect maps operations).1 = (runAll perform' collect' maps' operations).1 ∧
      List.Forall₂ R (runAll perform collect maps operations).2
        (runAll perform' collect' maps' operations).2 := by
  induction operations generalizing maps maps' with
  | nil => exact ⟨rfl, h⟩
  | cons operation later ih =>
    obtain ⟨hanswer, hmaps⟩ := run_alike hperform hcollect h operation
    obtain ⟨hanswers, hlater⟩ := ih hmaps
    exact ⟨congrArg₂ List.cons hanswer hanswers, hlater⟩

end MapOperation

namespace CollatedMap

/-- Whatever operations are run from an empty map on, under any lawful collation, maps answer as
dictionaries do. In the end each map has the entries of its dictionary, every one once, it tells
their number, and no two of its keys are equal. -/
theorem runAll_answers_as_dictionary {collation : Collation} (h : collation.Lawful)
    (operations : List (MapOperation α)) :
    (runAll [empty collation] operations).1 =
        (Dictionary.runAll [.empty collation] operations).1 ∧
      List.Forall₂ (fun m d => m.collation = d.collation ∧ m.toList.Perm d.entries ∧
          m.size = m.toList.length ∧ (m.isEmpty = true ↔ m.toList = []) ∧
          m.toList.Pairwise fun x y => m.collation.equals x.1 y.1 = false)
        (runAll [empty collation] operations).2
        (Dictionary.runAll [.empty collation] operations).2 := by
  obtain ⟨hanswers, hmaps⟩ := MapOperation.runAll_alike (R := Represents)
    (fun _ _ hm request => represents_perform hm request) Represents.ofList
    (.cons (represents_empty h) .nil) operations
  refine ⟨hanswers, hmaps.imp fun m d hm => ?_⟩
  have hsize : m.size = m.toList.length := hm.size.trans hm.entries.length_eq.symm
  refine ⟨hm.collation, hm.entries, hsize, ?_, toList_pairwise hm.sound hm.lawful⟩
  rw [isEmpty, beq_iff_eq, ← List.length_eq_zero_iff, ← hsize, size]

/-- The names of `caseInsensitive`, all of which have the same hash code. -/
def oneBucket : Collation := { Collation.caseInsensitive with hash := fun _ => 0 }

theorem oneBucket_lawful : oneBucket.Lawful where
  refl := Collation.caseInsensitive_lawful.refl
  symm := Collation.caseInsensitive_lawful.symm
  trans := Collation.caseInsensitive_lawful.trans
  hash_eq _ := rfl

/-- Also where all keys are in one bucket, a value is replaced under another spelling and its first
spelling is kept, and a copy does not lose the entry that is removed from its original. -/
theorem runAll_answers_as_dictionary_one_bucket :
    oneBucket.Lawful ∧
      (runAll [empty oneBucket]
        [.ask 0 (.insert "Name" 1), .ask 0 (.insert "NAME" 2), .ask 0 (.insert "b" 3), .copy 0,
          .ask 0 (.erase "name"), .ask 0 .size, .ask 1 (.entry "nAmE")]).1 =
        [some (.value none), some (.value (some 1)), some (.value none), none,
          some (.value (some 2)), some (.number 1), some (.entry (some ("Name", 2)))] :=
  ⟨oneBucket_lawful,
    (runAll_answers_as_dictionary oneBucket_lawful _).1.trans (by decide +kernel)⟩

end CollatedMap
end TransactSql
