/-
TransactSql.Proofs.Collation.MapEntries — the entries of a collated map.

`CollatedMap.Sound` is what every operation keeps: no hash code has two
buckets, each entry is in the bucket of its key, and no two keys of a
bucket are equal. Under a lawful collation this makes the buckets
invisible:

* `toList_pairwise`: no two entries of the map have equal keys;
* `entry?_eq_some_iff`: a look-up finds the entry whose key is equal to
  the one that is asked for, wherever it is stored;
* `toList_insert_of_absent` and `toList_insert_of_entry?`: what `insert`
  does to the entries, up to their order, which means nothing; and
  `toList_modify_of_entry?` and `toList_erase_of_entry?` likewise.

Every change of a map goes through `updateBucket`, which exchanges one
bucket and leaves the rest of the entries alone (`toList_updateBucket`).
-/
import TransactSql.Collation.Map
import TransactSql.Proofs.Collation.Laws

namespace TransactSql.CollatedMap

open Collation

variable {α : Type}

/-- What holds of every map that is built by the operations. -/
structure Sound (m : CollatedMap α) : Prop where
  hashes : (m.buckets.map (·.1)).Nodup
  placed : ∀ b ∈ m.buckets, ∀ entry ∈ b.2, m.collation.hash entry.1 = b.1
  distinct : ∀ b ∈ m.buckets, (b.2.map (·.1)).Pairwise fun s t => m.collation.equals s t = false

theorem empty_sound (collation : Collation) : (empty collation : CollatedMap α).Sound where
  hashes := by simp [empty]
  placed := by simp [empty]
  distinct := by simp [empty]

/-! ## Exchanging a bucket -/

/-- The entries of all buckets but one. -/
def others (buckets : List (UInt64 × List (String × α))) (hash : UInt64) : List (String × α) :=
  (buckets.filter (·.1 != hash)).flatMap (·.2)

theorem mem_withBucket {buckets : List (UInt64 × List (String × α))} {hash : UInt64}
    {entries : List (String × α)} {b : UInt64 × List (String × α)}
    (h : b ∈ withBucket buckets hash entries) : b = (hash, entries) ∨ b ∈ buckets := by
  induction buckets with
  | nil => unfold withBucket at h; split at h <;> simp_all
  | cons first rest ih =>
    unfold withBucket at h
    split at h
    · split at h
      · exact .inr (List.mem_cons_of_mem _ h)
      · rcases List.mem_cons.mp h with rfl | h
        · exact .inl rfl
        · exact .inr (List.mem_cons_of_mem _ h)
    · rcases List.mem_cons.mp h with rfl | h
      · exact .inr List.mem_cons_self
      · exact (ih h).imp_right (List.mem_cons_of_mem _)

theorem nodup_withBucket {buckets : List (UInt64 × List (String × α))} {hash : UInt64}
    {entries : List (String × α)} (h : (buckets.map (·.1)).Nodup) :
    ((withBucket buckets hash entries).map (·.1)).Nodup := by
  induction buckets with
  | nil => unfold withBucket; split <;> simp
  | cons first rest ih =>
    rw [List.map_cons, List.nodup_cons] at h
    unfold withBucket
    split
    · rename_i heq
      split
      · exact h.2
      · rw [List.map_cons, List.nodup_cons, ← beq_iff_eq.mp heq]
        exact h
    · rename_i hne
      rw [List.map_cons, List.nodup_cons]
      refine ⟨fun hmem => ?_, ih h.2⟩
      obtain ⟨b, hb, hfirst⟩ := List.mem_map.mp hmem
      rcases mem_withBucket hb with rfl | hb
      · exact hne (beq_iff_eq.mpr hfirst.symm)
      · exact h.1 (List.mem_map.mpr ⟨b, hb, hfirst⟩)

theorem others_of_not_mem {buckets : List (UInt64 × List (String × α))} {hash : UInt64}
    (h : hash ∉ buckets.map (·.1)) : others buckets hash = buckets.flatMap (·.2) := by
  rw [others, List.filter_eq_self.mpr]
  intro b hb
  rw [bne_iff_ne]
  rintro rfl
  exact h (List.mem_map_of_mem hb)

/-- All entries are those of one bucket and those of the others. -/
theorem flatMap_perm_lookup {buckets : List (UInt64 × List (String × α))} (hash : UInt64)
    (h : (buckets.map (·.1)).Nodup) :
    (buckets.flatMap (·.2)).Perm ((buckets.lookup hash).getD [] ++ others buckets hash) := by
  induction buckets with
  | nil => simp [others]
  | cons first rest ih =>
    rw [List.map_cons, List.nodup_cons] at h
    by_cases heq : hash = first.1
    · subst heq
      have hrest : others (first :: rest) first.1 = rest.flatMap (·.2) := by
        rw [others, List.filter_cons_of_neg (by simp)]
        exact others_of_not_mem h.1
      rw [hrest, List.lookup_cons, beq_self_eq_true]
      simp
    · have hrest : others (first :: rest) hash = first.2 ++ others rest hash := by
        rw [others, List.filter_cons_of_pos (by simpa using fun he => heq he.symm)]
        rfl
      have hlookup : (first :: rest).lookup hash = rest.lookup hash := by
        rw [List.lookup_cons, beq_eq_false_iff_ne.mpr heq]
      rw [hrest, hlookup, List.flatMap_cons]
      exact ((ih h.2).append_left first.2).trans (List.perm_append_comm_assoc _ _ _)

/-- After an exchange the entries are the new ones and those of the other buckets. -/
theorem flatMap_withBucket_perm {buckets : List (UInt64 × List (String × α))} (hash : UInt64)
    (entries : List (String × α)) (h : (buckets.map (·.1)).Nodup) :
    ((withBucket buckets hash entries).flatMap (·.2)).Perm (entries ++ others buckets hash) := by
  induction buckets with
  | nil => unfold withBucket; split <;> simp_all [others]
  | cons first rest ih =>
    rw [List.map_cons, List.nodup_cons] at h
    unfold withBucket
    split
    · rename_i heq
      have hrest : others (first :: rest) hash = rest.flatMap (·.2) := by
        rw [others, List.filter_cons_of_neg (by simpa using heq)]
        exact others_of_not_mem (by rw [← beq_iff_eq.mp heq]; exact h.1)
      rw [hrest]
      split <;> simp_all
    · rename_i hne
      have hrest : others (first :: rest) hash = first.2 ++ others rest hash := by
        rw [others, List.filter_cons_of_pos (by simpa using hne)]
        rfl
      rw [hrest, List.flatMap_cons]
      exact ((ih h.2).append_left first.2).trans (List.perm_append_comm_assoc _ _ _)

/-- A change of the bucket of a key leaves all other entries alone. -/
theorem toList_updateBucket {m : CollatedMap α} (h : m.Sound) (key : String) :
    ∃ rest, m.toList.Perm (m.bucket (m.collation.hash key) ++ rest) ∧
      ∀ change, (m.updateBucket key change).toList.Perm
        (change (m.bucket (m.collation.hash key)) ++ rest) :=
  ⟨others m.buckets (m.collation.hash key), flatMap_perm_lookup _ h.hashes,
    fun _ => flatMap_withBucket_perm _ _ h.hashes⟩

/-- A bucket that is in use is among the buckets; any other one is empty. -/
theorem bucket_eq_nil_or_mem (m : CollatedMap α) (hash : UInt64) :
    m.bucket hash = [] ∨ (hash, m.bucket hash) ∈ m.buckets := by
  unfold bucket
  cases hb : m.buckets.lookup hash with
  | none => exact .inl rfl
  | some entries =>
    obtain ⟨before, after, hsplit, -⟩ := List.lookup_eq_some_iff.mp hb
    exact .inr (by simp [hsplit])

/-- A change keeps the map sound if the keys that it leaves belong into the bucket and differ. -/
theorem Sound.updateBucket {m : CollatedMap α} (h : m.Sound) {key : String}
    {change : List (String × α) → List (String × α)}
    (hplaced : ∀ entry ∈ change (m.bucket (m.collation.hash key)),
      m.collation.hash entry.1 = m.collation.hash key)
    (hdistinct : ((change (m.bucket (m.collation.hash key))).map (·.1)).Pairwise
      fun s t => m.collation.equals s t = false) : (m.updateBucket key change).Sound where
  hashes := nodup_withBucket h.hashes
  placed b hb := by
    rcases mem_withBucket hb with rfl | hb
    · exact hplaced
    · exact h.placed b hb
  distinct b hb := by
    rcases mem_withBucket hb with rfl | hb
    · exact hdistinct
    · exact h.distinct b hb

/-- The number that is noted is no part of the buckets. -/
theorem Sound.recount {m : CollatedMap α} (h : m.Sound) (count : Nat) :
    (m.recount count).Sound where
  hashes := h.hashes
  placed := h.placed
  distinct := h.distinct

theorem toList_recount (m : CollatedMap α) (count : Nat) :
    (m.recount count).toList = m.toList := rfl

/-! ## Looking up -/

theorem mem_toList {m : CollatedMap α} {entry : String × α} :
    entry ∈ m.toList ↔ ∃ b ∈ m.buckets, entry ∈ b.2 := List.mem_flatMap

theorem mem_toList_of_mem_bucket {m : CollatedMap α} {hash : UInt64} {entry : String × α}
    (h : entry ∈ m.bucket hash) : entry ∈ m.toList := by
  rcases m.bucket_eq_nil_or_mem hash with hnil | hmem
  · rw [hnil] at h
    exact absurd h List.not_mem_nil
  · exact mem_toList.mpr ⟨_, hmem, h⟩

/-- An entry is in the bucket of its key. -/
theorem Sound.mem_bucket {m : CollatedMap α} (h : m.Sound) {entry : String × α}
    (hmem : entry ∈ m.toList) : entry ∈ m.bucket (m.collation.hash entry.1) := by
  rcases List.mem_append.mp ((flatMap_perm_lookup (m.collation.hash entry.1) h.hashes).mem_iff.mp
    hmem) with hin | hout
  · exact hin
  · obtain ⟨b, hb, hentry⟩ := List.mem_flatMap.mp hout
    obtain ⟨hb, hne⟩ := List.mem_filter.mp hb
    exact absurd (h.placed b hb entry hentry).symm (by simpa using hne)

theorem Sound.bucket_distinct {m : CollatedMap α} (h : m.Sound) (hash : UInt64) :
    ((m.bucket hash).map (·.1)).Pairwise fun s t => m.collation.equals s t = false := by
  rcases m.bucket_eq_nil_or_mem hash with hnil | hmem
  · rw [hnil]
    exact .nil
  · exact h.distinct _ hmem

theorem Sound.bucket_placed {m : CollatedMap α} (h : m.Sound) {hash : UInt64}
    {entry : String × α} (hmem : entry ∈ m.bucket hash) : m.collation.hash entry.1 = hash := by
  rcases m.bucket_eq_nil_or_mem hash with hnil | hb
  · rw [hnil] at hmem
    exact absurd hmem List.not_mem_nil
  · exact h.placed _ hb entry hmem

/-- Two entries of a list whose keys differ pairwise are one if their keys are equal. -/
theorem eq_of_distinct {c : Collation} (hc : c.Lawful) {entries : List (String × α)}
    (h : (entries.map (·.1)).Pairwise fun s t => c.equals s t = false) {x y : String × α}
    (hx : x ∈ entries) (hy : y ∈ entries) (heq : c.equals x.1 y.1 = true) : x = y := by
  induction entries with
  | nil => exact absurd hx List.not_mem_nil
  | cons entry rest ih =>
    rw [List.map_cons, List.pairwise_cons] at h
    rcases List.mem_cons.mp hx with rfl | hx' <;> rcases List.mem_cons.mp hy with rfl | hy'
    · rfl
    · exact absurd heq (by simp [h.1 y.1 (List.mem_map_of_mem hy')])
    · exact absurd (hc.symm heq) (by simp [h.1 x.1 (List.mem_map_of_mem hx')])
    · exact ih h.2 hx' hy'

theorem equals_of_entry? {m : CollatedMap α} {key : String} {entry : String × α}
    (h : m.entry? key = some entry) : m.collation.equals entry.1 key = true := by
  have hkey := List.find?_some h
  exact hkey

/-- A look-up finds exactly the entry whose key is equal to the one that is asked for. -/
theorem entry?_eq_some_iff {m : CollatedMap α} (h : m.Sound) (hc : m.collation.Lawful)
    {key : String} {entry : String × α} :
    m.entry? key = some entry ↔ entry ∈ m.toList ∧ m.collation.equals entry.1 key = true := by
  constructor
  · intro hfind
    exact ⟨mem_toList_of_mem_bucket (List.mem_of_find?_eq_some hfind), equals_of_entry? hfind⟩
  · rintro ⟨hmem, heq⟩
    have hin : entry ∈ m.bucket (m.collation.hash key) := hc.hash_eq heq ▸ h.mem_bucket hmem
    cases hfind : m.entry? key with
    | none => exact absurd heq (List.find?_eq_none.mp hfind entry hin)
    | some found =>
      have hfound : found ∈ m.bucket (m.collation.hash key) := List.mem_of_find?_eq_some hfind
      have hkey := equals_of_entry? hfind
      rw [eq_of_distinct hc (h.bucket_distinct _) hfound hin (hc.trans hkey (hc.symm heq))]

theorem entry?_eq_none_iff {m : CollatedMap α} (h : m.Sound) (hc : m.collation.Lawful)
    {key : String} :
    m.entry? key = none ↔ ∀ entry ∈ m.toList, m.collation.equals entry.1 key = false := by
  rw [Option.eq_none_iff_forall_ne_some]
  constructor
  · intro hnone entry hmem
    exact Bool.not_eq_true _ ▸ fun heq => hnone entry ((entry?_eq_some_iff h hc).mpr ⟨hmem, heq⟩)
  · intro hall entry hsome
    obtain ⟨hmem, heq⟩ := (entry?_eq_some_iff h hc).mp hsome
    exact absurd heq (by simp [hall entry hmem])

/-- A value that is found is one of an entry. -/
theorem exists_mem_of_get? {m : CollatedMap α} {key : String} {value : α}
    (h : m.get? key = some value) : ∃ entry ∈ m.toList, entry.2 = value := by
  obtain ⟨entry, hentry, rfl⟩ := Option.map_eq_some_iff.mp h
  exact ⟨entry, mem_toList_of_mem_bucket (List.mem_of_find?_eq_some hentry), rfl⟩

theorem get?_eq_some_iff {m : CollatedMap α} (h : m.Sound) (hc : m.collation.Lawful)
    {key : String} {value : α} :
    m.get? key = some value ↔
      ∃ entry ∈ m.toList, m.collation.equals entry.1 key = true ∧ entry.2 = value := by
  rw [get?, Option.map_eq_some_iff]
  constructor
  · rintro ⟨entry, hentry, hvalue⟩
    obtain ⟨hmem, hkey⟩ := (entry?_eq_some_iff h hc).mp hentry
    exact ⟨entry, hmem, hkey, hvalue⟩
  · rintro ⟨entry, hmem, hkey, hvalue⟩
    exact ⟨entry, (entry?_eq_some_iff h hc).mpr ⟨hmem, hkey⟩, hvalue⟩

/-- No two entries have equal keys. -/
theorem toList_pairwise {m : CollatedMap α} (h : m.Sound) (hc : m.collation.Lawful) :
    m.toList.Pairwise fun x y => m.collation.equals x.1 y.1 = false := by
  rw [toList, List.pairwise_flatMap]
  refine ⟨fun b hb => List.pairwise_map.mp (h.distinct b hb), ?_⟩
  refine List.Pairwise.imp_of_mem ?_ (List.pairwise_map.mp h.hashes)
  intro b b' hb hb' hne x hx y hy
  refine Bool.not_eq_true _ ▸ fun heq => hne ?_
  rw [← h.placed b hb x hx, ← h.placed b' hb' y hy, hc.hash_eq heq]

/-! ## Changing and inserting -/

theorem collation_insert (m : CollatedMap α) (key : String) (value : α) :
    (m.insert key value).collation = m.collation := by
  unfold CollatedMap.insert
  split <;> rfl

theorem map_modifyEntry (c : Collation) (key : String) (change : α → α)
    (entries : List (String × α)) :
    (modifyEntry c key change entries).map (·.1) = entries.map (·.1) := by
  induction entries with
  | nil => rfl
  | cons entry rest ih =>
    unfold modifyEntry
    split
    · rfl
    · rw [List.map_cons, ih, List.map_cons]

/-- A change of the value of a key affects the entry that a look-up finds, and no other. -/
theorem modifyEntry_perm {c : Collation} {key : String} (change : α → α)
    {entries : List (String × α)} {found : String × α}
    (h : entries.find? (fun entry => c.equals entry.1 key) = some found) :
    ∃ rest, entries.Perm (found :: rest) ∧
      (modifyEntry c key change entries).Perm ((found.1, change found.2) :: rest) := by
  induction entries with
  | nil => cases h
  | cons entry later ih =>
    rw [List.find?_cons] at h
    unfold modifyEntry
    split at h
    · rename_i heq
      cases h
      exact ⟨later, .refl _, by rw [if_pos heq]⟩
    · rename_i hne
      obtain ⟨rest, hbefore, hafter⟩ := ih h
      rw [if_neg (by simp [hne])]
      exact ⟨entry :: rest, (hbefore.cons entry).trans (.swap _ _ _),
        (hafter.cons entry).trans (.swap _ _ _)⟩

theorem Sound.modify {m : CollatedMap α} (h : m.Sound) (key : String) (change : α → α) :
    (m.modify key change).Sound := by
  unfold CollatedMap.modify
  refine h.updateBucket (fun entry hentry => ?_) ?_
  · have hkey := List.mem_map_of_mem (f := (·.1)) hentry
    rw [map_modifyEntry] at hkey
    obtain ⟨old, hold, hsame⟩ := List.mem_map.mp hkey
    rw [← hsame]
    exact h.bucket_placed hold
  · rw [map_modifyEntry]
    exact h.bucket_distinct _

/-- A key that the map has keeps its spelling, and its value is changed. -/
theorem toList_modify_of_entry? {m : CollatedMap α} (h : m.Sound) {key : String} (change : α → α)
    {found : String × α} (hfound : m.entry? key = some found) :
    ∃ rest, m.toList.Perm (found :: rest) ∧
      (m.modify key change).toList.Perm ((found.1, change found.2) :: rest) := by
  obtain ⟨others, hbefore, hafter⟩ := toList_updateBucket h key
  obtain ⟨rest, hold, hnew⟩ := modifyEntry_perm change hfound
  exact ⟨rest ++ others, hbefore.trans (hold.append_right others),
    (hafter _).trans (hnew.append_right others)⟩

/-- A bucket that is exchanged for itself stays where it is. -/
theorem withBucket_lookup {buckets : List (UInt64 × List (String × α))} {hash : UInt64}
    {entries : List (String × α)} (h : buckets.lookup hash = some entries) (hne : entries ≠ []) :
    withBucket buckets hash entries = buckets := by
  induction buckets with
  | nil => cases h
  | cons first rest ih =>
    rw [List.lookup_cons] at h
    unfold withBucket
    cases hhash : first.1 == hash with
    | true =>
      obtain rfl := beq_iff_eq.mp hhash
      rw [beq_self_eq_true] at h
      cases h
      simp [hne]
    | false =>
      have hother : (hash == first.1) = false := by
        rw [beq_eq_false_iff_ne] at hhash ⊢
        exact hhash.symm
      rw [hother] at h
      exact congrArg (first :: ·) (ih h)

theorem modifyEntry_of_find? {c : Collation} {key : String} {entries : List (String × α)}
    {found : String × α} (h : entries.find? (fun entry => c.equals entry.1 key) = some found) :
    modifyEntry c key (fun _ => found.2) entries = entries := by
  induction entries with
  | nil => cases h
  | cons entry later ih =>
    rw [List.find?_cons] at h
    unfold modifyEntry
    split at h
    · rename_i heq
      cases h
      rw [if_pos heq]
    · rename_i hne
      rw [if_neg (by simp [hne]), ih h]

/-- A value that is exchanged for itself leaves the map as it is. -/
theorem modify_of_get? {m : CollatedMap α} {key : String} {value : α}
    (h : m.get? key = some value) : m.modify key (fun _ => value) = m := by
  obtain ⟨found, hfound, rfl⟩ := Option.map_eq_some_iff.mp h
  unfold CollatedMap.modify updateBucket
  dsimp only
  have hentries : modifyEntry m.collation key (fun _ => found.2)
      (m.bucket (m.collation.hash key)) = m.bucket (m.collation.hash key) :=
    modifyEntry_of_find? hfound
  have hbucket : m.bucket (m.collation.hash key) ≠ [] := by
    intro hnil
    rw [CollatedMap.entry?, hnil] at hfound
    cases hfound
  have hlookup : m.buckets.lookup (m.collation.hash key) =
      some (m.bucket (m.collation.hash key)) := by
    unfold bucket at hbucket ⊢
    cases hb : m.buckets.lookup (m.collation.hash key) with
    | none => exact absurd (by rw [hb]; rfl) hbucket
    | some entries => rfl
  rw [hentries, withBucket_lookup hlookup hbucket]

/-- To change the value of a key that the map has is to insert the new value. -/
theorem modify_eq_insert {m : CollatedMap α} {key : String} {old : α} (h : m.get? key = some old)
    (value : α) : m.modify key (fun _ => value) = m.insert key value := by
  obtain ⟨found, hfound, -⟩ := Option.map_eq_some_iff.mp h
  rw [CollatedMap.insert, if_pos (by simp [contains, hfound])]

theorem modifyEntry_of_forall {c : Collation} {key : String} (change : α → α)
    {entries : List (String × α)} (h : ∀ entry ∈ entries, c.equals entry.1 key = false) :
    modifyEntry c key change entries = entries := by
  induction entries with
  | nil => rfl
  | cons entry rest ih =>
    obtain ⟨hentry, hrest⟩ := List.forall_mem_cons.mp h
    rw [modifyEntry, if_neg (by simp [hentry]), ih hrest]

/-- Where there is nothing to change, the entries stay. -/
theorem toList_modify_of_absent {m : CollatedMap α} (h : m.Sound) (hc : m.collation.Lawful)
    {key : String} (change : α → α) (habsent : m.entry? key = none) :
    (m.modify key change).toList.Perm m.toList := by
  obtain ⟨others, hbefore, hafter⟩ := toList_updateBucket h key
  have hbucket := hafter (modifyEntry m.collation key change)
  rw [modifyEntry_of_forall change fun entry hentry =>
    (entry?_eq_none_iff h hc).mp habsent entry (mem_toList_of_mem_bucket hentry)] at hbucket
  exact hbucket.trans hbefore.symm

theorem Sound.insert {m : CollatedMap α} (h : m.Sound) (hc : m.collation.Lawful) (key : String)
    (value : α) : (m.insert key value).Sound := by
  unfold CollatedMap.insert contains
  split
  · exact h.modify key _
  · rename_i hnone
    refine (h.updateBucket (fun entry hentry => ?_) ?_).recount _
    · rcases List.mem_append.mp hentry with hold | hnew
      · exact h.bucket_placed hold
      · rw [List.mem_singleton.mp hnew]
    · rw [List.map_append, List.pairwise_append]
      refine ⟨h.bucket_distinct _, List.pairwise_singleton _ _, fun s hs t ht => ?_⟩
      obtain ⟨entry, hentry, rfl⟩ := List.mem_map.mp hs
      obtain rfl : t = key := by simpa using ht
      have hentry? : m.entry? t = none := by simpa using hnone
      exact (entry?_eq_none_iff h hc).mp hentry? entry (mem_toList_of_mem_bucket hentry)

/-- A key that the map does not have yet adds an entry. -/
theorem toList_insert_of_absent {m : CollatedMap α} (h : m.Sound) {key : String} (value : α)
    (habsent : m.contains key = false) :
    (m.insert key value).toList.Perm ((key, value) :: m.toList) := by
  obtain ⟨rest, hbefore, hafter⟩ := toList_updateBucket h key
  rw [CollatedMap.insert, if_neg (by simp [habsent]), toList_recount]
  refine (hafter _).trans (.trans ?_ (hbefore.symm.cons _))
  rw [List.append_assoc]
  exact List.perm_middle

/-- A key that the map has keeps its spelling and gets the new value. -/
theorem toList_insert_of_entry? {m : CollatedMap α} (h : m.Sound) {key : String} (value : α)
    {found : String × α} (hfound : m.entry? key = some found) :
    ∃ rest, m.toList.Perm (found :: rest) ∧
      (m.insert key value).toList.Perm ((found.1, value) :: rest) := by
  rw [CollatedMap.insert, if_pos (by simp [contains, hfound])]
  exact toList_modify_of_entry? h (fun _ => value) hfound

/-- After an insertion there is one entry under the key, with the new value, and the entries under
other keys are what they were. -/
theorem mem_toList_insert {m : CollatedMap α} (h : m.Sound) (hc : m.collation.Lawful) (key : String)
    (value : α) :
    (∃ kept, m.collation.equals kept key = true ∧ (kept, value) ∈ (m.insert key value).toList) ∧
      ∀ entry, m.collation.equals entry.1 key = false →
        (entry ∈ (m.insert key value).toList ↔ entry ∈ m.toList) := by
  cases hfound : m.entry? key with
  | none =>
    have habsent : m.contains key = false := by simp [contains, hfound]
    have hperm := toList_insert_of_absent h value habsent
    refine ⟨⟨key, hc.refl key, hperm.mem_iff.mpr List.mem_cons_self⟩, fun entry hother => ?_⟩
    rw [hperm.mem_iff, List.mem_cons, or_iff_right]
    rintro rfl
    rw [hc.refl] at hother
    cases hother
  | some found =>
    obtain ⟨rest, hbefore, hafter⟩ := toList_insert_of_entry? h value hfound
    have hkey := equals_of_entry? hfound
    refine ⟨⟨found.1, hkey, hafter.mem_iff.mpr List.mem_cons_self⟩, fun entry hother => ?_⟩
    rw [hafter.mem_iff, hbefore.mem_iff, List.mem_cons, List.mem_cons, or_iff_right, or_iff_right]
    · rintro rfl
      rw [hkey] at hother
      cases hother
    · rintro rfl
      rw [hkey] at hother
      cases hother

/-- A key that has been inserted is found under all its spellings, and no other key is affected. -/
theorem get?_insert {m : CollatedMap α} (h : m.Sound) (hc : m.collation.Lawful) (key : String)
    (value : α) (key' : String) :
    (m.insert key value).get? key' =
      if m.collation.equals key' key then some value else m.get? key' := by
  have hsame := collation_insert m key value
  have hlawful : (m.insert key value).collation.Lawful := hsame ▸ hc
  obtain ⟨⟨kept, hkept, hmem⟩, hothers⟩ := mem_toList_insert h hc key value
  cases hkey : m.collation.equals key' key with
  | true =>
    rw [if_pos rfl, get?_eq_some_iff (h.insert hc key value) hlawful, hsame]
    exact ⟨_, hmem, hc.trans hkept (hc.symm hkey), rfl⟩
  | false =>
    have hother : ∀ entry : String × α, m.collation.equals entry.1 key' = true →
        m.collation.equals entry.1 key = false := by
      intro entry hentry
      rw [← Bool.not_eq_true]
      intro heq
      rw [hc.trans (hc.symm hentry) heq] at hkey
      cases hkey
    rw [if_neg Bool.false_ne_true]
    refine Option.ext fun v => ?_
    rw [get?_eq_some_iff (h.insert hc key value) hlawful, get?_eq_some_iff h hc, hsame]
    refine exists_congr fun entry => and_congr_left fun hentry => ?_
    exact hothers entry (hother entry hentry.1)

/-! ## Removing -/

theorem Sound.erase {m : CollatedMap α} (h : m.Sound) (key : String) : (m.erase key).Sound := by
  unfold CollatedMap.erase
  split
  · refine (h.updateBucket (fun entry hentry => ?_) ?_).recount _
    · exact h.bucket_placed (List.mem_of_mem_eraseP hentry)
    · exact (h.bucket_distinct _).sublist (List.eraseP_sublist.map _)
  · exact h

theorem collation_erase (m : CollatedMap α) (key : String) :
    (m.erase key).collation = m.collation := by
  unfold CollatedMap.erase
  split <;> rfl

/-- The first entry that has a property is removed, and no other. -/
theorem eraseP_perm {p : String × α → Bool} {entries : List (String × α)} {found : String × α}
    (h : entries.find? p = some found) : entries.Perm (found :: entries.eraseP p) := by
  induction entries with
  | nil => cases h
  | cons entry rest ih =>
    cases hentry : p entry with
    | true =>
      rw [List.find?_cons_of_pos hentry] at h
      cases h
      rw [List.eraseP_cons_of_pos hentry]
    | false =>
      rw [List.find?_cons_of_neg (by simp [hentry])] at h
      rw [List.eraseP_cons_of_neg (by simp [hentry])]
      exact ((ih h).cons entry).trans (.swap _ _ _)

/-- The entry of the key is removed, and no other. -/
theorem toList_erase_of_entry? {m : CollatedMap α} (h : m.Sound) {key : String}
    {found : String × α} (hfound : m.entry? key = some found) :
    m.toList.Perm (found :: (m.erase key).toList) := by
  obtain ⟨others, hbefore, hafter⟩ := toList_updateBucket h key
  rw [CollatedMap.erase, if_pos (by simp [contains, hfound]), toList_recount]
  refine hbefore.trans (((eraseP_perm hfound).append_right others).trans ?_)
  exact ((hafter _).cons found).symm

theorem erase_of_absent {m : CollatedMap α} {key : String} (habsent : m.entry? key = none) :
    m.erase key = m := by
  rw [CollatedMap.erase, if_neg (by simp [contains, habsent])]

end TransactSql.CollatedMap
