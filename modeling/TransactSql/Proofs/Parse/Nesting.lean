/-
TransactSql.Proofs.Parse.Nesting — readers with a limit on the nesting.

Such a reader is a family: one reader for each number of levels that are
left. `Needs p depth c a c'` says how the family depends on that number.
With `depth` levels or more, all of its readers answer the same; with
fewer, they fail, and for that reason. There is one lemma for each way to
build a family. A part that is no family takes no levels, a reader that
hands on one level less takes one more, and of two readers one after the
other each has all the levels.

The depth of a text is defined without readers that fail: by a relation
between a depth, the cursor where the text begins, what it stands for,
and the cursor where it ends. `Measures p R` says that the family follows
the relation: what is read is related, and what is related at some depth
is read with so many levels, and no fewer.
-/
import TransactSql.Proofs.Parse.Requests

namespace TransactSql.Parse

variable {α β : Type}

/-! ## The levels that are needed -/

/-- From this cursor so many levels are needed for this answer: with fewer the readers fail. -/
structure Needs (p : (levels : Nat) → Parse α) (depth : Nat) (c : Cursor) (a : α) (c' : Cursor) :
    Prop where
  run_eq : ∀ levels, depth ≤ levels → (p levels).run c = (.ok a, c')
  fails : ∀ levels, levels < depth → ((p levels).run c).1 = .error .nestedTooDeeply

variable {p : Nat → Parse α} {f : Nat → α → Parse β} {depth depth' levels : Nat}
  {c c' c₁ : Cursor} {a : α} {b : β}

/-- The readers fail for lack of levels exactly where there are fewer than are needed. -/
theorem Needs.fails_iff (h : Needs p depth c a c') (levels : Nat) :
    ((p levels).run c).1 = .error .nestedTooDeeply ↔ levels < depth := by
  refine ⟨fun hfails => Nat.lt_of_not_le fun hle => ?_, h.fails levels⟩
  rw [h.run_eq levels hle] at hfails
  cases hfails

/-- An answer shows that there are levels enough. -/
theorem Needs.le_of_run {a' : α} {c'' : Cursor} (h : Needs p depth c a c')
    (hrun : (p levels).run c = (.ok a', c'')) : depth ≤ levels := by
  refine Nat.le_of_not_lt fun hlt => ?_
  have hfails := h.fails levels hlt
  rw [hrun] at hfails
  cases hfails

/-- Of one text only one number of levels is right. -/
theorem Needs.depth_unique {a' : α} {c'' : Cursor} (h : Needs p depth c a c')
    (h' : Needs p depth' c a' c'') : depth' = depth :=
  Nat.le_antisymm (h'.le_of_run (h.run_eq depth (Nat.le_refl _)))
    (h.le_of_run (h'.run_eq depth' (Nat.le_refl _)))

/-! ## Building families -/

/-- Readers for which the limit makes no difference here need no level. -/
theorem needs_of_run (h : ∀ n, (p n).run c = (.ok a, c')) : Needs p 0 c a c' :=
  ⟨fun n _ => h n, fun _ hlt => absurd hlt (Nat.not_lt_zero _)⟩

theorem run_bind_error {q : Parse α} {g : α → Parse β} {e : Error} (h : (q.run c).1 = .error e) :
    ((q >>= g).run c).1 = .error e := by
  rw [run_bind]
  rcases hrun : q.run c with ⟨e' | a, c₂⟩
  · rw [hrun] at h
    cases h
    rfl
  · rw [hrun] at h
    cases h

/-- Two families one after the other need what the deeper one needs. -/
theorem Needs.bind (hp : Needs p depth c a c₁) (hf : Needs (fun n => f n a) depth' c₁ b c') :
    Needs (fun n => p n >>= f n) (max depth depth') c b c' where
  run_eq levels hle := by
    rw [run_bind, hp.run_eq levels (Nat.le_trans (Nat.le_max_left _ _) hle)]
    exact hf.run_eq levels (Nat.le_trans (Nat.le_max_right _ _) hle)
  fails levels hlt := by
    -- Either the first family lacks levels, or it answers and the second one lacks them.
    by_cases hfirst : levels < depth
    · exact run_bind_error (hp.fails levels hfirst)
    · rw [run_bind, hp.run_eq levels (Nat.le_of_not_lt hfirst)]
      exact hf.fails levels (by omega)

/-- A family that begins with such readers. -/
theorem Needs.after (hp : ∀ n, (p n).run c = (.ok a, c₁))
    (hf : Needs (fun n => f n a) depth c₁ b c') : Needs (fun n => p n >>= f n) depth c b c' := by
  have hboth := (needs_of_run hp).bind hf
  rwa [Nat.zero_max] at hboth

/-- A family that ends with such readers. -/
theorem Needs.before (hp : Needs p depth c a c₁) (hf : ∀ n, (f n a).run c₁ = (.ok b, c')) :
    Needs (fun n => p n >>= f n) depth c b c' := by
  have hboth := hp.bind (needs_of_run hf)
  rwa [Nat.max_zero] at hboth

/-- A family whose readers hand on one level less, and fail if they have none. -/
theorem Needs.succ {q : Nat → Parse α} (hp : Needs p depth c a c')
    (hzero : q 0 = fail .nestedTooDeeply) (hsucc : ∀ n, q (n + 1) = p n) :
    Needs q (depth + 1) c a c' where
  run_eq levels hle := by
    obtain ⟨n, rfl⟩ := Nat.exists_eq_add_of_le' hle
    rw [← Nat.add_assoc, hsucc]
    exact hp.run_eq _ (Nat.le_add_left _ _)
  fails levels hlt := by
    cases levels with
    | zero => rw [hzero, run_fail]
    | succ n =>
      rw [hsucc]
      exact hp.fails n (Nat.lt_of_succ_lt_succ hlt)

/-! ## Measured families -/

/-- What is read is related, at some depth. -/
def Finds (q : Parse α) (R : (depth : Nat) → Cursor → α → Cursor → Prop) : Prop :=
  ∀ {c a c'}, q.run c = (.ok a, c') → ∃ depth, R depth c a c'

/-- A family of readers follows a relation of depths, texts and their meanings. -/
structure Measures (p : (levels : Nat) → Parse α)
    (R : (depth : Nat) → Cursor → α → Cursor → Prop) : Prop where
  needs : ∀ {depth c a c'}, R depth c a c' → Needs p depth c a c'
  finds : ∀ levels, Finds (p levels) R

variable {R : Nat → Cursor → α → Cursor → Prop}

/-- What is read with some levels is at most so deep. -/
theorem Measures.exists_le (h : Measures p R) (hrun : (p levels).run c = (.ok a, c')) :
    ∃ depth ≤ levels, R depth c a c' := by
  obtain ⟨depth, hR⟩ := h.finds levels hrun
  exact ⟨depth, (h.needs hR).le_of_run hrun, hR⟩

/-- Whatever is read with some number of levels has one depth. With any other number of levels the
readers fail for lack of levels if the text is deeper, and otherwise answer the same. -/
theorem Measures.limit_exact (h : Measures p R) (hrun : (p levels).run c = (.ok a, c'))
    (limit : Nat) :
    ∃ depth, (∀ d, R d c a c' ↔ d = depth) ∧
      (((p limit).run c).1 = .error .nestedTooDeeply ↔ limit < depth) ∧
      (depth ≤ limit → (p limit).run c = (.ok a, c')) := by
  obtain ⟨depth, hR⟩ := h.finds levels hrun
  have hneeds := h.needs hR
  refine ⟨depth, fun d => ⟨fun hd => hneeds.depth_unique (h.needs hd), ?_⟩,
    hneeds.fails_iff limit, hneeds.run_eq limit⟩
  rintro rfl
  exact hR

/-! ## Sequences -/

/-- Where the separator is found, a token is taken. -/
def Separates (separator : Parse Bool) : Prop :=
  ∀ c c', separator.run c = (.ok true, c') → c'.remaining < c.remaining

theorem separates_consume (q : Token → Bool) : Separates (consume q) := by
  rintro ⟨tokens, fault, last⟩ c' h
  unfold consume at h
  cases tokens with
  | nil => cases fault <;> cases h
  | cons t rest =>
    rw [run_nextIf_bind] at h
    split at h <;> cases h
    exact Nat.lt_succ_self _

/-- The number of items that came before makes no difference if no item depends on it. -/
theorem runSeparated_place (separator : Parse Bool) (item : Parse α) (place place' : Nat)
    (c : Cursor) : runSeparated separator (fun _ => item) place c =
      runSeparated separator (fun _ => item) place' c := by
  induction hn : c.remaining using Nat.strongRecOn generalizing place place' c with
  | ind n ih =>
    rw [runSeparated_eq separator _ place, runSeparated_eq separator _ place']
    rcases (round separator item).run c with ⟨e | ⟨first, goesOn⟩, c₁⟩
    · rfl
    · dsimp only
      split
      · next hgoesOn => rw [ih _ (hn ▸ hgoesOn.2) (place + 1) (place' + 1) c₁ rfl]
      · rfl

/-- A sequence is an item, and a further sequence if a separator comes next. -/
theorem separated_eq {separator : Parse Bool} (hseparator : Separates separator)
    (item : Parse α) :
    separated separator item = item >>= fun first => separator >>= fun goesOn =>
      if goesOn then separated separator item >>= fun more => pure (first, more.1 :: more.2)
      else pure (first, []) := by
  refine ext fun c => ?_
  show runSeparated separator (fun _ => item) 0 c = _
  rw [runSeparated, run_bind]
  have hle := item.remaining_run_le c
  rcases hitem : item.run c with ⟨e | first, c₁⟩
  · rfl
  rw [hitem] at hle
  dsimp only
  rw [run_bind]
  rcases hgoesOn : separator.run c₁ with ⟨e | goesOn, c₂⟩
  · rfl
  cases goesOn with
  | false => rfl
  | true =>
    have hless : c₂.remaining < c.remaining :=
      Nat.lt_of_lt_of_le (hseparator c₁ c₂ hgoesOn) hle
    dsimp only
    -- The loop goes on at place 1, and the further sequence begins at place 0.
    rw [if_pos hless, runSeparated_place separator item (0 + 1) 0, if_pos rfl, run_bind]
    have hmore : (separated separator item).run c₂ =
        runSeparated separator (fun _ => item) 0 c₂ := rfl
    rw [hmore]
    rcases runSeparated separator (fun _ => item) 0 c₂ with ⟨e | more, c₃⟩ <;> rfl

/-- Items with separators between them; the sequence is as deep as its deepest item. -/
inductive SeparatedAt (separator : Parse Bool) (R : (depth : Nat) → Cursor → α → Cursor → Prop) :
    (depth : Nat) → Cursor → α × List α → Cursor → Prop
  | last {depth : Nat} {c c₁ c' : Cursor} {a : α} (hitem : R depth c a c₁)
      (hend : separator.run c₁ = (.ok false, c')) : SeparatedAt separator R depth c (a, []) c'
  | more {depth depth' : Nat} {c c₁ c₂ c' : Cursor} {a : α} {others : α × List α}
      (hitem : R depth c a c₁) (hseparator : separator.run c₁ = (.ok true, c₂))
      (hmore : SeparatedAt separator R depth' c₂ others c') :
      SeparatedAt separator R (max depth depth') c (a, others.1 :: others.2) c'

/-- Every item stands somewhere in the sequence, and is not deeper than the sequence. -/
theorem SeparatedAt.exists_le {separator : Parse Bool} {xs : α × List α}
    (h : SeparatedAt separator R depth c xs c') :
    ∀ x ∈ xs.1 :: xs.2, ∃ d ≤ depth, ∃ c₁ c₂, R d c₁ x c₂ := by
  induction h with
  | last hitem _ =>
    intro x hx
    rw [List.mem_singleton.mp hx]
    exact ⟨_, Nat.le_refl _, _, _, hitem⟩
  | more hitem _ _ ih =>
    intro x hx
    rcases List.mem_cons.mp hx with rfl | hx
    · exact ⟨_, Nat.le_max_left _ _, _, _, hitem⟩
    · obtain ⟨d, hd, hx⟩ := ih x hx
      exact ⟨d, Nat.le_trans hd (Nat.le_max_right _ _), hx⟩

/-- What holds of each item where it stands is taken over by the sequence. -/
theorem SeparatedAt.map {S : Nat → Cursor → β → Cursor → Prop} {separator : Parse Bool}
    {xs : α × List α} (h : SeparatedAt separator R depth c xs c') (g : α → β)
    (hitem : ∀ {depth c a c'}, R depth c a c' → S depth c (g a) c') :
    SeparatedAt separator S depth c (g xs.1, xs.2.map g) c' := by
  induction h with
  | last ha hend => exact .last (hitem ha) hend
  | more ha hseparator _ ih => exact .more (hitem ha) hseparator ih

theorem SeparatedAt.needs {separator : Parse Bool} (hseparator : Separates separator)
    (hp : ∀ {depth c a c'}, R depth c a c' → Needs p depth c a c') {xs : α × List α}
    (h : SeparatedAt separator R depth c xs c') :
    Needs (fun n => separated separator (p n)) depth c xs c' := by
  -- Unrolled as a family; under the binder the equation could be used again and again.
  have hfamily := funext fun n => separated_eq hseparator (p n)
  induction h with
  | last hitem hend =>
    rw [hfamily]
    exact (hp hitem).before fun _ => run_bind_ok.mpr ⟨false, _, hend, rfl⟩
  | more hitem hgoesOn _ ih =>
    rw [hfamily]
    exact (hp hitem).bind (.after (fun _ => hgoesOn) (ih.before fun _ => rfl))

theorem finds_separated {separator : Parse Bool} (hseparator : Separates separator) {q : Parse α}
    (hq : Finds q R) : Finds (separated separator q) (SeparatedAt separator R) := by
  intro c xs c' h
  induction hn : c.remaining using Nat.strongRecOn generalizing c xs with
  | ind n ih =>
    rw [separated_eq hseparator] at h
    obtain ⟨first, c₁, hitem, h⟩ := run_bind_ok.mp h
    obtain ⟨goesOn, c₂, hgoesOn, h⟩ := run_bind_ok.mp h
    obtain ⟨depth, hR⟩ := hq hitem
    cases goesOn with
    | false =>
      cases h
      exact ⟨depth, .last hR hgoesOn⟩
    | true =>
      obtain ⟨more, c₃, hmore, h⟩ := run_bind_ok.mp h
      cases h
      have hle := q.remaining_run_le c
      rw [hitem] at hle
      have hlt : c₂.remaining < n := hn ▸ Nat.lt_of_lt_of_le (hseparator c₁ c₂ hgoesOn) hle
      obtain ⟨depth', hmore⟩ := ih _ hlt hmore rfl
      exact ⟨_, .more hR hgoesOn hmore⟩

theorem measures_separated {separator : Parse Bool} (hseparator : Separates separator)
    (hp : Measures p R) :
    Measures (fun n => separated separator (p n)) (SeparatedAt separator R) :=
  ⟨fun h => h.needs hseparator hp.needs, fun levels => finds_separated hseparator (hp.finds levels)⟩

/-- A family whose answers are only put into another form. -/
theorem Measures.map (h : Measures p R) (g : α → β) :
    Measures (fun n => p n >>= fun a => pure (g a))
      (fun depth c b c' => ∃ a, R depth c a c' ∧ g a = b) where
  needs := by
    rintro depth c b c' ⟨a, hR, rfl⟩
    exact (h.needs hR).before fun _ => rfl
  finds := by
    intro levels c b c' hrun
    obtain ⟨a, c₁, hrun, hpure⟩ := run_bind_ok.mp hrun
    cases hpure
    obtain ⟨depth, hR⟩ := h.finds levels hrun
    exact ⟨depth, a, hR, rfl⟩

/-- Items with commas between them. -/
def CommaSeparatedAt (R : (depth : Nat) → Cursor → α → Cursor → Prop) (depth : Nat) (c : Cursor)
    (xs : List α) (c' : Cursor) : Prop :=
  ∃ items, SeparatedAt (consumeKind .comma) R depth c items c' ∧ items.1 :: items.2 = xs

theorem measures_commaSeparated (h : Measures p R) :
    Measures (fun n => commaSeparated (p n)) (CommaSeparatedAt R) :=
  (measures_separated (separates_consume _) h).map _

end TransactSql.Parse
