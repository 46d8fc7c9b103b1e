/-
TransactSql.Proofs.Parse.Following — what follows does not matter.

A reader that answers has taken some tokens and has looked at the next
one at most. So it takes the same tokens and answers the same if other
tokens follow them: any that begin with the same token, and any that
begin with a token before which the reader stops (`ignoresRest`).

The proof is an induction over the requests that a reader is built from.
-/
import TransactSql.Proofs.Parse.Grammar

namespace TransactSql.Parse

variable {α β : Type} {stop : Token → Prop}

/-- From wherever the reader answers, it has taken the first of the tokens. It takes them and
answers the same before every token in `stop`, and before the token that follows them here. -/
def IgnoresRest (stop : Token → Prop) (p : Parse α) : Prop :=
  ∀ c a c', p.run c = (.ok a, c') → ∃ taken, c.tokens = taken ++ c'.tokens ∧
    ∀ next more fault, stop next ∨ c'.tokens.head? = some next →
      p.run ⟨taken ++ next :: more, fault, c.lastLiteral⟩ =
        (.ok a, ⟨next :: more, fault, c'.lastLiteral⟩)

/-- Other tokens that follow the ones that are taken begin, together with these, with a token in
`stop` or with the token that was there. -/
theorem head_of_taken {tokens rest taken : List Token} {next : Token}
    (htaken : tokens = taken ++ rest) (hnext : stop next ∨ rest.head? = some next)
    (more : List Token) : ∃ first others, taken ++ next :: more = first :: others ∧
      (stop first ∨ tokens.head? = some first) := by
  subst htaken
  cases taken with
  | nil => exact ⟨next, more, rfl, hnext⟩
  | cons first taken => exact ⟨first, taken ++ next :: more, rfl, .inr rfl⟩

/-! ## The requests -/

theorem ignoresRest_pure (a : α) : IgnoresRest stop (pure a : Parse α) := by
  intro c b c' h
  cases h
  exact ⟨[], rfl, fun _ _ _ _ => rfl⟩

theorem ignoresRest_fail (e : Error) : IgnoresRest stop (fail e : Parse α) := by
  intro c b c' h
  cases h

theorem ignoresRest_bind {p : Parse α} {f : α → Parse β} (hp : IgnoresRest stop p)
    (hf : ∀ a, IgnoresRest stop (f a)) : IgnoresRest stop (p >>= f) := by
  intro c b c' h
  obtain ⟨a, c₁, hfirst, hsecond⟩ := run_bind_ok.mp h
  obtain ⟨taken₁, htokens₁, hrun₁⟩ := hp c a c₁ hfirst
  obtain ⟨taken₂, htokens₂, hrun₂⟩ := hf a c₁ b c' hsecond
  refine ⟨taken₁ ++ taken₂, by rw [htokens₁, htokens₂, List.append_assoc], ?_⟩
  intro next more fault hnext
  obtain ⟨first, others, hothers, hhead⟩ := head_of_taken htokens₂ hnext more
  refine run_bind_ok.mpr ⟨a, ⟨first :: others, fault, c₁.lastLiteral⟩, ?_, ?_⟩
  · rw [List.append_assoc, hothers]
    exact hrun₁ first others fault hhead
  · rw [← hothers]
    exact hrun₂ next more fault hnext

theorem ignoresRest_ite {b : Bool} {p q : Parse α} (hp : IgnoresRest stop p)
    (hq : IgnoresRest stop q) : IgnoresRest stop (if b then p else q) := by
  cases b
  · exact hq
  · exact hp

theorem ignoresRest_expectNext {f : Token → Parse β} (hf : ∀ t, IgnoresRest stop (f t)) :
    IgnoresRest stop (expectNext >>= f) := by
  rintro ⟨tokens, fault, last⟩ b c' h
  cases tokens with
  | nil => cases fault <;> cases h
  | cons t tokens =>
    obtain ⟨taken, htokens, hrun⟩ := hf t _ b c' h
    refine ⟨t :: taken, congrArg (t :: ·) htokens, fun next more fault hnext => ?_⟩
    rw [List.cons_append, run_expectNext_bind]
    exact hrun next more fault hnext

theorem ignoresRest_nextIf {p : Token → Bool} {f : Option Token → Parse β}
    (hstop : ∀ t, stop t → p t = false) (hf : ∀ t, IgnoresRest stop (f t)) :
    IgnoresRest stop (nextIf p >>= f) := by
  -- a token that is not taken may be exchanged for another one that is not taken
  have hnone : ∀ c b c', (∀ t, c.tokens.head? = some t → p t = false) →
      (f none).run c = (.ok b, c') → ∃ taken, c.tokens = taken ++ c'.tokens ∧
        ∀ next more fault, stop next ∨ c'.tokens.head? = some next →
          (nextIf p >>= f).run ⟨taken ++ next :: more, fault, c.lastLiteral⟩ =
            (.ok b, ⟨next :: more, fault, c'.lastLiteral⟩) := by
    intro c b c' hhead h
    obtain ⟨taken, htokens, hrun⟩ := hf none c b c' h
    refine ⟨taken, htokens, fun next more fault hnext => ?_⟩
    have hrun := hrun next more fault hnext
    obtain ⟨first, others, hothers, hfirst⟩ := head_of_taken htokens hnext more
    have hp : p first = false := hfirst.elim (hstop first) (hhead first)
    rw [hothers] at hrun ⊢
    rw [run_nextIf_bind, if_neg (by simp [hp])]
    exact hrun
  rintro ⟨tokens, fault, last⟩ b c' h
  cases tokens with
  | nil =>
    cases fault with
    | some e => cases h
    | none => exact hnone _ b c' nofun h
  | cons t tokens =>
    rw [run_nextIf_bind] at h
    split at h
    · next hp =>
      obtain ⟨taken, htokens, hrun⟩ := hf (some t) _ b c' h
      refine ⟨t :: taken, congrArg (t :: ·) htokens, fun next more fault hnext => ?_⟩
      rw [List.cons_append, run_nextIf_bind, if_pos hp]
      exact hrun next more fault hnext
    · next hp =>
      refine hnone _ b c' (fun u hu => ?_) h
      cases hu
      simpa using hp

theorem ignoresRest_peek {f : Option Token → Parse β} (hstop : ∀ t, stop t → f (some t) = f none)
    (hbusy : ∀ t, f (some t) = f none ∨ (f (some t)).Consumes)
    (hf : ∀ t, IgnoresRest stop (f t)) : IgnoresRest stop (peek >>= f) := by
  rintro ⟨tokens, fault, last⟩ b c' h
  cases tokens with
  | nil =>
    cases fault with
    | some e => cases h
    | none =>
      obtain ⟨taken, htokens, hrun⟩ := hf none _ b c' h
      obtain ⟨rfl, hempty⟩ := List.append_eq_nil_iff.mp htokens.symm
      refine ⟨[], htokens, fun next more fault hnext => ?_⟩
      have hstopped : stop next := hnext.resolve_right (by simp [hempty])
      rw [List.nil_append, run_peek_bind, hstop next hstopped]
      exact hrun next more fault hnext
  | cons t tokens =>
    rw [run_peek_bind] at h
    obtain ⟨taken, htokens, hrun⟩ := hf (some t) _ b c' h
    refine ⟨taken, htokens, fun next more fault hnext => ?_⟩
    have hrun := hrun next more fault hnext
    cases taken with
    | cons u taken =>
      cases htokens
      exact hrun
    | nil =>
      rw [List.nil_append] at htokens
      rw [List.nil_append, run_peek_bind]
      rcases hnext with hnext | hnext
      · -- nothing was taken, so looking at the token made no difference
        have hsame : f (some t) = f none := by
          refine (hbusy t).resolve_right fun hconsumes => ?_
          have hless := hconsumes _ b c' h
          simp [Cursor.remaining, ← htokens] at hless
        rw [hstop next hnext, ← hsame]
        exact hrun
      · rw [← htokens] at hnext
        cases hnext
        exact hrun

theorem ignoresRest_separatedNumbered {separator : Parse Bool} {item : Nat → Parse α}
    (hseparator : IgnoresRest stop separator) (hitem : ∀ place, IgnoresRest stop (item place)) :
    IgnoresRest stop (separatedNumbered separator item) := by
  suffices h : ∀ place c xs c', runSeparated separator item place c = (.ok xs, c') →
      ∃ taken, c.tokens = taken ++ c'.tokens ∧
        ∀ next more fault, stop next ∨ c'.tokens.head? = some next →
          runSeparated separator item place ⟨taken ++ next :: more, fault, c.lastLiteral⟩ =
            (.ok xs, ⟨next :: more, fault, c'.lastLiteral⟩) from h 0
  have hround : ∀ place, IgnoresRest stop (round separator (item place)) := fun place =>
    ignoresRest_bind (hitem place) fun _ => ignoresRest_bind hseparator fun _ => ignoresRest_pure _
  intro place c
  induction hn : c.remaining using Nat.strongRecOn generalizing place c with
  | ind n ih =>
    intro xs c' h
    rw [runSeparated_eq] at h
    rcases hfirst : (round separator (item place)).run c with ⟨_ | ⟨first, goesOn⟩, c₁⟩
    · rw [hfirst] at h
      cases h
    obtain ⟨taken₁, htokens₁, hrun₁⟩ := hround place c _ c₁ hfirst
    -- a round takes a token here if it takes one there
    have htaken : ∀ next more fault,
        (Cursor.remaining ⟨next :: more, fault, c₁.lastLiteral⟩ <
          Cursor.remaining ⟨taken₁ ++ next :: more, fault, c.lastLiteral⟩) ↔
        c₁.remaining < c.remaining := by
      intro next more fault
      simp [Cursor.remaining, htokens₁]
    simp only [hfirst] at h
    split at h
    · next hgoesOn =>
      rcases hsecond : runSeparated separator item (place + 1) c₁ with ⟨_ | rest, c₂⟩
      · rw [hsecond] at h
        cases h
      rw [hsecond] at h
      cases h
      obtain ⟨taken₂, htokens₂, hrun₂⟩ := ih _ (hn ▸ hgoesOn.2) (place + 1) c₁ rfl _ _ hsecond
      refine ⟨taken₁ ++ taken₂, by rw [htokens₁, htokens₂, List.append_assoc], ?_⟩
      intro next more fault hnext
      obtain ⟨t, others, hothers, hhead⟩ := head_of_taken htokens₂ hnext more
      have hrun₂ := hrun₂ next more fault hnext
      rw [hothers] at hrun₂
      rw [runSeparated_eq, List.append_assoc, hothers, hrun₁ t others fault hhead]
      simp only [htaken, if_pos hgoesOn, hrun₂]
    · next hends =>
      cases h
      refine ⟨taken₁, htokens₁, fun next more fault hnext => ?_⟩
      rw [runSeparated_eq, hrun₁ next more fault hnext]
      simp only [htaken, if_neg hends]

theorem ignoresRest_consumeAdjacent (hstop : ∀ t, stop t → ∀ symbol, t.isOperator symbol = false)
    (previous : Token) (symbol : Char) : IgnoresRest stop (consumeAdjacent previous symbol) := by
  refine ignoresRest_nextIf (fun t ht => ?_) fun _ => ignoresRest_pure _
  rw [hstop t ht, Bool.false_and]

theorem ignoresRest_readOperator (hstop : ∀ t, stop t → ∀ symbol, t.isOperator symbol = false) :
    IgnoresRest stop Predicate.readOperator := by
  have hadjacent := ignoresRest_consumeAdjacent hstop
  refine ignoresRest_expectNext fun t => ?_
  split
  · exact ignoresRest_pure _
  · refine ignoresRest_bind (hadjacent t '>') fun _ => ignoresRest_ite (ignoresRest_pure _) ?_
    exact ignoresRest_bind (hadjacent t '=') fun _ =>
      ignoresRest_ite (ignoresRest_pure _) (ignoresRest_pure _)
  · exact ignoresRest_bind (hadjacent t '=') fun _ =>
      ignoresRest_ite (ignoresRest_pure _) (ignoresRest_pure _)
  · refine ignoresRest_bind (hadjacent t '=') fun _ => ignoresRest_ite (ignoresRest_pure _) ?_
    refine ignoresRest_bind (hadjacent t '<') fun _ => ignoresRest_ite (ignoresRest_pure _) ?_
    exact ignoresRest_bind (hadjacent t '>') fun _ =>
      ignoresRest_ite (ignoresRest_pure _) (ignoresRest_fail _)
  · exact ignoresRest_fail _

/-! ## Every reader -/

/-- A reader that is built from requests takes the same tokens whatever follows them. -/
theorem StopsBefore.ignoresRest {p : Parse α} (h : StopsBefore stop p) : IgnoresRest stop p := by
  induction h with
  | answer a => exact ignoresRest_pure a
  | fail e => exact ignoresRest_fail e
  | bind _ _ ihp ihf => exact ignoresRest_bind ihp ihf
  | expectNext _ _ ihf => exact ignoresRest_expectNext ihf
  | nextIf _ _ hstop _ ihf => exact ignoresRest_nextIf hstop ihf
  | peek _ hstop hbusy _ ihf => exact ignoresRest_peek hstop hbusy ihf
  | separatedNumbered _ _ ihseparator ihitem =>
    exact ignoresRest_separatedNumbered ihseparator ihitem
  | comparison hstop => exact ignoresRest_readOperator hstop

end TransactSql.Parse
