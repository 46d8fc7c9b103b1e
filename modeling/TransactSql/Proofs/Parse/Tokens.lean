/-
TransactSql.Proofs.Parse.Tokens — what is known of the tokens of a text.

What a reader answers can depend on the tokens that it is given. If all of
these have some property, `p.YieldsFrom tokens P` says that every answer
of `p` has the property `P`, and that the tokens it leaves behind have
theirs. The second half is what lets one reader follow another.

No reader of the grammar makes tokens up: each is built from requests, and
a request takes tokens or leaves them where they are. So the second half
holds for all of them at once (`StopsBefore.yieldsFrom`), and a proof about
a reader has to follow its definition only where answers matter.
-/
import TransactSql.Proofs.Parse.Requests

namespace TransactSql

/-- A token that is taken is one of those that were there, and the rest stay. -/
theorem Cursor.forall_mem_of_next {tokens : Token → Prop} {c c' : Cursor} {t : Token}
    (htokens : ∀ t ∈ c.tokens, tokens t) (h : c.next = (.ok (some t), c')) :
    tokens t ∧ ∀ t ∈ c'.tokens, tokens t := by
  obtain ⟨rest, fault, last⟩ := c
  cases rest with
  | nil => cases fault <;> cases h
  | cons first rest =>
    cases h
    exact List.forall_mem_cons.mp htokens

namespace Parse

variable {α β : Type} {tokens : Token → Prop}

/-- Read from tokens that have a property, every answer has one too, and the tokens behind it still
have theirs. -/
def YieldsFrom (tokens : Token → Prop) (p : Parse α) (P : α → Prop) : Prop :=
  ∀ c a c', (∀ t ∈ c.tokens, tokens t) → p.run c = (.ok a, c') → P a ∧ ∀ t ∈ c'.tokens, tokens t

theorem YieldsFrom.yields {p : Parse α} {P : α → Prop} (h : p.YieldsFrom (fun _ => True) P) :
    p.Yields P :=
  fun c a c' hrun => (h c a c' (fun _ _ => trivial) hrun).1

theorem Yields.yieldsFrom {p : Parse α} {P : α → Prop} (h : p.Yields P) :
    p.YieldsFrom (fun _ => True) P :=
  fun c a c' _ hrun => ⟨h c a c' hrun, fun _ _ => trivial⟩

theorem YieldsFrom.mono {p : Parse α} {P Q : α → Prop} (h : p.YieldsFrom tokens P)
    (himp : ∀ a, P a → Q a) : p.YieldsFrom tokens Q :=
  fun c a c' htokens hrun => (h c a c' htokens hrun).imp_left (himp a)

/-! ## Composed readers -/

theorem yieldsFrom_pure {a : α} {P : α → Prop} (h : P a) :
    (pure a : Parse α).YieldsFrom tokens P := by
  intro c b c' htokens hrun
  cases hrun
  exact ⟨h, htokens⟩

theorem yieldsFrom_fail (e : Error) (P : α → Prop) : (fail e : Parse α).YieldsFrom tokens P := by
  intro c a c' _ hrun
  cases hrun

/-- The second reader starts from what the first one leaves. -/
theorem YieldsFrom.bind {p : Parse α} {f : α → Parse β} {P : α → Prop} {Q : β → Prop}
    (hp : p.YieldsFrom tokens P) (hf : ∀ a, P a → (f a).YieldsFrom tokens Q) :
    (p >>= f).YieldsFrom tokens Q := by
  intro c b c' htokens hrun
  obtain ⟨a, c₁, hfirst, hsecond⟩ := run_bind_ok.mp hrun
  obtain ⟨ha, hrest⟩ := hp c a c₁ htokens hfirst
  exact hf a ha c₁ b c' hrest hsecond

theorem yieldsFrom_ite {P : α → Prop} {b : Bool} {p q : Parse α} (hp : p.YieldsFrom tokens P)
    (hq : q.YieldsFrom tokens P) : (if b then p else q).YieldsFrom tokens P := by
  cases b
  · exact hq
  · exact hp

theorem yieldsFrom_ofExcept {x : Except Error α} {P : α → Prop} (h : ∀ a, x = .ok a → P a) :
    (ofExcept x).YieldsFrom tokens P := by
  cases x with
  | error e => exact yieldsFrom_fail e P
  | ok a => exact yieldsFrom_pure (h a rfl)

/-! ## Requests -/

theorem yieldsFrom_expectNext : expectNext.YieldsFrom tokens tokens := by
  rintro ⟨rest, fault, last⟩ t c' htokens hrun
  cases rest with
  | nil => cases fault <;> cases hrun
  | cons first rest =>
    cases hrun
    exact List.forall_mem_cons.mp htokens

theorem yieldsFrom_peek : peek.YieldsFrom tokens fun _ => True := by
  rintro ⟨rest, fault, last⟩ t c' htokens hrun
  refine ⟨trivial, ?_⟩
  cases rest <;> cases fault <;> cases hrun <;> exact htokens

theorem yieldsFrom_peekIs (p : Token → Bool) : (peekIs p).YieldsFrom tokens fun _ => True :=
  yieldsFrom_peek.bind fun _ _ => yieldsFrom_pure trivial

theorem yieldsFrom_nextIf (p : Token → Bool) : (nextIf p).YieldsFrom tokens fun _ => True := by
  have hnext : next.YieldsFrom tokens fun _ => True := by
    rintro ⟨rest, fault, last⟩ t c' htokens hrun
    refine ⟨trivial, ?_⟩
    cases rest with
    | nil => cases fault <;> cases hrun; exact htokens
    | cons first rest =>
      cases hrun
      exact (List.forall_mem_cons.mp htokens).2
  exact (yieldsFrom_peekIs p).bind fun _ _ => yieldsFrom_ite hnext (yieldsFrom_pure trivial)

theorem yieldsFrom_consume (p : Token → Bool) : (consume p).YieldsFrom tokens fun _ => True :=
  (yieldsFrom_nextIf p).bind fun _ _ => yieldsFrom_pure trivial

theorem yieldsFrom_expect (p : Token → Bool) : (expect p).YieldsFrom tokens tokens :=
  yieldsFrom_expectNext.bind fun _ ht => yieldsFrom_ite (yieldsFrom_pure ht) (yieldsFrom_fail _ _)

theorem yieldsFrom_separatedNumbered {separator : Parse Bool} {item : Nat → Parse α} {P : α → Prop}
    (hseparator : separator.YieldsFrom tokens fun _ => True)
    (hitem : ∀ place, (item place).YieldsFrom tokens P) :
    (separatedNumbered separator item).YieldsFrom tokens fun xs => ∀ x ∈ xs.1 :: xs.2, P x := by
  have hrun : ∀ place c xs c', (∀ t ∈ c.tokens, tokens t) →
      runSeparated separator item place c = (.ok xs, c') →
        (∀ x ∈ xs.1 :: xs.2, P x) ∧ ∀ t ∈ c'.tokens, tokens t := by
    intro place c xs c' htokens hxs
    fun_induction runSeparated separator item place c generalizing xs with
    | case1 => cases hxs
    | case2 => cases hxs
    | case3 place c first c₁ hfirst _ hlast =>
      cases hxs
      obtain ⟨hP, hrest⟩ := hitem place c first c₁ htokens hfirst
      exact ⟨List.forall_mem_singleton.mpr hP, (hseparator c₁ _ _ hrest hlast).2⟩
    | case4 => cases hxs
    | case5 place c first c₁ hfirst c₂ hgoesOn _ more c₃ hmore ih =>
      cases hxs
      obtain ⟨hP, hrest⟩ := hitem place c first c₁ htokens hfirst
      obtain ⟨hmoreP, hend⟩ := ih more (hseparator c₁ _ _ hrest hgoesOn).2 hmore
      exact ⟨List.forall_mem_cons.mpr ⟨hP, hmoreP⟩, hend⟩
    | case6 place c first c₁ hfirst _ hgoesOn =>
      cases hxs
      obtain ⟨hP, hrest⟩ := hitem place c first c₁ htokens hfirst
      exact ⟨List.forall_mem_singleton.mpr hP, (hseparator c₁ _ _ hrest hgoesOn).2⟩
  exact fun c xs c' => hrun 0 c xs c'

/-- A reader that is built from requests makes no tokens up. -/
theorem StopsBefore.yieldsFrom {stop : Token → Prop} {p : Parse α} (h : StopsBefore stop p) :
    p.YieldsFrom tokens fun _ => True := by
  induction h with
  | answer a => exact yieldsFrom_pure trivial
  | fail e => exact yieldsFrom_fail e _
  | bind _ _ ihp ihf => exact ihp.bind fun a _ => ihf a
  | expectNext _ _ ihf => exact yieldsFrom_expectNext.bind fun t _ => ihf t
  | nextIf _ _ _ _ ihf => exact (yieldsFrom_nextIf _).bind fun t _ => ihf t
  | peek _ _ _ _ ihf => exact yieldsFrom_peek.bind fun t _ => ihf t
  | separatedNumbered _ _ ihseparator ihitem =>
    exact (yieldsFrom_separatedNumbered ihseparator ihitem).mono fun _ _ => trivial
  | comparison _ =>
    have hadjacent : ∀ t symbol, (consumeAdjacent t symbol).YieldsFrom tokens fun _ => True :=
      fun _ _ => yieldsFrom_consume _
    refine yieldsFrom_expectNext.bind fun t _ => ?_
    split
    · exact yieldsFrom_pure trivial
    · refine (hadjacent t _).bind fun _ _ => yieldsFrom_ite (yieldsFrom_pure trivial) ?_
      exact (hadjacent t _).bind fun _ _ =>
        yieldsFrom_ite (yieldsFrom_pure trivial) (yieldsFrom_pure trivial)
    · exact (hadjacent t _).bind fun _ _ =>
        yieldsFrom_ite (yieldsFrom_pure trivial) (yieldsFrom_pure trivial)
    · refine (hadjacent t _).bind fun _ _ => yieldsFrom_ite (yieldsFrom_pure trivial) ?_
      refine (hadjacent t _).bind fun _ _ => yieldsFrom_ite (yieldsFrom_pure trivial) ?_
      exact (hadjacent t _).bind fun _ _ =>
        yieldsFrom_ite (yieldsFrom_pure trivial) (yieldsFrom_fail _ _)
    · exact yieldsFrom_fail _ _

/-- Nothing needs to be known of the answer of a reader that is built from requests. -/
theorem StopsBefore.bindFrom {stop : Token → Prop} {p : Parse α} (h : StopsBefore stop p)
    {f : α → Parse β} {Q : β → Prop} (hf : ∀ a, (f a).YieldsFrom tokens Q) :
    (p >>= f).YieldsFrom tokens Q :=
  h.yieldsFrom.bind fun a _ => hf a

theorem yieldsFrom_commaSeparated {item : Parse α} {P : α → Prop} (h : item.YieldsFrom tokens P) :
    (commaSeparated item).YieldsFrom tokens fun xs => xs ≠ [] ∧ ∀ x ∈ xs, P x :=
  (yieldsFrom_separatedNumbered (yieldsFrom_consume _) fun _ => h).bind fun _ hxs =>
    yieldsFrom_pure ⟨List.cons_ne_nil _ _, hxs⟩

end Parse
end TransactSql
