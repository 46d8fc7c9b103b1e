/-
TransactSql.Proofs.Parse.Layout — the layout of a text does not matter.

Two sequences of tokens that say the same may stand in texts of
different layout. The layout can be seen in one place only: whether two
characters that are operators follow each other without a gap. Where the
sequences agree on that as well, no reader of the grammar tells them
apart (`ignoresLayout`): it answers the same, or fails with the same
error, and leaves the same tokens behind.

The proof is an induction over the requests that a reader is built from.
The comparison operator is the one request that looks at places.
-/
import TransactSql.Proofs.Parse.Grammar

namespace TransactSql

/-! ## The same tokens in another layout -/

/-- The token is an operator, or one character of it. -/
def Token.isSymbol (t : Token) : Bool :=
  match t.kind with
  | .operator _ => true
  | _ => false

/-- The second token follows the first without a gap. -/
def Token.Touches (t u : Token) : Prop := u.position = t.stop

/-- The tokens say the same, and the same neighbours among the operators touch each other. -/
structure SameTokens (left right : List Token) : Prop where
  meanings : left.map Token.meaning = right.map Token.meaning
  gaps : ∀ i t t' u u', left[i]? = some t → left[i + 1]? = some t' →
    right[i]? = some u → right[i + 1]? = some u' →
    t.isSymbol → t'.isSymbol → (t.Touches t' ↔ u.Touches u')

namespace SameTokens

variable {t u t' u' : Token} {left right : List Token}

theorem meaning_eq (h : SameTokens (t :: left) (u :: right)) : t.meaning = u.meaning :=
  (List.cons.inj h.meanings).1

theorem tail (h : SameTokens (t :: left) (u :: right)) : SameTokens left right :=
  ⟨(List.cons.inj h.meanings).2, fun i => h.gaps (i + 1)⟩

theorem touches_iff (h : SameTokens (t :: t' :: left) (u :: u' :: right)) (ht : t.isSymbol)
    (ht' : t'.isSymbol) : t.Touches t' ↔ u.Touches u' :=
  h.gaps 0 t t' u u' rfl rfl rfl rfl ht ht'

theorem nil : SameTokens [] [] := by
  refine ⟨rfl, fun i t t' u u' h => ?_⟩
  simp at h

theorem cons (hmeaning : t.meaning = u.meaning)
    (htouches : ∀ t' ∈ left.head?, ∀ u' ∈ right.head?, t.isSymbol → t'.isSymbol →
      (t.Touches t' ↔ u.Touches u')) (h : SameTokens left right) :
    SameTokens (t :: left) (u :: right) := by
  refine ⟨by simp only [List.map_cons, hmeaning, h.meanings], fun i => ?_⟩
  cases i with
  | zero =>
    intro t₀ t' u₀ u' ht ht' hu hu'
    cases ht
    cases hu
    rw [List.getElem?_cons_succ, ← List.head?_eq_getElem?] at ht' hu'
    exact htouches t' ht' u' hu'
  | succ i => exact h.gaps i

/-- A token that is no operator may stand anywhere. -/
theorem cons_of_not_isSymbol (ht : t.isSymbol = false) (hmeaning : t.meaning = u.meaning)
    (h : SameTokens left right) : SameTokens (t :: left) (u :: right) := by
  refine cons hmeaning (fun _ _ _ _ hsymbol => ?_) h
  rw [ht] at hsymbol
  cases hsymbol

theorem length_eq (h : SameTokens left right) : left.length = right.length := by
  simpa using congrArg List.length h.meanings

end SameTokens

/-- The same tokens are still to be read. -/
structure Cursor.Alike (c d : Cursor) : Prop where
  tokens : SameTokens c.tokens d.tokens
  fault : c.fault = d.fault
  lastLiteral : c.lastLiteral = d.lastLiteral

namespace Cursor.Alike

variable {c d : Cursor}

theorem remaining_eq (h : c.Alike d) : c.remaining = d.remaining := h.tokens.length_eq

/-- Alike cursors have both reached the end, or both stand before a token. -/
theorem cases_tokens (h : c.Alike d) :
    (∃ fault last, c = ⟨[], fault, last⟩ ∧ d = ⟨[], fault, last⟩) ∨
      ∃ t u left right fault last, c = ⟨t :: left, fault, last⟩ ∧ d = ⟨u :: right, fault, last⟩ ∧
        SameTokens (t :: left) (u :: right) := by
  obtain ⟨left, fault, last⟩ := c
  obtain ⟨right, fault', last'⟩ := d
  obtain ⟨htokens, hfault, hlast⟩ := h
  cases hfault
  cases hlast
  cases left with
  | nil =>
    cases right with
    | nil => exact .inl ⟨fault, last, rfl, rfl⟩
    | cons u right => cases htokens.length_eq
  | cons t left =>
    cases right with
    | nil => cases htokens.length_eq
    | cons u right => exact .inr ⟨t, u, left, right, fault, last, rfl, rfl, htokens⟩

/-- A token is taken from both. -/
theorem taken {t u : Token} {left right : List Token} (fault : Option Error)
    (h : SameTokens (t :: left) (u :: right)) :
    Alike ⟨left, fault, t.literal⟩ ⟨right, fault, u.literal⟩ :=
  ⟨h.tail, rfl, congrArg Prod.snd h.meaning_eq⟩

end Cursor.Alike

namespace Parse

variable {α β : Type}

/-! ## The same reading -/

/-- The same answer or failure, with the same tokens left. -/
def SameReading (x y : Except Error α × Cursor) : Prop :=
  x.1 = y.1 ∧ x.2.Alike y.2

/-- The reader does not see how the tokens are laid out. -/
def IgnoresLayout (p : Parse α) : Prop :=
  ∀ c d, c.Alike d → SameReading (p.run c) (p.run d)

/-- Both readings fail, or both answer. -/
theorem SameReading.cases {x y : Except Error α × Cursor} (h : SameReading x y) :
    (∃ e c d, x = (.error e, c) ∧ y = (.error e, d) ∧ c.Alike d) ∨
      ∃ a c d, x = (.ok a, c) ∧ y = (.ok a, d) ∧ c.Alike d := by
  obtain ⟨answer, c⟩ := x
  obtain ⟨answer', d⟩ := y
  obtain ⟨hanswer, halike⟩ := h
  cases hanswer
  cases answer with
  | error e => exact .inl ⟨e, c, d, rfl, rfl, halike⟩
  | ok a => exact .inr ⟨a, c, d, rfl, rfl, halike⟩

theorem SameReading.bind {p q : Parse α} {f g : α → Parse β} {c d : Cursor}
    (hfirst : SameReading (p.run c) (q.run d))
    (hsecond : ∀ a c' d', c'.Alike d' → SameReading ((f a).run c') ((g a).run d')) :
    SameReading ((p >>= f).run c) ((q >>= g).run d) := by
  rw [run_bind, run_bind]
  rcases hfirst.cases with ⟨e, c', d', hp, hq, halike⟩ | ⟨a, c', d', hp, hq, halike⟩
  · rw [hp, hq]
    exact ⟨rfl, halike⟩
  · rw [hp, hq]
    exact hsecond a c' d' halike

theorem ignoresLayout_expectNext {f : Token → Parse β} (hplace : IgnoresPlace f)
    (hf : ∀ t, IgnoresLayout (f t)) : IgnoresLayout (expectNext >>= f) := by
  intro c d h
  obtain ⟨fault, last, rfl, rfl⟩ | ⟨t, u, left, right, fault, last, rfl, rfl, htokens⟩ :=
    h.cases_tokens
  · cases fault with
    | none => exact ⟨rfl, h⟩
    | some e => exact ⟨rfl, h.tokens, rfl, rfl⟩
  · rw [run_expectNext_bind, run_expectNext_bind, hplace t u htokens.meaning_eq]
    exact hf u _ _ (.taken fault htokens)

theorem ignoresLayout_nextIf {p : Token → Bool} {f : Option Token → Parse β} (hp : IgnoresPlace p)
    (hplace : IgnoresPlace fun t => f (some t)) (hf : ∀ t, IgnoresLayout (f t)) :
    IgnoresLayout (nextIf p >>= f) := by
  intro c d h
  obtain ⟨fault, last, rfl, rfl⟩ | ⟨t, u, left, right, fault, last, rfl, rfl, htokens⟩ :=
    h.cases_tokens
  · cases fault with
    | none => exact hf none _ _ h
    | some e => exact ⟨rfl, h.tokens, rfl, rfl⟩
  · have hnext : f (some t) = f (some u) := hplace t u htokens.meaning_eq
    rw [run_nextIf_bind, run_nextIf_bind, hp t u htokens.meaning_eq, hnext]
    split
    · exact hf _ _ _ (.taken fault htokens)
    · exact hf _ _ _ h

theorem ignoresLayout_peek {f : Option Token → Parse β}
    (hplace : IgnoresPlace fun t => f (some t)) (hf : ∀ t, IgnoresLayout (f t)) :
    IgnoresLayout (peek >>= f) := by
  intro c d h
  obtain ⟨fault, last, rfl, rfl⟩ | ⟨t, u, left, right, fault, last, rfl, rfl, htokens⟩ :=
    h.cases_tokens
  · cases fault with
    | none => exact hf none _ _ h
    | some e => exact ⟨rfl, h.tokens, rfl, rfl⟩
  · have hnext : f (some t) = f (some u) := hplace t u htokens.meaning_eq
    rw [run_peek_bind, run_peek_bind, hnext]
    exact hf _ _ _ h

theorem ignoresLayout_separatedNumbered {separator : Parse Bool} {item : Nat → Parse α}
    (hseparator : IgnoresLayout separator) (hitem : ∀ place, IgnoresLayout (item place)) :
    IgnoresLayout (separatedNumbered separator item) := by
  suffices h : ∀ place c d, c.Alike d → SameReading (runSeparated separator item place c)
      (runSeparated separator item place d) from h 0
  have hround : ∀ place, IgnoresLayout (round separator (item place)) := fun place c d h =>
    (hitem place c d h).bind fun _ c₁ d₁ h₁ => (hseparator c₁ d₁ h₁).bind fun _ _ _ h₂ => ⟨rfl, h₂⟩
  intro place c
  induction hn : c.remaining using Nat.strongRecOn generalizing place c with
  | ind n ih =>
    intro d h
    rw [runSeparated_eq, runSeparated_eq]
    rcases (hround place c d h).cases with ⟨e, c₁, d₁, hc, hd, h₁⟩ |
      ⟨⟨first, goesOn⟩, c₁, d₁, hc, hd, h₁⟩
    · rw [hc, hd]
      exact ⟨rfl, h₁⟩
    simp only [hc, hd, ← h₁.remaining_eq, ← h.remaining_eq]
    split
    · next hgoesOn =>
      rcases (ih _ (hn ▸ hgoesOn.2) (place + 1) c₁ rfl d₁ h₁).cases with
        ⟨e, c₂, d₂, hc, hd, h₂⟩ | ⟨more, c₂, d₂, hc, hd, h₂⟩
      · rw [hc, hd]
        exact ⟨rfl, h₂⟩
      · rw [hc, hd]
        exact ⟨rfl, h₂⟩
    · exact ⟨rfl, h₁⟩

/-! ## Comparison operators -/

/-- The same tokens are still to be read behind two tokens that say the same, and their first
tokens touch these two alike. -/
structure AlikeBehind (t u : Token) (c d : Cursor) : Prop where
  tokens : SameTokens (t :: c.tokens) (u :: d.tokens)
  fault : c.fault = d.fault
  lastLiteral : c.lastLiteral = d.lastLiteral

theorem AlikeBehind.alike {t u : Token} {c d : Cursor} (h : AlikeBehind t u c d) : c.Alike d :=
  ⟨h.tokens.tail, h.fault, h.lastLiteral⟩

/-- Whether the second character of an operator is read does not depend on the layout. If it is
not, the reading goes on behind the first character. -/
theorem sameReading_consumeAdjacent {t u : Token} {c d : Cursor} (h : AlikeBehind t u c d)
    (hsymbol : t.isSymbol) (symbol : Char) {p q q' : Parse α} (hp : IgnoresLayout p)
    (hq : SameReading (q.run c) (q'.run d)) :
    SameReading ((consumeAdjacent t symbol >>= fun b => if b then p else q).run c)
      ((consumeAdjacent u symbol >>= fun b => if b then p else q').run d) := by
  obtain ⟨fault, last, rfl, rfl⟩ | ⟨t', u', left, right, fault, last, rfl, rfl, htokens⟩ :=
    h.alike.cases_tokens
  · cases fault with
    | none => exact hq
    | some e => exact ⟨rfl, h.alike.tokens, rfl, rfl⟩
  · have hadjacent : (t'.isOperator symbol && t'.position == t.stop) =
        (u'.isOperator symbol && u'.position == u.stop) := by
      have hkind : t'.kind = u'.kind := congrArg Prod.fst htokens.meaning_eq
      have hoperator : t'.isOperator symbol = u'.isOperator symbol := by
        simp only [Token.isOperator, hkind]
      rw [← hoperator]
      cases hop : t'.isOperator symbol with
      | false => rfl
      | true =>
        have hsymbol' : t'.isSymbol := by
          have hkind' : t'.kind = .operator symbol := by simpa [Token.isOperator] using hop
          simp [Token.isSymbol, hkind']
        rw [Bool.true_and, Bool.true_and, Bool.eq_iff_iff, beq_iff_eq, beq_iff_eq]
        exact h.tokens.touches_iff hsymbol hsymbol'
    unfold consumeAdjacent
    rw [consume_bind, consume_bind, run_nextIf_bind, run_nextIf_bind, hadjacent]
    split
    · exact hp _ _ (.taken fault htokens)
    · exact hq

theorem ignoresLayout_readOperator : IgnoresLayout Predicate.readOperator := by
  intro c d h
  obtain ⟨fault, last, rfl, rfl⟩ | ⟨t, u, left, right, fault, last, rfl, rfl, htokens⟩ :=
    h.cases_tokens
  · cases fault with
    | none => exact ⟨rfl, h⟩
    | some e => exact ⟨rfl, h.tokens, rfl, rfl⟩
  · have hkind : t.kind = u.kind := congrArg Prod.fst htokens.meaning_eq
    have hunexpected : t.unexpected = u.unexpected :=
      ignoresPlace (f := Token.unexpected) (fun _ _ _ _ => rfl) t u htokens.meaning_eq
    have hbehind : AlikeBehind t u ⟨left, fault, t.literal⟩ ⟨right, fault, u.literal⟩ :=
      ⟨htokens, rfl, (Cursor.Alike.taken fault htokens).lastLiteral⟩
    have hanswer : ∀ op : ComparisonOperator, IgnoresLayout (pure op) := fun op _ _ h => ⟨rfl, h⟩
    unfold Predicate.readOperator
    rw [run_expectNext_bind, run_expectNext_bind, hkind, hunexpected]
    split
    · exact ⟨rfl, hbehind.alike⟩
    · have hsymbol : t.isSymbol := by simp only [Token.isSymbol, *]
      refine sameReading_consumeAdjacent hbehind hsymbol '>' (hanswer _) ?_
      refine sameReading_consumeAdjacent hbehind hsymbol '=' (hanswer _) ?_
      exact ⟨rfl, hbehind.alike⟩
    · have hsymbol : t.isSymbol := by simp only [Token.isSymbol, *]
      refine sameReading_consumeAdjacent hbehind hsymbol '=' (hanswer _) ?_
      exact ⟨rfl, hbehind.alike⟩
    · have hsymbol : t.isSymbol := by simp only [Token.isSymbol, *]
      refine sameReading_consumeAdjacent hbehind hsymbol '=' (hanswer _) ?_
      refine sameReading_consumeAdjacent hbehind hsymbol '<' (hanswer _) ?_
      refine sameReading_consumeAdjacent hbehind hsymbol '>' (hanswer _) ?_
      exact ⟨rfl, hbehind.alike⟩
    · exact ⟨rfl, hbehind.alike⟩

/-! ## Every reader -/

/-- A reader that is built from requests does not see the layout. -/
theorem StopsBefore.ignoresLayout {stop : Token → Prop} {p : Parse α} (h : StopsBefore stop p) :
    IgnoresLayout p := by
  induction h with
  | answer a => exact fun _ _ halike => ⟨rfl, halike⟩
  | fail e => exact fun _ _ halike => ⟨rfl, halike⟩
  | bind _ _ ihp ihf =>
    exact fun c d halike => (ihp c d halike).bind fun a c' d' h' => ihf a c' d' h'
  | expectNext hplace _ ihf => exact ignoresLayout_expectNext hplace ihf
  | nextIf hp hplace _ _ ihf => exact ignoresLayout_nextIf hp hplace ihf
  | peek hplace _ _ _ ihf => exact ignoresLayout_peek hplace ihf
  | separatedNumbered _ _ ihseparator ihitem =>
    exact ignoresLayout_separatedNumbered ihseparator ihitem
  | comparison _ => exact ignoresLayout_readOperator

end Parse
end TransactSql
