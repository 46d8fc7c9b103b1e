/-
TransactSql.Proofs.Query.Height — the limit on the nesting.

Of the texts that could be read without it, the limit refuses those that
are deeper than it, and it changes nothing of the others. So no tree that
is read is higher than the limit allows, wherever it stands in a query.
-/
import TransactSql.Proofs.Expression.Height
import TransactSql.Proofs.Query.Depth

namespace TransactSql

open Parse

variable {scope : Scope} {depth : Nat} {c c' : Cursor}

/-! ## The expressions of a query -/

/-- The operands of the comparisons. -/
def Predicate.expressions : Predicate → List Expression
  | comparison _ left right => [left, right]
  | and left right => left.expressions ++ right.expressions
  | or left right => left.expressions ++ right.expressions

def SelectItem.expressions : SelectItem → List Expression
  | wildcard => []
  | expression e => [e]

def Select.expressions (s : Select) : List Expression :=
  s.items.flatMap (·.expressions) ++ s.filter.toList.flatMap (·.expressions)

/-- The expressions of derived tables, to any depth. -/
def Source.expressions : Source → List Expression
  | unit => []
  | table _ _ => []
  | derived select source _ => select.expressions ++ source.expressions

/-- All expressions of a query, those of its derived tables included. -/
def Query.expressions (q : Query) : List Expression := q.select.expressions ++ q.source.expressions

/-! ## Their heights -/

/-- Each of the expressions is at most as high as the depth allows. -/
def HeightsLe (depth : Nat) (expressions : List Expression) : Prop :=
  ∀ e ∈ expressions, e.unnamed.height ≤ Expression.heightBound depth

theorem HeightsLe.mono {depth' : Nat} {expressions : List Expression}
    (h : HeightsLe depth expressions) (hle : depth ≤ depth') : HeightsLe depth' expressions :=
  fun e he => Nat.le_trans (h e he) (Expression.heightBound_mono hle)

theorem heightsLe_append {es es' : List Expression} (h : HeightsLe depth es)
    (h' : HeightsLe depth es') : HeightsLe depth (es ++ es') :=
  List.forall_mem_append.mpr ⟨h, h'⟩

theorem heightsLe_of_readsAt {aliased : Bool} {e : Expression}
    (h : Expression.ReadsAt scope (.expression aliased) depth c e c') : HeightsLe depth [e] := by
  intro e' he
  rw [List.mem_singleton.mp he]
  exact h.height_le

/-- Of conditions that are joined, each has its expressions. -/
theorem heightsLe_foldl {join : Predicate → Predicate → Predicate}
    (hjoin : ∀ p q, (join p q).expressions = p.expressions ++ q.expressions) {first : Predicate}
    {more : List Predicate} (h : ∀ p ∈ first :: more, HeightsLe depth p.expressions) :
    HeightsLe depth (more.foldl join first).expressions := by
  induction more generalizing first with
  | nil => exact h first List.mem_cons_self
  | cons next more ih =>
    obtain ⟨hfirst, hmore⟩ := List.forall_mem_cons.mp h
    obtain ⟨hnext, hmore⟩ := List.forall_mem_cons.mp hmore
    refine ih (List.forall_mem_cons.mpr ⟨?_, hmore⟩)
    rw [hjoin]
    exact heightsLe_append hfirst hnext

/-- What holds of the items of a sequence at their depths holds at the depth of the sequence. -/
theorem heightsLe_of_separatedAt {α : Type} {separator : Parse Bool}
    {R : Nat → Cursor → α → Cursor → Prop} {xs : α × List α}
    (h : SeparatedAt separator R depth c xs c') (expressions : α → List Expression)
    (hitem : ∀ {depth c a c'}, R depth c a c' → HeightsLe depth (expressions a)) :
    ∀ x ∈ xs.1 :: xs.2, HeightsLe depth (expressions x) := by
  intro x hx
  obtain ⟨d, hd, c₁, c₂, hR⟩ := h.exists_le x hx
  exact (hitem hR).mono hd

namespace Predicate

theorem ComparisonAt.heightsLe {p : Predicate} (h : ComparisonAt scope depth c p c') :
    HeightsLe depth p.expressions := by
  obtain ⟨hleft, hop, hright⟩ := h
  exact heightsLe_append ((heightsLe_of_readsAt hleft).mono (Nat.le_max_left _ _))
    ((heightsLe_of_readsAt hright).mono (Nat.le_max_right _ _))

theorem ConjunctionAt.heightsLe {p : Predicate} (h : ConjunctionAt scope depth c p c') :
    HeightsLe depth p.expressions := by
  obtain ⟨parts, hparts, rfl⟩ := h
  exact heightsLe_foldl (fun _ _ => rfl) (heightsLe_of_separatedAt hparts _ fun h => h.heightsLe)

theorem ReadsAt.heightsLe {p : Predicate} (h : ReadsAt scope depth c p c') :
    HeightsLe depth p.expressions := by
  obtain ⟨parts, hparts, rfl⟩ := h
  exact heightsLe_foldl (fun _ _ => rfl) (heightsLe_of_separatedAt hparts _ fun h => h.heightsLe)

end Predicate

namespace Query

/-- An alias without a word before it is only put on an expression that has none. -/
theorem heightsLe_of_readItemAlias {e : Expression} {item : SelectItem} (h : HeightsLe depth [e])
    (halias : (readItemAlias e).run c = (.ok item, c')) : HeightsLe depth item.expressions := by
  unfold readItemAlias at halias
  split at halias
  · cases halias
    exact h
  next hnamed =>
  obtain ⟨name?, c₁, hname, halias⟩ := run_bind_ok.mp halias
  cases name? with
  | none =>
    cases halias
    exact h
  | some name =>
    cases halias
    -- The alias that is put on now is not part of what the height is measured of.
    have hunnamed : e.unnamed = e := by
      cases e <;> first | rfl | exact absurd rfl hnamed
    intro e' he
    have hle := h e List.mem_cons_self
    rw [List.mem_singleton.mp he]
    rwa [hunnamed] at hle

theorem ItemAt.heightsLe {item : SelectItem} (h : ItemAt scope depth c item c') :
    HeightsLe depth item.expressions := by
  cases h with
  | wildcard => exact List.forall_mem_nil _
  | expression _ hexpression halias =>
    exact heightsLe_of_readItemAlias (heightsLe_of_readsAt hexpression) halias

theorem HeadAt.heightsLe {limit : Option Nat} {items : List SelectItem}
    (h : HeadAt scope depth c (limit, items) c') :
    HeightsLe depth (items.flatMap (·.expressions)) := by
  obtain ⟨_, _, hitems⟩ := h
  obtain ⟨xs, hxs, rfl⟩ := hitems
  intro e he
  obtain ⟨item, hitem, he⟩ := List.mem_flatMap.mp he
  have hle := heightsLe_of_separatedAt hxs _ (fun h => h.heightsLe) item hitem
  exact hle.mono (Nat.le_max_right _ _) e he

theorem TailAt.heightsLe {filter : Option Predicate} (h : TailAt scope depth c filter c') :
    HeightsLe depth (filter.toList.flatMap (·.expressions)) := by
  obtain ⟨hfilter, _⟩ := h
  cases hfilter with
  | none => exact List.forall_mem_nil _
  | condition _ hpredicate =>
    rw [Option.toList_some, List.flatMap_singleton]
    exact hpredicate.heightsLe

theorem FlatSourceAt.expressions_eq {source : Source} (h : FlatSourceAt c source c') :
    source.expressions = [] := by
  cases h <;> rfl

/-- Every expression of a query is at most as high as the depth of the query allows. -/
theorem ReadsAt.heightsLe {q : Query} (h : ReadsAt scope depth c q c') :
    HeightsLe depth q.expressions := by
  induction h with
  | @flat depth depth' _ _ _ _ _ _ _ _ hhead hsource _ htail =>
    have hitems := hhead.heightsLe.mono (Nat.le_max_left depth depth')
    have hfilter := htail.heightsLe.mono (Nat.le_max_right depth depth')
    unfold expressions
    rw [hsource.expressions_eq, List.append_nil]
    exact heightsLe_append hitems hfilter
  | @derived depth inner depth' _ _ _ _ _ _ _ _ _ _ _ hhead _ _ _ htail ih =>
    have hitems : HeightsLe (max depth (max (inner + 1) depth')) _ :=
      hhead.heightsLe.mono (Nat.le_max_left _ _)
    have hfilter : HeightsLe (max depth (max (inner + 1) depth')) _ :=
      htail.heightsLe.mono (by omega)
    exact heightsLe_append (heightsLe_append hitems hfilter) (ih.mono (by omega))

end Query

/-! ## The limit -/

/-- Whatever is read with some number of levels, as many as it takes, has one depth: the depth of an
expression as `Expression.ReadsAt` has it, and that of a query as `Query.ReadsAt` has it. It fails
for being nested too deeply exactly if that is more than the limit, and otherwise the same is read.

So an expression that is read within the limit, whether an alias may follow or not, is at most so
high without its alias; and so are all expressions of a query. -/
theorem nesting_limit_exact (scope : Scope) :
    (∀ levels c e c', (Expression.read scope levels).run c = (.ok e, c') →
      ∃ depth, (∀ d, Expression.ReadsAt scope (.expression false) d c e c' ↔ d = depth) ∧
        (((Expression.read scope maxNesting).run c).1 = .error .nestedTooDeeply ↔
          maxNesting < depth) ∧
        (depth ≤ maxNesting → (Expression.read scope maxNesting).run c = (.ok e, c'))) ∧
    (∀ levels c q c', (Query.read scope levels).run c = (.ok q, c') →
      ∃ depth, (∀ d, Query.ReadsAt scope d c q c' ↔ d = depth) ∧
        (((Query.read scope maxNesting).run c).1 = .error .nestedTooDeeply ↔
          maxNesting < depth) ∧
        (depth ≤ maxNesting → (Query.read scope maxNesting).run c = (.ok q, c'))) ∧
    (∀ levels ≤ maxNesting, ∀ aliased c e c',
      ((Expression.readers scope levels).expression aliased).run c = (.ok e, c') →
        e.unnamed.height ≤ maxNesting * (maxNesting + 1) / 2) ∧
    (∀ c q c', (Query.read scope maxNesting).run c = (.ok q, c') →
      ∀ e ∈ q.expressions, e.unnamed.height ≤ maxNesting * (maxNesting + 1) / 2) := by
  refine ⟨fun levels c e c' h => ?_, fun levels c q c' h => ?_, ?_, ?_⟩
  · exact (Expression.measures_reader scope (.expression false)).limit_exact h maxNesting
  · exact (Query.measures_read scope).limit_exact h maxNesting
  · intro levels hlevels aliased c e c' h
    obtain ⟨depth, hdepth, hreads⟩ :=
      (Expression.measures_reader scope (.expression aliased)).exists_le h
    have hbound := Expression.heightBound_mono (Nat.le_trans hdepth hlevels)
    exact Nat.le_trans hreads.height_le hbound
  · intro c q c' h
    obtain ⟨depth, hdepth, hreads⟩ := (Query.measures_read scope).exists_le h
    exact hreads.heightsLe.mono hdepth

/-- The text `a - b` has a depth, whatever number of levels it is read with. -/
theorem nesting_limit_exact_difference :
    (∃ depth, (∀ d, Expression.ReadsAt ⟨Bindings.none, "", 0⟩ (.expression false) d
          ⟨[⟨.word, "a", 0⟩, ⟨.operator '-', "-", 1⟩, ⟨.word, "b", 2⟩], none, ""⟩
          (.binary .subtract (.reference ["a"]) (.reference ["b"])) ⟨[], none, "b"⟩ ↔ d = depth) ∧
        (((Expression.read ⟨Bindings.none, "", 0⟩ maxNesting).run
            ⟨[⟨.word, "a", 0⟩, ⟨.operator '-', "-", 1⟩, ⟨.word, "b", 2⟩], none, ""⟩).1 =
          .error .nestedTooDeeply ↔ maxNesting < depth) ∧
        (depth ≤ maxNesting → (Expression.read ⟨Bindings.none, "", 0⟩ maxNesting).run
            ⟨[⟨.word, "a", 0⟩, ⟨.operator '-', "-", 1⟩, ⟨.word, "b", 2⟩], none, ""⟩ =
          (.ok (.binary .subtract (.reference ["a"]) (.reference ["b"])), ⟨[], none, "b"⟩))) ∧
      (Expression.binary .subtract (.reference ["a"]) (.reference ["b"])).unnamed.height ≤
        maxNesting * (maxNesting + 1) / 2 :=
  ⟨(nesting_limit_exact _).1 2 _ _ _ rfl,
    (nesting_limit_exact ⟨Bindings.none, "", 0⟩).2.2.1 2 (by decide) false
      ⟨[⟨.word, "a", 0⟩, ⟨.operator '-', "-", 1⟩, ⟨.word, "b", 2⟩], none, ""⟩ _ _ rfl⟩

end TransactSql
