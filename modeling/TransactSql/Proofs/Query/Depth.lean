/-
TransactSql.Proofs.Query.Depth — how deep a query is nested.

`Query.ReadsAt scope depth c q c'` says which query stands in the text
between two cursors, and how deep it is nested. It is as deep as the
deepest of its expressions: those of a limit in parentheses, of its items
and of its comparisons. `AND` and `OR` add nothing to that, and a derived
table is one level deeper than its query.

The readers of queries follow this relation (`Query.measures_read`).
-/
import TransactSql.Proofs.Expression.Depth
import TransactSql.Query.Grammar

namespace TransactSql

open Parse

variable {scope : Scope} {depth levels : Nat} {c c' : Cursor}

/-! ## Conditions -/

namespace Predicate

/-- A comparison is as deep as the deeper one of its operands. -/
inductive ComparisonAt (scope : Scope) : (depth : Nat) → Cursor → Predicate → Cursor → Prop
  | comparison {depth depth' : Nat} {c c₁ c₂ c' : Cursor} {op : ComparisonOperator}
      {left right : Expression}
      (hleft : Expression.ReadsAt scope (.expression false) depth c left c₁)
      (hop : readOperator.run c₁ = (.ok op, c₂))
      (hright : Expression.ReadsAt scope (.expression false) depth' c₂ right c') :
      ComparisonAt scope (max depth depth') c (comparison op left right) c'

/-- Comparisons joined by `AND`. -/
def ConjunctionAt (scope : Scope) (depth : Nat) (c : Cursor) (p : Predicate) (c' : Cursor) : Prop :=
  ∃ parts, SeparatedAt (consumeKeyword .AND) (ComparisonAt scope) depth c parts c' ∧
    parts.2.foldl and parts.1 = p

/-- A condition stands between two cursors, and is nested so deep. -/
def ReadsAt (scope : Scope) (depth : Nat) (c : Cursor) (p : Predicate) (c' : Cursor) : Prop :=
  ∃ parts, SeparatedAt (consumeKeyword .OR) (ConjunctionAt scope) depth c parts c' ∧
    parts.2.foldl or parts.1 = p

theorem measures_readComparison (scope : Scope) :
    Measures (fun n => readComparison (Expression.read scope n)) (ComparisonAt scope) where
  needs := by
    have hexpression := Expression.measures_reader scope (.expression false)
    rintro _ c _ c' ⟨hleft, hop, hright⟩
    refine (hexpression.needs hleft).bind (.after (fun _ => hop) ?_)
    exact (hexpression.needs hright).before fun _ => rfl
  finds := by
    intro levels c a c' h
    have hexpression := Expression.measures_reader scope (.expression false)
    obtain ⟨left, c₁, hleft, h⟩ := run_bind_ok.mp h
    obtain ⟨op, c₂, hop, h⟩ := run_bind_ok.mp h
    obtain ⟨right, c₃, hright, h⟩ := run_bind_ok.mp h
    cases h
    obtain ⟨depth, hleft⟩ := hexpression.finds _ hleft
    obtain ⟨depth', hright⟩ := hexpression.finds _ hright
    exact ⟨_, .comparison hleft hop hright⟩

theorem measures_readConjunction (scope : Scope) :
    Measures (fun n => readConjunction (Expression.read scope n)) (ConjunctionAt scope) :=
  (measures_separated (separates_consume _) (measures_readComparison scope)).map _

theorem measures_read (scope : Scope) : Measures (read scope) (ReadsAt scope) :=
  (measures_separated (separates_consume _) (measures_readConjunction scope)).map _

end Predicate

namespace Query

/-! ## The clauses of a query -/

/-- The expression of a limit: only one in parentheses has a depth. -/
inductive LimitExpressionAt (scope : Scope) : (depth : Nat) → Cursor → Expression → Cursor → Prop
  | number {c c₁ c' : Cursor} {token : Token} {number : Number}
      (hopen : (consumeKind .openParen).run c = (.ok false, c₁))
      (htoken : expectNext.run c₁ = (.ok token, c')) (hkind : token.kind = .number number) :
      LimitExpressionAt scope 0 c (.value number.toValue) c'
  | parameter {c c₁ c' : Cursor} {token : Token} {name : String} {v : Value}
      (hopen : (consumeKind .openParen).run c = (.ok false, c₁))
      (htoken : expectNext.run c₁ = (.ok token, c')) (hkind : token.kind = .parameter name)
      (hvalue : scope.parameter name = .ok v) : LimitExpressionAt scope 0 c (.value v) c'
  | parenthesized {depth : Nat} {c c₁ c₂ c' : Cursor} {e : Expression} {close : Token}
      (hopen : (consumeKind .openParen).run c = (.ok true, c₁))
      (hexpression : Expression.ReadsAt scope (.expression false) depth c₁ e c₂)
      (hclose : (expectKind .closeParen).run c₂ = (.ok close, c')) :
      LimitExpressionAt scope depth c e c'

/-- A limit, or none. -/
inductive LimitAt (scope : Scope) : (depth : Nat) → Cursor → Option Nat → Cursor → Prop
  | none {c c' : Cursor} (htop : (consumeKeyword .TOP).run c = (.ok false, c')) :
      LimitAt scope 0 c none c'
  | top {depth : Nat} {c c₁ c' : Cursor} {e : Expression} {limit : Nat}
      (htop : (consumeKeyword .TOP).run c = (.ok true, c₁))
      (hexpression : LimitExpressionAt scope depth c₁ e c')
      (hlimit : (e.eval limitLookup >>= limitOf) = .ok limit) :
      LimitAt scope depth c (some limit) c'

/-- Makes an item of an expression and the alias that may follow it without a word before it. -/
def readItemAlias (expression : Expression) : Parse SelectItem := do
  if expression.isNamed then pure (.expression expression)
  else
    match ← implicitAlias? with
    | some name => pure (.expression (.named expression name))
    | none => pure (.expression expression)

/-- An entry of the select list. -/
inductive ItemAt (scope : Scope) : (depth : Nat) → Cursor → SelectItem → Cursor → Prop
  | wildcard {c c' : Cursor} (hstar : (consume (·.isOperator '*')).run c = (.ok true, c')) :
      ItemAt scope 0 c .wildcard c'
  | expression {depth : Nat} {c c₁ c₂ c' : Cursor} {e : Expression} {item : SelectItem}
      (hstar : (consume (·.isOperator '*')).run c = (.ok false, c₁))
      (hexpression : Expression.ReadsAt scope (.expression true) depth c₁ e c₂)
      (halias : (readItemAlias e).run c₂ = (.ok item, c')) : ItemAt scope depth c item c'

/-- A condition, or none. -/
inductive FilterAt (scope : Scope) : (depth : Nat) → Cursor → Option Predicate → Cursor → Prop
  | none {c c' : Cursor} (hwhere : (consumeKeyword .WHERE).run c = (.ok false, c')) :
      FilterAt scope 0 c none c'
  | condition {depth : Nat} {c c₁ c' : Cursor} {p : Predicate}
      (hwhere : (consumeKeyword .WHERE).run c = (.ok true, c₁))
      (hpredicate : Predicate.ReadsAt scope depth c₁ p c') : FilterAt scope depth c (some p) c'

theorem measures_readLimitExpression (scope : Scope) :
    Measures (readLimitExpression scope) (LimitExpressionAt scope) where
  needs h := by
    cases h with
    | number hopen htoken hkind =>
      refine .after (fun _ => hopen) (.after (fun _ => htoken) ?_)
      rw [hkind]
      exact needs_of_run fun _ => rfl
    | parameter hopen htoken hkind hvalue =>
      refine .after (fun _ => hopen) (.after (fun _ => htoken) ?_)
      rw [hkind]
      exact needs_of_run fun _ => run_bind_ok.mpr ⟨_, _, run_ofExcept_ok.mpr ⟨hvalue, rfl⟩, rfl⟩
    | parenthesized hopen hexpression hclose =>
      have hneeds := (Expression.measures_reader scope (.expression false)).needs hexpression
      exact .after (fun _ => hopen) (hneeds.before fun _ => run_bind_ok.mpr ⟨_, _, hclose, rfl⟩)
  finds := by
    intro levels c a c' h
    obtain ⟨isOpen, c₁, hopen, h⟩ := run_bind_ok.mp h
    cases isOpen with
    | true =>
      obtain ⟨e, c₂, hexpression, h⟩ := run_bind_ok.mp h
      obtain ⟨close, c₃, hclose, h⟩ := run_bind_ok.mp h
      cases h
      obtain ⟨depth, hexpression⟩ :=
        (Expression.measures_reader scope (.expression false)).finds _ hexpression
      exact ⟨depth, .parenthesized hopen hexpression hclose⟩
    | false =>
      obtain ⟨token, c₂, htoken, h⟩ := run_bind_ok.mp h
      split at h
      · next hkind =>
        cases h
        exact ⟨0, .number hopen htoken hkind⟩
      · next hkind =>
        obtain ⟨v, c₃, hrun, hpure⟩ := run_bind_ok.mp h
        obtain ⟨hvalue, rfl⟩ := run_ofExcept_ok.mp hrun
        cases hpure
        exact ⟨0, .parameter hopen htoken hkind hvalue⟩
      · cases h

theorem measures_readLimit? (scope : Scope) : Measures (readLimit? scope) (LimitAt scope) where
  needs h := by
    cases h with
    | none htop => exact .after (fun _ => htop) (needs_of_run fun _ => rfl)
    | top htop hexpression hlimit =>
      have hneeds := (measures_readLimitExpression scope).needs hexpression
      exact .after (fun _ => htop) (hneeds.before fun _ => by rw [hlimit]; rfl)
  finds := by
    intro levels c a c' h
    obtain ⟨isTop, c₁, htop, h⟩ := run_bind_ok.mp h
    cases isTop with
    | false =>
      cases h
      exact ⟨0, .none htop⟩
    | true =>
      obtain ⟨e, c₂, hexpression, h⟩ := run_bind_ok.mp h
      obtain ⟨limit, c₃, hrun, hpure⟩ := run_bind_ok.mp h
      obtain ⟨hlimit, rfl⟩ := run_ofExcept_ok.mp hrun
      cases hpure
      obtain ⟨depth, hexpression⟩ := (measures_readLimitExpression scope).finds _ hexpression
      exact ⟨depth, .top htop hexpression hlimit⟩

theorem measures_readItem (scope : Scope) : Measures (readItem scope) (ItemAt scope) where
  needs h := by
    cases h with
    | wildcard hstar => exact .after (fun _ => hstar) (needs_of_run fun _ => rfl)
    | expression hstar hexpression halias =>
      have hneeds := (Expression.measures_reader scope (.expression true)).needs hexpression
      exact .after (fun _ => hstar) (hneeds.before fun _ => halias)
  finds := by
    intro levels c a c' h
    obtain ⟨isStar, c₁, hstar, h⟩ := run_bind_ok.mp h
    cases isStar with
    | true =>
      cases h
      exact ⟨0, .wildcard hstar⟩
    | false =>
      obtain ⟨e, c₂, hexpression, halias⟩ := run_bind_ok.mp h
      obtain ⟨depth, hexpression⟩ :=
        (Expression.measures_reader scope (.expression true)).finds _ hexpression
      exact ⟨depth, .expression hstar hexpression halias⟩

theorem measures_readFilter? (scope : Scope) :
    Measures (readQuery.readFilter? scope) (FilterAt scope) where
  needs h := by
    cases h with
    | none hwhere => exact .after (fun _ => hwhere) (needs_of_run fun _ => rfl)
    | condition hwhere hpredicate =>
      have hneeds := (Predicate.measures_read scope).needs hpredicate
      exact .after (fun _ => hwhere) (hneeds.before fun _ => rfl)
  finds := by
    intro levels c a c' h
    obtain ⟨isWhere, c₁, hwhere, h⟩ := run_bind_ok.mp h
    cases isWhere with
    | false =>
      cases h
      exact ⟨0, .none hwhere⟩
    | true =>
      obtain ⟨p, c₂, hpredicate, h⟩ := run_bind_ok.mp h
      cases h
      obtain ⟨depth, hpredicate⟩ := (Predicate.measures_read scope).finds _ hpredicate
      exact ⟨depth, .condition hwhere hpredicate⟩

/-! ## Queries -/

/-- What stands before the source: the limit and the items. -/
inductive HeadAt (scope : Scope) :
    (depth : Nat) → Cursor → Option Nat × List SelectItem → Cursor → Prop
  | mk {depth depth' : Nat} {c c₁ c₂ c' : Cursor} {limit : Option Nat} {items : List SelectItem}
      (hquantifier : refuseQuantifier.run c = (.ok (), c₁))
      (hlimit : LimitAt scope depth c₁ limit c₂)
      (hitems : CommaSeparatedAt (ItemAt scope) depth' c₂ items c') :
      HeadAt scope (max depth depth') c (limit, items) c'

/-- A source that is not a derived table. -/
inductive FlatSourceAt : Cursor → Source → Cursor → Prop
  | unit {c c' : Cursor} (hfrom : (consumeKeyword .FROM).run c = (.ok false, c')) :
      FlatSourceAt c .unit c'
  | table {c c₁ c₂ c₃ c₄ c' : Cursor} {name : QualifiedName} {tableAlias : Option String}
      (hfrom : (consumeKeyword .FROM).run c = (.ok true, c₁))
      (hopen : (consumeKind .openParen).run c₁ = (.ok false, c₂))
      (hname : qualifiedName.run c₂ = (.ok name, c₃))
      (halias : readSourceAlias?.run c₃ = (.ok tableAlias, c₄))
      (hend : (peekIs beginsJoin).run c₄ = (.ok false, c')) :
      FlatSourceAt c (.table name tableAlias) c'

/-- What stands before the query of a derived table. -/
inductive DerivedOpens : Cursor → Cursor → Prop
  | mk {c c₁ c₂ c' : Cursor} {word : Token}
      (hfrom : (consumeKeyword .FROM).run c = (.ok true, c₁))
      (hopen : (consumeKind .openParen).run c₁ = (.ok true, c₂))
      (hselect : (expectKeyword .SELECT).run c₂ = (.ok word, c')) : DerivedOpens c c'

/-- What stands behind the query of a derived table, with its alias. -/
inductive DerivedCloses : Cursor → String → Cursor → Prop
  | mk {c c₁ c₂ c' : Cursor} {close : Token} {name : String}
      (hclose : (expectKind .closeParen).run c = (.ok close, c₁))
      (halias : readSourceAlias?.run c₁ = (.ok (some name), c₂))
      (hend : (peekIs beginsJoin).run c₂ = (.ok false, c')) : DerivedCloses c name c'

/-- What stands behind the source. -/
inductive TailAt (scope : Scope) : (depth : Nat) → Cursor → Option Predicate → Cursor → Prop
  | mk {depth : Nat} {c c₁ c' : Cursor} {filter : Option Predicate}
      (hfilter : FilterAt scope depth c filter c₁) (hend : refuseClause.run c₁ = (.ok (), c')) :
      TailAt scope depth c filter c'

/-- A query stands between two cursors, and is nested so deep. -/
inductive ReadsAt (scope : Scope) : (depth : Nat) → Cursor → Query → Cursor → Prop
  | flat {depth depth' : Nat} {c c₁ c₂ c' : Cursor} {limit : Option Nat} {items : List SelectItem}
      {source : Source} {filter : Option Predicate}
      (hhead : HeadAt scope depth c (limit, items) c₁) (hsource : FlatSourceAt c₁ source c₂)
      (hitems : source = .unit → items.any (·.isWildcard) = false)
      (htail : TailAt scope depth' c₂ filter c') :
      ReadsAt scope (max depth depth') c ⟨⟨limit, items, filter⟩, source⟩ c'
  | derived {depth inner depth' : Nat} {c c₁ c₂ c₃ c₄ c' : Cursor} {limit : Option Nat}
      {items : List SelectItem} {query : Query} {name : String} {filter : Option Predicate}
      (hhead : HeadAt scope depth c (limit, items) c₁) (hopens : DerivedOpens c₁ c₂)
      (hquery : ReadsAt scope inner c₂ query c₃) (hcloses : DerivedCloses c₃ name c₄)
      (htail : TailAt scope depth' c₄ filter c') :
      ReadsAt scope (max depth (max (inner + 1) depth')) c
        ⟨⟨limit, items, filter⟩, .derived query.select query.source name⟩ c'

/-- Reads what stands before the source. -/
def readHead (scope : Scope) (levels : Nat) : Parse (Option Nat × List SelectItem) := do
  refuseQuantifier
  let limit ← readLimit? scope levels
  let items ← commaSeparated (readItem scope levels)
  pure (limit, items)

/-- Reads a source, if there is one. -/
def readFrom (derived : Parse Query) : Parse Source := do
  if ← consumeKeyword .FROM then readSource derived else pure .unit

/-- Reads what stands behind the source. -/
def readTail (scope : Scope) (levels : Nat) : Parse (Option Predicate) := do
  let filter ← readQuery.readFilter? scope levels
  refuseClause
  pure filter

/-- A query without a source has columns of its own. -/
def checkItems (source : Source) (items : List SelectItem) : Parse Unit :=
  let hasSource := match source with
    | .unit => false
    | _ => true
  if !hasSource && items.any (·.isWildcard) then fail .mustSpecifyTable else pure ()

/-- The reader of the query of a derived table, which has one level less. -/
def derivedReader (scope : Scope) : (levels : Nat) → Parse Query
  | 0 => fail .nestedTooDeeply
  | levels + 1 => read scope levels

theorem checkItems_bind (source : Source) (items : List SelectItem) (f : Unit → Parse Query) :
    checkItems source items >>= f =
      if (!(match source with | .unit => false | _ => true) && items.any (·.isWildcard)) = true
      then fail .mustSpecifyTable else f () := by
  unfold checkItems
  dsimp only
  generalize (!(match source with | .unit => false | _ => true) && items.any (·.isWildcard)) = b
  cases b <;> rfl

theorem run_checkItems {source : Source} {items : List SelectItem} {c' : Cursor} :
    (checkItems source items).run c = (.ok (), c') ↔
      (source = .unit → items.any (·.isWildcard) = false) ∧ c' = c := by
  unfold checkItems
  cases source <;> cases items.any (·.isWildcard) <;> simp [eq_comm]

theorem readQuery_eq (scope : Scope) (levels : Nat) (derived : Parse Query) :
    readQuery scope levels derived = readHead scope levels >>= fun head =>
      readFrom derived >>= fun source => checkItems source head.2 >>= fun _ =>
        readTail scope levels >>= fun filter =>
          pure ⟨⟨head.1, head.2, filter⟩, source⟩ := by
  unfold readQuery readHead readFrom readTail
  simp only [checkItems_bind, Parse.bind_assoc, Parse.pure_bind]
  refine bind_congr fun _ => bind_congr fun limit => bind_congr fun items =>
    bind_congr fun isFrom => ?_
  cases isFrom <;> rfl

theorem read_eq (scope : Scope) :
    read scope = fun levels => readQuery scope levels (derivedReader scope levels) := by
  funext levels
  cases levels <;> rfl

theorem measures_readHead (scope : Scope) : Measures (readHead scope) (HeadAt scope) where
  needs := by
    have hitem := measures_commaSeparated (measures_readItem scope)
    rintro _ c _ c' ⟨hquantifier, hlimit, hitems⟩
    exact .after (fun _ => hquantifier) (((measures_readLimit? scope).needs hlimit).bind
      ((hitem.needs hitems).before fun _ => rfl))
  finds := by
    intro levels c a c' h
    obtain ⟨_, c₁, hquantifier, h⟩ := run_bind_ok.mp h
    obtain ⟨limit, c₂, hlimit, h⟩ := run_bind_ok.mp h
    obtain ⟨items, c₃, hitems, h⟩ := run_bind_ok.mp h
    cases h
    obtain ⟨depth, hlimit⟩ := (measures_readLimit? scope).finds _ hlimit
    obtain ⟨depth', hitems⟩ := (measures_commaSeparated (measures_readItem scope)).finds _ hitems
    exact ⟨_, .mk hquantifier hlimit hitems⟩

theorem measures_readTail (scope : Scope) : Measures (readTail scope) (TailAt scope) where
  needs := by
    rintro _ c _ c' ⟨hfilter, hend⟩
    exact ((measures_readFilter? scope).needs hfilter).before fun _ =>
      run_bind_ok.mpr ⟨(), _, hend, rfl⟩
  finds := by
    intro levels c a c' h
    obtain ⟨filter, c₁, hfilter, h⟩ := run_bind_ok.mp h
    obtain ⟨_, c₂, hend, h⟩ := run_bind_ok.mp h
    cases h
    obtain ⟨depth, hfilter⟩ := (measures_readFilter? scope).finds _ hfilter
    exact ⟨depth, .mk hfilter hend⟩

theorem FlatSourceAt.run_readFrom {source : Source} (h : FlatSourceAt c source c')
    (derived : Parse Query) : (readFrom derived).run c = (.ok source, c') := by
  cases h with
  | unit hfrom => exact run_bind_ok.mpr ⟨false, _, hfrom, rfl⟩
  | table hfrom hopen hname halias hend =>
    have hsingle : (readSource.readSingle derived).run _ = (.ok (.table _ _), _) :=
      run_bind_ok.mpr ⟨false, _, hopen, run_bind_ok.mpr ⟨_, _, hname,
        run_bind_ok.mpr ⟨_, _, halias, rfl⟩⟩⟩
    exact run_bind_ok.mpr ⟨true, _, hfrom, run_bind_ok.mpr ⟨_, _, hsingle,
      run_bind_ok.mpr ⟨false, _, hend, rfl⟩⟩⟩

/-- A derived table needs one level more than its query. -/
theorem needs_readFrom {query : Query} {name : String} {c₁ c₂ : Cursor} (hopens : DerivedOpens c c₁)
    (hquery : Needs (read scope) depth c₁ query c₂) (hcloses : DerivedCloses c₂ name c') :
    Needs (fun n => readFrom (derivedReader scope n)) (depth + 1) c
      (.derived query.select query.source name) c' := by
  obtain ⟨hfrom, hopen, hselect⟩ := hopens
  obtain ⟨hclose, halias, hend⟩ := hcloses
  have hderived : Needs (derivedReader scope) (depth + 1) c₁ query c₂ :=
    hquery.succ rfl fun _ => rfl
  have hsingle : Needs (fun n => readSource.readSingle (derivedReader scope n)) (depth + 1) _
      (.derived query.select query.source name) _ :=
    .after (fun _ => hopen) (.after (fun _ => hselect) (hderived.before fun _ =>
      run_bind_ok.mpr ⟨_, _, hclose, run_bind_ok.mpr ⟨_, _, halias, rfl⟩⟩))
  exact .after (fun _ => hfrom) (hsingle.before fun _ => run_bind_ok.mpr ⟨false, _, hend, rfl⟩)

/-- A source is a derived table or not. -/
theorem readFrom_cases {derived : Parse Query} {source : Source}
    (h : (readFrom derived).run c = (.ok source, c')) :
    FlatSourceAt c source c' ∨ ∃ c₁ query c₂ name, DerivedOpens c c₁ ∧
      derived.run c₁ = (.ok query, c₂) ∧ DerivedCloses c₂ name c' ∧
      source = .derived query.select query.source name := by
  obtain ⟨isFrom, c₁, hfrom, h⟩ := run_bind_ok.mp h
  cases isFrom with
  | false =>
    cases h
    exact .inl (.unit hfrom)
  | true =>
    obtain ⟨single, c₂, hsingle, h⟩ := run_bind_ok.mp h
    obtain ⟨isJoin, c₃, hend, h⟩ := run_bind_ok.mp h
    cases isJoin with
    | true => cases h
    | false =>
      cases h
      obtain ⟨isOpen, c₄, hopen, hsingle⟩ := run_bind_ok.mp hsingle
      cases isOpen with
      | true =>
        obtain ⟨word, c₅, hselect, hsingle⟩ := run_bind_ok.mp hsingle
        obtain ⟨query, c₆, hquery, hsingle⟩ := run_bind_ok.mp hsingle
        obtain ⟨close, c₇, hclose, hsingle⟩ := run_bind_ok.mp hsingle
        obtain ⟨name?, c₈, halias, hsingle⟩ := run_bind_ok.mp hsingle
        cases name? with
        | none => cases hsingle
        | some name =>
          cases hsingle
          exact .inr ⟨c₅, query, c₆, name, ⟨hfrom, hopen, hselect⟩, hquery,
            ⟨hclose, halias, hend⟩, rfl⟩
      | false =>
        obtain ⟨name, c₅, hname, hsingle⟩ := run_bind_ok.mp hsingle
        obtain ⟨tableAlias, c₆, halias, hsingle⟩ := run_bind_ok.mp hsingle
        cases hsingle
        exact .inl (.table hfrom hopen hname halias hend)

/-- What stands in the text is read with as many levels as it is deep, and with no fewer. -/
theorem ReadsAt.needs {q : Query} (h : ReadsAt scope depth c q c') :
    Needs (read scope) depth c q c' := by
  induction h with
  | flat hhead hsource hitems htail =>
    simp only [read_eq, readQuery_eq]
    refine ((measures_readHead scope).needs hhead).bind
      (.after (fun _ => hsource.run_readFrom _) ?_)
    refine .after (fun _ => run_checkItems.mpr ⟨hitems, rfl⟩)
      (((measures_readTail scope).needs htail).before fun _ => rfl)
  | derived hhead hopens _ hcloses htail ih =>
    simp only [read_eq, readQuery_eq]
    refine ((measures_readHead scope).needs hhead).bind ((needs_readFrom hopens ih hcloses).bind ?_)
    exact .after (fun _ => rfl) (((measures_readTail scope).needs htail).before fun _ => rfl)

theorem finds_readQuery {derived : Parse Query} (hderived : Finds derived (ReadsAt scope)) :
    Finds (readQuery scope levels derived) (ReadsAt scope) := by
  intro c q c' h
  rw [readQuery_eq] at h
  obtain ⟨⟨limit, items⟩, c₁, hhead, h⟩ := run_bind_ok.mp h
  obtain ⟨source, c₂, hsource, h⟩ := run_bind_ok.mp h
  obtain ⟨_, c₃, hcheck, h⟩ := run_bind_ok.mp h
  obtain ⟨filter, c₄, htail, h⟩ := run_bind_ok.mp h
  cases h
  obtain ⟨hitems, rfl⟩ := run_checkItems.mp hcheck
  obtain ⟨depth, hhead⟩ := (measures_readHead scope).finds _ hhead
  obtain ⟨depth', htail⟩ := (measures_readTail scope).finds _ htail
  rcases readFrom_cases hsource with hflat | ⟨c₅, query, c₆, name, hopens, hquery, hcloses, rfl⟩
  · exact ⟨_, .flat hhead hflat hitems htail⟩
  · obtain ⟨inner, hquery⟩ := hderived hquery
    exact ⟨_, .derived hhead hopens hquery hcloses htail⟩

theorem finds_read (scope : Scope) (levels : Nat) : Finds (read scope levels) (ReadsAt scope) := by
  induction levels with
  | zero =>
    refine finds_readQuery fun h => ?_
    cases h
  | succ levels ih => exact finds_readQuery ih

/-- The readers of queries follow what stands in the text. -/
theorem measures_read (scope : Scope) : Measures (read scope) (ReadsAt scope) :=
  ⟨ReadsAt.needs, finds_read scope⟩

end Query
end TransactSql
