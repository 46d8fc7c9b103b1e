/-
TransactSql.Proofs.Predicate.Grouping — how comparisons are grouped.

A condition is written as comparisons with `AND` or `OR` between each two
of them. It is cut at every `OR` into groups (`Joined.groups`), and what
it comes to is defined on the groups, without a tree: the groups are
tried one after the other, and so are the comparisons of a group
(`tryAny`, `tryAll`). Both functions list what they try, and what they do
not try makes no difference to them.

The reader has one loop for `OR` around another for `AND`. That it reads
the groups of the text is shown for what the two loops have left to read:
the inner one what follows the first comparison, the outer one what
follows the first group. It is an induction over the text in one
direction (`ReadsJoined.run_eq`) and over the tokens in the other
(`exists_readsJoined`).
-/
import TransactSql.Proofs.Except
import TransactSql.Proofs.Parse.Following
import TransactSql.Proofs.Parse.Nesting
import TransactSql.Proofs.Parse.Reading

namespace TransactSql

open Parse

variable {α β : Type}

/-! ## Items with words between them -/

/-- A word between two comparisons. -/
inductive Junction where
  | and
  | or

def Junction.keyword : Junction → Keyword
  | and => .AND
  | or => .OR

/-- One item or more, with a word between each two of them. -/
inductive Joined (α : Type) where
  | last (item : α)
  | more (item : α) (junction : Junction) (later : Joined α)

/-- One item or more. -/
structure Group (α : Type) where
  first : α
  others : List α

def Group.toList (group : Group α) : List α := group.first :: group.others

namespace Joined

def map (f : α → β) : Joined α → Joined β
  | last item => .last (f item)
  | more item junction later => .more (f item) junction (later.map f)

/-- The items, cut at every `OR`: those before the first cut, and those behind each of the cuts. -/
def cut : Joined α → Group α × List (Group α)
  | last item => (⟨item, []⟩, [])
  | more item .and later => (⟨item, later.cut.1.toList⟩, later.cut.2)
  | more item .or later => (⟨item, []⟩, later.cut.1 :: later.cut.2)

/-- The groups that the items are cut into. -/
def groups (joined : Joined α) : List (List α) :=
  (joined.cut.1 :: joined.cut.2).map Group.toList

theorem cut_map (f : α → β) (joined : Joined α) :
    (joined.map f).cut = (⟨f joined.cut.1.first, joined.cut.1.others.map f⟩,
      joined.cut.2.map fun group => ⟨f group.first, group.others.map f⟩) := by
  induction joined with
  | last item => rfl
  | more item junction later ih => cases junction <;> simp [map, cut, ih, Group.toList]

theorem groups_map (f : α → β) (joined : Joined α) :
    (joined.map f).groups = joined.groups.map (List.map f) := by
  simp [groups, cut_map, Group.toList, Function.comp_def]

end Joined

/-! ## Trying one after the other -/

/-- Tries items up to the first one that is not true: what is tried, and what comes of it. -/
def tryAll (truth : α → Except Error Bool) : List α → List α × Except Error Bool
  | [] => ([], .ok true)
  | item :: more =>
    match truth item with
    | .ok true => (item :: (tryAll truth more).1, (tryAll truth more).2)
    | decided => ([item], decided)

/-- Tries groups up to the first one whose items are all true, or that fails. -/
def tryAny (truth : α → Except Error Bool) : List (List α) → List α × Except Error Bool
  | [] => ([], .ok false)
  | group :: more =>
    match tryAll truth group with
    | (tried, .ok false) => (tried ++ (tryAny truth more).1, (tryAny truth more).2)
    | decided => decided

section Trying

variable {truth truth' : α → Except Error Bool}

theorem tryAll_congr {items : List α}
    (h : ∀ item ∈ (tryAll truth items).1, truth' item = truth item) :
    tryAll truth' items = tryAll truth items := by
  induction items with
  | nil => rfl
  | cons item more ih =>
    have hitem : truth' item = truth item := by
      refine h item ?_
      unfold tryAll
      split <;> exact List.mem_cons_self
    unfold tryAll at h ⊢
    rw [hitem]
    split
    · next htrue =>
      rw [htrue] at h
      rw [ih fun later hlater => h later (List.mem_cons_of_mem _ hlater)]
    · rfl

/-- Only the items that are tried make a difference. -/
theorem tryAny_congr {groups : List (List α)}
    (h : ∀ item ∈ (tryAny truth groups).1, truth' item = truth item) :
    tryAny truth' groups = tryAny truth groups := by
  induction groups with
  | nil => rfl
  | cons group more ih =>
    have hgroup : tryAll truth' group = tryAll truth group := by
      refine tryAll_congr fun item hitem => h item ?_
      unfold tryAny
      split
      · next tried hfalse =>
        rw [hfalse] at hitem
        exact List.mem_append_left _ hitem
      · exact hitem
    unfold tryAny at h ⊢
    rw [hgroup]
    split
    · next tried hfalse =>
      rw [hfalse] at h
      rw [ih fun later hlater => h later (List.mem_append_right _ hlater)]
    · rfl

theorem tryAll_map (truth : β → Except Error Bool) (f : α → β) (items : List α) :
    tryAll truth (items.map f) =
      ((tryAll (fun item => truth (f item)) items).1.map f,
        (tryAll (fun item => truth (f item)) items).2) := by
  induction items with
  | nil => rfl
  | cons item more ih =>
    rw [List.map_cons, tryAll, tryAll]
    split
    · rw [ih]
      rfl
    · rfl

theorem tryAny_map (truth : β → Except Error Bool) (f : α → β) (groups : List (List α)) :
    tryAny truth (groups.map (List.map f)) =
      ((tryAny (fun item => truth (f item)) groups).1.map f,
        (tryAny (fun item => truth (f item)) groups).2) := by
  induction groups with
  | nil => rfl
  | cons group more ih =>
    rw [List.map_cons, tryAny, tryAny, tryAll_map, ih]
    rcases tryAll (fun item => truth (f item)) group with ⟨tried, e | _ | _⟩
    · rfl
    · rw [List.map_append]
    · rfl

end Trying

/-! ## Conditions -/

/-- A comparison of two expressions. -/
structure Comparison where
  op : ComparisonOperator
  left : Expression
  right : Expression

namespace Comparison

def condition (c : Comparison) : Predicate := .comparison c.op c.left c.right

/-- The truth of the comparison on a row. -/
def eval (row : Lookup) (c : Comparison) : Except Error Bool := c.condition.eval row

end Comparison

/-- The comparisons of a group, joined by `AND` from the left. -/
def Group.condition (group : Group Comparison) : Predicate :=
  (group.others.map Comparison.condition).foldl .and group.first.condition

/-- The groups, joined by `OR` from the left. -/
def Joined.condition (joined : Joined Comparison) : Predicate :=
  (joined.cut.2.map Group.condition).foldl .or joined.cut.1.condition

namespace Predicate

theorem eval_foldl_and (row : Lookup) (first : Predicate) (others : List Comparison) :
    ((others.map Comparison.condition).foldl and first).eval row =
      (first.eval row >>= fun isTrue =>
        if isTrue then (tryAll (Comparison.eval row) others).2 else pure false) := by
  induction others generalizing first with
  | nil =>
    rw [List.map_nil, List.foldl_nil]
    rcases first.eval row with _ | _ | _ <;> rfl
  | cons next others ih =>
    rw [List.map_cons, List.foldl_cons, ih, tryAll, Comparison.eval, eval]
    rcases first.eval row with _ | _ | _
    · rfl
    · rfl
    · show (next.condition.eval row >>= _) = _
      rcases next.condition.eval row with _ | _ | _ <;> rfl

theorem eval_group (row : Lookup) (group : Group Comparison) :
    group.condition.eval row = (tryAll (Comparison.eval row) group.toList).2 := by
  rw [Group.condition, eval_foldl_and, Group.toList, tryAll, Comparison.eval]
  rcases group.first.condition.eval row with _ | _ | _ <;> rfl

theorem eval_foldl_or (row : Lookup) (first : Predicate) (others : List (Group Comparison)) :
    ((others.map Group.condition).foldl or first).eval row =
      (first.eval row >>= fun isTrue =>
        if isTrue then pure true
        else (tryAny (Comparison.eval row) (others.map Group.toList)).2) := by
  induction others generalizing first with
  | nil =>
    rw [List.map_nil, List.foldl_nil]
    rcases first.eval row with _ | _ | _ <;> rfl
  | cons next others ih =>
    rw [List.map_cons, List.foldl_cons, ih, List.map_cons, tryAny, eval, eval_group]
    rcases first.eval row with _ | _ | _
    · rfl
    · show ((tryAll (Comparison.eval row) next.toList).2 >>= _) = _
      rcases tryAll (Comparison.eval row) next.toList with ⟨tried, _ | _ | _⟩ <;> rfl
    · rfl

/-- The tree of a condition comes to what its groups come to. -/
theorem eval_joined (row : Lookup) (joined : Joined Comparison) :
    joined.condition.eval row = (tryAny (Comparison.eval row) joined.groups).2 := by
  rw [Joined.condition, eval_foldl_or, Joined.groups, List.map_cons, tryAny, eval_group]
  rcases tryAll (Comparison.eval row) joined.cut.1.toList with ⟨tried, _ | _ | _⟩ <;> rfl

/-- Values that have an order are not NULL. -/
theorem isNull_of_compare {l r : Value} {ordering : Ordering}
    (h : l.compare r = .ok (some ordering)) : l.isNull = false ∧ r.isNull = false := by
  unfold Value.compare Value.compareWith at h
  split at h
  · next leftScalar rightScalar hleft hright =>
    rw [Value.isNull, Value.isNull, hleft, hright]
    exact ⟨rfl, rfl⟩
  · cases h

theorem compareValues_eq_true_iff {op : ComparisonOperator} {l r : Value} :
    compareValues op l r = .ok true ↔
      ∃ ordering, l.compare r = .ok (some ordering) ∧ op.holds ordering = true := by
  unfold compareValues
  rw [bind_eq_ok]
  constructor
  · rintro ⟨_ | ordering, hordering, h⟩
    · cases h
    · exact ⟨ordering, hordering, Except.ok.inj h⟩
  · rintro ⟨ordering, hordering, h⟩
    exact ⟨some ordering, hordering, congrArg Except.ok h⟩

/-- A comparison is true if both operands have values that are not NULL, in the right order. -/
theorem eval_comparison_eq_true_iff {op : ComparisonOperator} {left right : Expression}
    {row : Lookup} : (comparison op left right).eval row = .ok true ↔
      ∃ l r ordering, left.eval row = .ok l ∧ right.eval row = .ok r ∧
        l.isNull = false ∧ r.isNull = false ∧ l.compare r = .ok (some ordering) ∧
        op.holds ordering = true := by
  simp only [eval, bind_eq_ok, compareValues_eq_true_iff]
  constructor
  · rintro ⟨l, hl, r, hr, ordering, hordering, hholds⟩
    obtain ⟨hleft, hright⟩ := isNull_of_compare hordering
    exact ⟨l, r, ordering, hl, hr, hleft, hright, hordering, hholds⟩
  · rintro ⟨l, r, ordering, hl, hr, -, -, hordering, hholds⟩
    exact ⟨l, hl, r, hr, ordering, hordering, hholds⟩

end Predicate

/-! ## What the loops have left to read -/

namespace Parse

/-- The further items of a sequence. -/
def behind (separator : Parse Bool) (item : Parse α) : Parse (List α) := do
  if ← separator then
    let (first, more) ← separated separator item
    pure (first :: more)
  else pure []

/-- Neither the word nor a fault comes next. -/
def Without (keyword : Keyword) (c : Cursor) : Prop :=
  (c.tokens = [] → c.fault = none) ∧ ∀ t ∈ c.tokens.head?, t.isKeyword keyword = false

theorem run_consumeKeyword_cons (keyword : Keyword) (t : Token) (rest : List Token)
    (fault : Option Error) (last : String) :
    (consumeKeyword keyword).run ⟨t :: rest, fault, last⟩ =
      if t.isKeyword keyword then (.ok true, ⟨rest, fault, t.literal⟩)
      else (.ok false, ⟨t :: rest, fault, last⟩) := by
  unfold consumeKeyword consume
  rw [run_nextIf_bind]
  rfl

theorem run_consumeKeyword_true_iff {keyword : Keyword} {c c' : Cursor} :
    (consumeKeyword keyword).run c = (.ok true, c') ↔
      ∃ word rest, c.tokens = word :: rest ∧ word.isKeyword keyword = true ∧
        c' = ⟨rest, c.fault, word.literal⟩ := by
  obtain ⟨tokens, fault, last⟩ := c
  cases tokens with
  | nil =>
    refine ⟨fun h => ?_, nofun⟩
    cases fault <;> cases h
  | cons t rest =>
    rw [run_consumeKeyword_cons]
    constructor
    · intro h
      split at h
      · next hword =>
        cases h
        exact ⟨t, rest, rfl, hword, rfl⟩
      · cases h
    · rintro ⟨word, others, htokens, hword, rfl⟩
      cases htokens
      rw [if_pos hword]

theorem run_consumeKeyword_false_iff {keyword : Keyword} {c c' : Cursor} :
    (consumeKeyword keyword).run c = (.ok false, c') ↔ c' = c ∧ Without keyword c := by
  obtain ⟨tokens, fault, last⟩ := c
  cases tokens with
  | nil =>
    cases fault with
    | some e => exact ⟨nofun, fun h => absurd (h.2.1 rfl) nofun⟩
    | none =>
      constructor
      · intro h
        cases h
        exact ⟨rfl, fun _ => rfl, nofun⟩
      · rintro ⟨rfl, -⟩
        rfl
  | cons t rest =>
    rw [run_consumeKeyword_cons]
    constructor
    · intro h
      split at h
      · cases h
      · next hword =>
        cases h
        refine ⟨rfl, nofun, fun u hu => ?_⟩
        cases hu
        simpa using hword
    · rintro ⟨rfl, -, hword⟩
      rw [if_neg (by simp [hword t rfl])]

theorem run_behind_iff {keyword : Keyword} {item : Parse α} {c c' : Cursor} {xs : List α} :
    (behind (consumeKeyword keyword) item).run c = (.ok xs, c') ↔
      (xs = [] ∧ c' = c ∧ Without keyword c) ∨
      ∃ word rest first more, c.tokens = word :: rest ∧ word.isKeyword keyword = true ∧
        (separated (consumeKeyword keyword) item).run ⟨rest, c.fault, word.literal⟩ =
          (.ok (first, more), c') ∧ xs = first :: more := by
  unfold behind
  constructor
  · intro h
    obtain ⟨goesOn, c₁, hgoesOn, h⟩ := run_bind_ok.mp h
    cases goesOn with
    | false =>
      cases h
      exact .inl ⟨rfl, run_consumeKeyword_false_iff.mp hgoesOn⟩
    | true =>
      obtain ⟨word, rest, htokens, hword, rfl⟩ := run_consumeKeyword_true_iff.mp hgoesOn
      obtain ⟨⟨first, more⟩, c₂, hitems, h⟩ := run_bind_ok.mp h
      cases h
      exact .inr ⟨word, rest, first, more, htokens, hword, hitems, rfl⟩
  · rintro (⟨rfl, hends⟩ | ⟨word, rest, first, more, htokens, hword, hitems, rfl⟩)
    · exact run_bind_ok.mpr ⟨false, _, run_consumeKeyword_false_iff.mpr hends, rfl⟩
    · have hgoesOn := run_consumeKeyword_true_iff.mpr ⟨word, rest, htokens, hword, rfl⟩
      exact run_bind_ok.mpr ⟨true, _, hgoesOn, run_bind_ok.mpr ⟨(first, more), _, hitems, rfl⟩⟩

theorem run_separated_iff {keyword : Keyword} {item : Parse α} {c c' : Cursor} {first : α}
    {more : List α} :
    (separated (consumeKeyword keyword) item).run c = (.ok (first, more), c') ↔
      ∃ c₁, item.run c = (.ok first, c₁) ∧
        (behind (consumeKeyword keyword) item).run c₁ = (.ok more, c') := by
  have hbehind : separated (consumeKeyword keyword) item = item >>= fun first =>
      behind (consumeKeyword keyword) item >>= fun more => pure (first, more) := by
    have hseparates : Separates (consumeKeyword keyword) := separates_consume _
    rw [separated_eq hseparates item, behind]
    simp only [bind_assoc]
    congr
    funext first
    congr
    funext goesOn
    cases goesOn with
    | false => rfl
    | true =>
      rw [if_pos rfl, if_pos rfl, bind_assoc]
      rfl
  rw [hbehind]
  constructor
  · intro h
    obtain ⟨a, c₁, hitem, h⟩ := run_bind_ok.mp h
    obtain ⟨as, c₂, hmore, h⟩ := run_bind_ok.mp h
    cases h
    exact ⟨c₁, hitem, hmore⟩
  · rintro ⟨c₁, hitem, hmore⟩
    exact run_bind_ok.mpr ⟨first, c₁, hitem, run_bind_ok.mpr ⟨more, c', hmore, rfl⟩⟩

/-- A sequence that is joined to one answer from the left. -/
theorem run_joined_iff {keyword : Keyword} {item : Parse α} {join : α → α → α} {c c' : Cursor}
    {a : α} :
    (separated (consumeKeyword keyword) item >>= fun items =>
        pure (items.2.foldl join items.1)).run c = (.ok a, c') ↔
      ∃ first more c₁, item.run c = (.ok first, c₁) ∧
        (behind (consumeKeyword keyword) item).run c₁ = (.ok more, c') ∧
        a = more.foldl join first := by
  constructor
  · intro h
    obtain ⟨⟨first, more⟩, c₂, hitems, h⟩ := run_bind_ok.mp h
    cases h
    obtain ⟨c₁, hfirst, hmore⟩ := run_separated_iff.mp hitems
    exact ⟨first, more, c₁, hfirst, hmore, rfl⟩
  · rintro ⟨first, more, c₁, hfirst, hmore, rfl⟩
    exact run_bind_ok.mpr ⟨(first, more), c', run_separated_iff.mpr ⟨c₁, hfirst, hmore⟩, rfl⟩

end Parse

namespace Predicate

variable {expression : Parse Expression} {c c' : Cursor}

/-- The condition ends here: no word goes on with it, and no fault comes next. -/
def EndsAt (c : Cursor) : Prop := ∀ junction : Junction, Without junction.keyword c

/-- What is read of the text, comparison by comparison: from the first cursor on the comparisons are
read, and at the second one no further word comes. -/
inductive ReadsJoined (expression : Parse Expression) : Cursor → Joined Comparison → Cursor → Prop
  | last {c c' : Cursor} {item : Comparison}
      (hitem : (readComparison expression).run c = (.ok item.condition, c'))
      (hend : EndsAt c') : ReadsJoined expression c (.last item) c'
  | more {c c₁ c' : Cursor} {item : Comparison} {word : Token} {rest : List Token}
      {junction : Junction} {later : Joined Comparison}
      (hitem : (readComparison expression).run c = (.ok item.condition, c₁))
      (htokens : c₁.tokens = word :: rest) (hword : word.isKeyword junction.keyword = true)
      (hmore : ReadsJoined expression ⟨rest, c₁.fault, word.literal⟩ later c') :
      ReadsJoined expression c (.more item junction later) c'

theorem exists_comparison {p : Predicate} (h : (readComparison expression).run c = (.ok p, c')) :
    ∃ item : Comparison, p = item.condition := by
  obtain ⟨left, c₁, -, h⟩ := run_bind_ok.mp h
  obtain ⟨op, c₂, -, h⟩ := run_bind_ok.mp h
  obtain ⟨right, c₃, -, h⟩ := run_bind_ok.mp h
  cases h
  exact ⟨⟨op, left, right⟩, rfl⟩

theorem run_readConjunction_iff {p : Predicate} :
    (readConjunction expression).run c = (.ok p, c') ↔
      ∃ first more c₁, (readComparison expression).run c = (.ok first, c₁) ∧
        (behind (consumeKeyword .AND) (readComparison expression)).run c₁ = (.ok more, c') ∧
        p = more.foldl and first :=
  run_joined_iff

theorem without_and_of_or {word : Token} {rest : List Token} (htokens : c.tokens = word :: rest)
    (hword : word.isKeyword .OR = true) : Without .AND c := by
  refine ⟨fun hempty => ?_, fun t ht => ?_⟩
  · rw [htokens] at hempty
    cases hempty
  · rw [htokens] at ht
    cases ht
    have hkind : word.kind = .keyword .OR := by simpa [Token.isKeyword] using hword
    rw [Token.isKeyword, hkind]
    rfl

/-- The first comparison of the text, what the loop for `AND` reads behind it, and what the loop
for `OR` reads behind that. -/
theorem ReadsJoined.run_eq {joined : Joined Comparison}
    (h : ReadsJoined expression c joined c') :
    ∃ c₁ c₂,
      (readComparison expression).run c =
        (.ok joined.cut.1.first.condition, c₁) ∧
      (behind (consumeKeyword .AND) (readComparison expression)).run c₁ =
        (.ok (joined.cut.1.others.map Comparison.condition), c₂) ∧
      (behind (consumeKeyword .OR) (readConjunction expression)).run c₂ =
        (.ok (joined.cut.2.map Group.condition), c') := by
  induction h with
  | @last c c' item hitem hend =>
    exact ⟨c', c', hitem, run_behind_iff.mpr (.inl ⟨rfl, rfl, hend .and⟩),
      run_behind_iff.mpr (.inl ⟨rfl, rfl, hend .or⟩)⟩
  | @more c c₁ c' item word rest junction later hitem htokens hword _ ih =>
    obtain ⟨c₂, c₃, hfirst, hothers, hgroups⟩ := ih
    cases junction with
    | and =>
      refine ⟨c₁, c₃, hitem, run_behind_iff.mpr (.inr ?_), hgroups⟩
      exact ⟨word, rest, _, _, htokens, hword, run_separated_iff.mpr ⟨c₂, hfirst, hothers⟩, rfl⟩
    | or =>
      refine ⟨c₁, c₁, hitem, run_behind_iff.mpr (.inl ⟨rfl, rfl, without_and_of_or htokens hword⟩),
        run_behind_iff.mpr (.inr ?_)⟩
      refine ⟨word, rest, _, _, htokens, hword, run_separated_iff.mpr ⟨c₃, ?_, hgroups⟩, rfl⟩
      exact run_readConjunction_iff.mpr ⟨_, _, c₂, hfirst, hothers, rfl⟩

/-- Whatever the loops read, there are comparisons in the text for it. -/
theorem exists_readsJoined {c₁ c₂ : Cursor} {first : Predicate} {others groups : List Predicate}
    (hfirst : (readComparison expression).run c = (.ok first, c₁))
    (hothers : (behind (consumeKeyword .AND) (readComparison expression)).run c₁ =
      (.ok others, c₂))
    (hgroups : (behind (consumeKeyword .OR) (readConjunction expression)).run c₂ =
      (.ok groups, c')) :
    ∃ joined, ReadsJoined expression c joined c' ∧
      first = joined.cut.1.first.condition ∧
      others = joined.cut.1.others.map Comparison.condition ∧
      groups = joined.cut.2.map Group.condition := by
  induction hn : c.remaining using Nat.strongRecOn generalizing c c₁ c₂ first others groups with
  | ind n ih =>
    obtain ⟨item, rfl⟩ := exists_comparison hfirst
    -- behind a word there are fewer tokens than from the first comparison on
    have hless : ∀ {word : Token} {rest : List Token}, c₁.tokens = word :: rest →
        Cursor.remaining ⟨rest, c₁.fault, word.literal⟩ < n := by
      intro word rest htokens
      have hle := (readComparison expression).remaining_run_le c
      rw [hfirst, Cursor.remaining, htokens, hn] at hle
      exact hle
    rcases run_behind_iff.mp hothers with
      ⟨rfl, rfl, hand⟩ | ⟨word, rest, next, more, htokens, hword, hitems, rfl⟩
    · rcases run_behind_iff.mp hgroups with
        ⟨rfl, rfl, hor⟩ | ⟨word, rest, group, more, htokens, hword, hitems, rfl⟩
      · refine ⟨.last item, .last hfirst fun junction => ?_, rfl, rfl, rfl⟩
        cases junction with
        | and => exact hand
        | or => exact hor
      · obtain ⟨c₃, hgroup, hmore⟩ := run_separated_iff.mp hitems
        obtain ⟨next, others, c₄, hnext, hothers, rfl⟩ := run_readConjunction_iff.mp hgroup
        obtain ⟨later, hlater, rfl, rfl, rfl⟩ := ih _ (hless htokens) hnext hothers hmore rfl
        exact ⟨.more item .or later, .more hfirst htokens hword hlater, rfl, rfl, rfl⟩
    · obtain ⟨c₃, hnext, hmore⟩ := run_separated_iff.mp hitems
      obtain ⟨later, hlater, rfl, rfl, rfl⟩ := ih _ (hless htokens) hnext hmore hgroups rfl
      exact ⟨.more item .and later, .more hfirst htokens hword hlater, rfl, rfl, rfl⟩

/-- The reader reads the comparisons of the text, all of them, as the tree of their groups. -/
theorem run_read_iff {scope : Scope} {levels : Nat} {p : Predicate} :
    (read scope levels).run c = (.ok p, c') ↔
      ∃ joined, ReadsJoined (Expression.read scope levels) c joined c' ∧
        p = joined.condition := by
  have hread : (read scope levels).run c = (.ok p, c') ↔ ∃ group groups c₂,
      (readConjunction (Expression.read scope levels)).run c = (.ok group, c₂) ∧
      (behind (consumeKeyword .OR) (readConjunction (Expression.read scope levels))).run c₂ =
        (.ok groups, c') ∧
      p = groups.foldl or group := run_joined_iff
  rw [hread]
  constructor
  · rintro ⟨group, groups, c₂, hgroup, hgroups, rfl⟩
    obtain ⟨first, others, c₁, hfirst, hothers, rfl⟩ := run_readConjunction_iff.mp hgroup
    obtain ⟨joined, hjoined, rfl, rfl, rfl⟩ := exists_readsJoined hfirst hothers hgroups
    exact ⟨joined, hjoined, rfl⟩
  · rintro ⟨joined, hjoined, rfl⟩
    obtain ⟨c₁, c₂, hfirst, hothers, hgroups⟩ := hjoined.run_eq
    have hgroup := run_readConjunction_iff.mpr ⟨_, _, c₁, hfirst, hothers, rfl⟩
    exact ⟨_, _, c₂, hgroup, hgroups, rfl⟩

/-! ## What is written -/

/-- The tokens are comparisons with words between them, each of which is read as one if it stands
alone. -/
inductive Spells (expression : Parse Expression) : List Token → Joined Comparison → Prop
  | last {ts : List Token} {item : Comparison}
      (hitem : Takes (fun _ => False) (readComparison expression) ts item.condition) :
      Spells expression ts (.last item)
  | more {ts us : List Token} {item : Comparison} {word : Token} {junction : Junction}
      {later : Joined Comparison}
      (hitem : Takes (fun _ => False) (readComparison expression) ts item.condition)
      (hword : word.isKeyword junction.keyword = true) (hlater : Spells expression us later) :
      Spells expression (ts ++ word :: us) (.more item junction later)

theorem endsAt_end (last : String) : EndsAt ⟨[], none, last⟩ := fun _ => ⟨fun _ => rfl, nofun⟩

/-- A comparison that is read if it stands alone is read before a word as well. -/
theorem run_before_word (hexpression : StopsBefore Token.EndsExpression expression)
    {ts us : List Token} {item : Comparison} {word : Token} {keyword : Keyword}
    (h : Takes (fun _ => False) (readComparison expression) ts item.condition)
    (hword : word.isKeyword keyword = true) (last : String) :
    ∃ last', (readComparison expression).run ⟨ts ++ word :: us, none, last⟩ =
      (.ok item.condition, ⟨word :: us, none, last'⟩) := by
  obtain ⟨last', hrun⟩ := takes_alone_iff.mp h last
  obtain ⟨taken, htokens, hignores⟩ :=
    (stopsBefore_readComparison (fun _ => id) hexpression).ignoresRest _ _ _ hrun
  obtain rfl : ts = taken := htokens.trans taken.append_nil
  exact ⟨last', hignores word us none (.inl (Token.endsExpression_of_isKeyword hword))⟩

theorem Spells.exists_readsJoined (hexpression : StopsBefore Token.EndsExpression expression)
    {ts : List Token} {joined : Joined Comparison} (h : Spells expression ts joined)
    (last : String) :
    ∃ last', ReadsJoined expression ⟨ts, none, last⟩ joined ⟨[], none, last'⟩ := by
  induction h generalizing last with
  | last hitem =>
    obtain ⟨last', hrun⟩ := takes_alone_iff.mp hitem last
    exact ⟨last', .last hrun (endsAt_end last')⟩
  | more hitem hword _ ih =>
    obtain ⟨last₁, hrun⟩ := run_before_word hexpression hitem hword last
    obtain ⟨last', hlater⟩ := ih _
    exact ⟨last', .more hrun rfl hword hlater⟩

/-! ## What is read, and what it comes to -/

/-- Comparisons with words between them are read to the last one, and whatever is read, all that
stands in the text up to where no word follows, is the tree of the groups. On a row the tree comes
to what comes of trying the groups, where only the comparisons that are tried make a difference: at
any other place another comparison may stand, and may fail. And a comparison is true exactly if both
operands have values that are not NULL, in an order that satisfies the operator. -/
theorem read_joined (scope : Scope) (levels : Nat) :
    (∀ ts joined, Spells (Expression.read scope levels) ts joined →
      Takes (fun _ => False) (read scope levels) ts joined.condition) ∧
    (∀ c p c', (read scope levels).run c = (.ok p, c') ↔
      ∃ joined, ReadsJoined (Expression.read scope levels) c joined c' ∧ p = joined.condition) ∧
    (∀ (joined : Joined Comparison) row,
      joined.condition.eval row = (tryAny (Comparison.eval row) joined.groups).2) ∧
    (∀ (Place : Type) (places : Joined Place) (at₁ at₂ : Place → Comparison) row₁ row₂,
      (∀ place ∈ (tryAny (fun place => (at₁ place).eval row₁) places.groups).1,
        (at₂ place).eval row₂ = (at₁ place).eval row₁) →
      (places.map at₂).condition.eval row₂ = (places.map at₁).condition.eval row₁) ∧
    ∀ (comparison : Comparison) row, comparison.eval row = .ok true ↔
      ∃ l r ordering, comparison.left.eval row = .ok l ∧ comparison.right.eval row = .ok r ∧
        l.isNull = false ∧ r.isNull = false ∧ l.compare r = .ok (some ordering) ∧
        comparison.op.holds ordering = true := by
  refine ⟨fun ts joined h => takes_alone_iff.mpr fun last => ?_, fun c p c' => run_read_iff,
    fun joined row => eval_joined row joined, fun Place places at₁ at₂ row₁ row₂ h => ?_,
    fun comparison row => eval_comparison_eq_true_iff⟩
  · obtain ⟨last', hjoined⟩ := h.exists_readsJoined (Expression.stopsBefore_read scope levels) last
    exact ⟨last', run_read_iff.mpr ⟨joined, hjoined, rfl⟩⟩
  · rw [eval_joined, eval_joined, Joined.groups_map, Joined.groups_map, tryAny_map, tryAny_map,
      tryAny_congr h]

/-- Of `NULL = 1 AND x = 1 OR 1 = 1` everything is read, and it is true without a column `x`: the
first group is left before `x` is looked up. -/
theorem read_joined_of_two_groups :
    ∃ p last', (read ⟨Bindings.none, "", 0⟩ 2).run
        ⟨[⟨.keyword .NULL, "NULL", 0⟩, ⟨.operator '=', "=", 5⟩, ⟨.number (.int 1), "1", 7⟩,
          ⟨.keyword .AND, "AND", 9⟩, ⟨.word, "x", 13⟩, ⟨.operator '=', "=", 15⟩,
          ⟨.number (.int 1), "1", 17⟩, ⟨.keyword .OR, "OR", 19⟩, ⟨.number (.int 1), "1", 22⟩,
          ⟨.operator '=', "=", 24⟩, ⟨.number (.int 1), "1", 26⟩], none, ""⟩ =
        (.ok p, ⟨[], none, last'⟩) ∧ p.eval Lookup.noRow = .ok true := by
  obtain ⟨hread, -, heval, -⟩ := read_joined ⟨Bindings.none, "", 0⟩ 2
  let equals (e : Expression) : Comparison := ⟨.equal, e, .value (.int 1)⟩
  let joined : Joined Comparison :=
    .more (equals (.value (Value.null .int))) .and
      (.more (equals (.reference ["x"])) .or (.last (equals (.value (.int 1)))))
  have hone : Spells (Expression.read ⟨Bindings.none, "", 0⟩ 2)
      [⟨.number (.int 1), "1", 22⟩, ⟨.operator '=', "=", 24⟩, ⟨.number (.int 1), "1", 26⟩]
      (.last (equals (.value (.int 1)))) :=
    .last (takes_alone_iff.mpr fun last => ⟨"1", rfl⟩)
  have hunknown : Takes (fun _ => False) (readComparison (Expression.read ⟨Bindings.none, "", 0⟩ 2))
      [⟨.word, "x", 13⟩, ⟨.operator '=', "=", 15⟩, ⟨.number (.int 1), "1", 17⟩]
      (equals (.reference ["x"])).condition :=
    takes_alone_iff.mpr fun last => ⟨"1", rfl⟩
  have hnull : Takes (fun _ => False) (readComparison (Expression.read ⟨Bindings.none, "", 0⟩ 2))
      [⟨.keyword .NULL, "NULL", 0⟩, ⟨.operator '=', "=", 5⟩, ⟨.number (.int 1), "1", 7⟩]
      (equals (.value (Value.null .int))).condition :=
    takes_alone_iff.mpr fun last => ⟨"1", rfl⟩
  have hand : Token.isKeyword ⟨.keyword .AND, "AND", 9⟩ Junction.and.keyword = true := rfl
  have hor : Token.isKeyword ⟨.keyword .OR, "OR", 19⟩ Junction.or.keyword = true := rfl
  have hspells := Spells.more hnull hand (.more hunknown hor hone)
  obtain ⟨last', hrun⟩ := takes_alone_iff.mp (hread _ joined hspells) ""
  exact ⟨joined.condition, last', hrun, heval joined Lookup.noRow⟩

end Predicate
end TransactSql
