/-
TransactSql.Proofs.Predicate.Junctions — conditions are not bounded.

Conditions that are joined by `AND` and `OR` are grouped from the left,
by loops. Each word makes a node over everything that was read before it,
and so adds a node to the path from the root to the first comparison.
But it takes no level of the limit on the nesting, which only looks at
the operands of the comparisons: whatever the limit, there is a text with
flat operands whose tree has longer paths (`exists_chain`).
-/
import TransactSql.Proofs.Query.Depth
import TransactSql.Proofs.Statement.Script

namespace TransactSql

open Parse

namespace Predicate

/-- The number of `AND` and `OR` nodes on a longest path from the root to a comparison. -/
def junctions : Predicate → Nat
  | comparison _ _ _ => 0
  | and left right => max left.junctions right.junctions + 1
  | or left right => max left.junctions right.junctions + 1

/-- Comparisons stand between two cursors, with so many words `AND` between them. -/
def ConjunctionOf (scope : Scope) (depth : Nat) (c : Cursor) (ands : Nat) (c' : Cursor) : Prop :=
  ∃ parts, SeparatedAt (consumeKeyword .AND) (ComparisonAt scope) depth c parts c' ∧
    parts.2.length = ands

/-- The longest path, where conjunctions with so many words `AND` are joined by `OR`. -/
def longestPath (sizes : Nat × List Nat) : Nat :=
  sizes.2.foldl (fun longest next => max longest next + 1) sizes.1

variable {scope : Scope} {depth levels : Nat} {c c' : Cursor}

/-! ## The paths of what is read -/

theorem ComparisonAt.junctions_eq {p : Predicate} (h : ComparisonAt scope depth c p c') :
    p.junctions = 0 := by
  cases h
  rfl

/-- Each `AND` makes the path to the first comparison longer by one. -/
theorem junctions_foldl_and {first : Predicate} {more : List Predicate}
    (hmore : ∀ p ∈ more, p.junctions = 0) :
    (more.foldl and first).junctions = first.junctions + more.length := by
  induction more generalizing first with
  | nil => rfl
  | cons next more ih =>
    obtain ⟨hnext, hmore⟩ := List.forall_mem_cons.mp hmore
    rw [List.foldl_cons, ih hmore, junctions, hnext, Nat.max_zero, List.length_cons]
    omega

theorem junctions_foldl_or (first : Predicate) (more : List Predicate) :
    (more.foldl or first).junctions = longestPath (first.junctions, more.map junctions) := by
  induction more generalizing first with
  | nil => rfl
  | cons next more ih => exact ih (or first next)

theorem ConjunctionAt.conjunctionOf {p : Predicate} (h : ConjunctionAt scope depth c p c') :
    ConjunctionOf scope depth c p.junctions c' := by
  obtain ⟨parts, hparts, rfl⟩ := h
  have hzero : ∀ p ∈ parts.1 :: parts.2, p.junctions = 0 := by
    intro p hp
    obtain ⟨_, _, _, _, hcomparison⟩ := hparts.exists_le p hp
    exact hcomparison.junctions_eq
  obtain ⟨hfirst, hmore⟩ := List.forall_mem_cons.mp hzero
  refine ⟨parts, hparts, ?_⟩
  rw [junctions_foldl_and hmore, hfirst, Nat.zero_add]

/-- The paths of a condition are as long as the words in its text make them. -/
theorem ReadsAt.exists_sizes {p : Predicate} (h : ReadsAt scope depth c p c') :
    ∃ sizes, SeparatedAt (consumeKeyword .OR) (ConjunctionOf scope) depth c sizes c' ∧
      p.junctions = longestPath sizes := by
  obtain ⟨parts, hparts, rfl⟩ := h
  exact ⟨_, hparts.map junctions fun h => h.conjunctionOf, junctions_foldl_or _ _⟩

end Predicate

/-! ## Chains -/

section Chains

open Lexer

open Token (written)

variable {α : Type} {stop stop' : Token → Prop}

/-- Texts of some tokens with a token between each two of them. -/
def joined (s : Token) (first : List Token) (more : List (List Token)) : List Token :=
  first ++ more.flatMap (s :: ·)

/-- Items that can be followed by the separator are read one after the other. -/
theorem takes_joined {separator : Parse Bool} {item : Parse α} {s : Token}
    {first : List Token × α} {more : List (List Token × α)}
    (h : ∀ x ∈ first :: more, Takes stop item x.1 x.2) (hs : stop s)
    (hstop : ∀ t, stop' t → stop t) (hseparator : ∀ stop, Takes stop separator [s] true)
    (hend : Takes stop' separator [] false) :
    Takes stop' (separated separator item) (joined s first.1 (more.map (·.1)))
      (first.2, more.map (·.2)) := by
  suffices hrun : ∀ place rest last, Followed stop' rest → ∃ last',
      runSeparated separator (fun _ => item) place
        ⟨joined s first.1 (more.map (·.1)) ++ rest, none, last⟩ =
          (.ok (first.2, more.map (·.2)), ⟨rest, none, last'⟩) from
    fun rest last hrest => hrun 0 rest last hrest
  induction more generalizing first with
  | nil =>
    intro place rest last hrest
    have hfirst : Takes stop' ((fun _ : Nat => item) place) first.1 first.2 :=
      (h first List.mem_cons_self).mono hstop
    simp only [joined, List.map_nil, List.flatMap_nil, List.append_nil]
    exact takes_separated_last hfirst hend last hrest
  | cons next more ih =>
    intro place rest last hrest
    obtain ⟨hfirst, hmore⟩ := List.forall_mem_cons.mp h
    have hfirst : Takes stop ((fun _ : Nat => item) place) first.1 first.2 := hfirst
    exact takes_separated_cons hfirst hs hseparator fun last₁ =>
      ih hmore (place + 1) rest last₁ hrest

/-- A comparison, written so many times more with `AND` before it. -/
def chainText (comparison : String) (ands : Nat) : String :=
  " AND ".intercalate (List.replicate (ands + 1) comparison)

theorem opens_and : Opens " AND " [Token.reserved .AND] := by
  have hand : Renders "AND" [Token.reserved .AND] := renders_reserved .AND (by decide +kernel)
  have hopens := (opens_space.append_renders hand).append_opens ⟨' ', by decide, rfl⟩ opens_space
  have htext : " " ++ "AND" ++ " " = " AND " := by decide
  rwa [htext, List.nil_append, List.append_nil] at hopens

theorem renders_chainText {comparison : String} {ts : List Token} (h : Renders comparison ts)
    (ands : Nat) : Renders (chainText comparison ands)
      (joined (Token.reserved .AND) ts (List.replicate ands ts)) := by
  induction ands with
  | zero =>
    rw [chainText, List.replicate_one, String.intercalate_singleton, List.replicate_zero, joined,
      List.flatMap_nil, List.append_nil]
    exact h
  | succ ands ih =>
    have hchain := (h.append_opens ⟨' ', by decide, rfl⟩ opens_and).append_renders ih
    rw [chainText, List.replicate_succ, ← String.intercalate_cons_cons, List.append_assoc] at hchain
    exact hchain

namespace Predicate

/-- A chain of comparisons is read as the tree that it is grouped to, however long it is. -/
theorem takes_chain {ts : List Token} {p : Predicate}
    (h : Takes (fun t => t = Token.reserved .AND) (readComparison (Expression.read scope levels))
      ts p) (ands : Nat) :
    Takes (fun _ => False) (read scope levels)
      (joined (Token.reserved .AND) ts (List.replicate ands ts))
      ((List.replicate ands p).foldl and p) := by
  have hparts : ∀ x ∈ (ts, p) :: List.replicate ands (ts, p),
      Takes (fun t => t = Token.reserved .AND) (readComparison (Expression.read scope levels))
        x.1 x.2 := by
    intro x hx
    rw [← List.replicate_succ, List.mem_replicate] at hx
    rw [hx.2]
    exact h
  have hjoined : Takes (fun _ => False)
      (separated (consumeKeyword .AND) (readComparison (Expression.read scope levels))) _ _ :=
    takes_joined hparts rfl (fun _ => False.elim) (fun _ => takes_consume rfl _)
      (takes_consume_nothing fun _ => False.elim)
  rw [List.map_replicate, List.map_replicate] at hjoined
  have hconjunction : Takes (fun _ => False) (readConjunction (Expression.read scope levels)) _ _ :=
    hjoined.last (takes_pure _)
  exact (takes_separated_one hconjunction (takes_consume_nothing fun _ => False.elim)).last
    (takes_pure _)

/-- A literal is compared with another one. -/
theorem takes_comparison {left eq right : Token} {v v' : Value}
    (hleft : left.literalValue? = some v) (heq : eq.kind = .operator '=')
    (hright : right.literalValue? = some v') :
    Takes (fun t => t.arithmeticOperator? = none)
      (readComparison (Expression.read scope (levels + 1))) [left, eq, right]
      (.comparison .equal (.value v) (.value v')) := by
  have hoperand : ∀ {t : Token} {v : Value}, t.literalValue? = some v →
      Takes (fun t => t.arithmeticOperator? = none) (Expression.read scope (levels + 1)) [t]
        (.value v) := fun h =>
    takes_expression scope levels (fun _ => id) (takes_operand scope _ h _)
  have hoperator : ∀ stop, Takes stop readOperator [eq] .equal := by
    intro stop
    refine takes_expectNext ?_
    rw [heq]
    exact takes_pure _
  have hnone : eq.arithmeticOperator? = none := by
    rw [Token.arithmeticOperator?, heq]
    rfl
  have hrest : Takes (fun t => t.arithmeticOperator? = none)
      (readOperator >>= fun op => Expression.read scope (levels + 1) >>= fun e =>
        pure (comparison op (.value v) e)) [eq, right] (comparison .equal (.value v) (.value v')) :=
    .then hoperator ((hoperand hright).last (takes_pure _))
  exact (hoperand hleft).bind (fun _ _ => followed_cons hnone) hrest

/-- The text of a comparison that is true. -/
def sample : String := "1 = 1"

theorem sample_is_read : ∃ ts p, Renders sample ts ∧ p.junctions = 0 ∧
    ∀ scope levels, Takes (fun t => t = Token.reserved .AND)
      (readComparison (Expression.read scope (levels + 1))) ts p := by
  have hone : Whole (written (.number (.int 1)) "1") :=
    whole_of_tokens (by decide +kernel) rfl rfl
  have hright : Renders (" " ++ "1") [written (.number (.int 1)) "1"] :=
    opens_space.append_renders hone.renders
  have heq : Renders ("=" ++ (" " ++ "1"))
      [written (.operator '=') "=", written (.number (.int 1)) "1"] :=
    renders_operator rfl (fun _ => rfl) rfl hright
  have hleft : Opens ("1" ++ " ") [written (.number (.int 1)) "1"] :=
    hone.renders.append_opens ⟨' ', by decide, rfl⟩ opens_space
  have htext : "1" ++ " " ++ ("=" ++ (" " ++ "1")) = sample := by decide
  refine ⟨_, .comparison .equal (.value (.int 1)) (.value (.int 1)),
    htext ▸ hleft.append_renders heq, rfl,
    fun scope levels => (takes_comparison rfl rfl rfl).mono fun t ht => ?_⟩
  rw [ht]
  rfl

/-- There is a text that is read, with any level, and whose tree has a path of the length. -/
theorem exists_chain (scope : Scope) (levels ands : Nat) :
    ∃ p, ((read scope (levels + 1)).run (Cursor.ofText (chainText sample ands))).1 = .ok p ∧
      p.junctions = ands := by
  obtain ⟨ts, p, hrenders, hjunctions, htakes⟩ := sample_is_read
  obtain ⟨us, hus, hsame⟩ := (renders_chainText hrenders ands).written 0
  obtain ⟨last', hrun⟩ := takes_chain (htakes scope levels) ands [] "" nofun
  rw [List.append_nil] at hrun
  have halike : Cursor.Alike ⟨joined (Token.reserved .AND) ts (List.replicate ands ts), none, ""⟩
      (Cursor.ofText (chainText sample ands)) := by
    rw [cursor_ofText, hus]
    exact ⟨hsame, rfl, rfl⟩
  have hanswer := ((stopsBefore_read scope (levels + 1)).ignoresLayout _ _ halike).1
  rw [hrun] at hanswer
  refine ⟨_, hanswer.symm, ?_⟩
  rw [junctions_foldl_and, hjunctions, List.length_replicate, Nat.zero_add]
  intro q hq
  rw [List.eq_of_mem_replicate hq, hjunctions]

/-- Of every text that is read with some number of levels: the words `AND` and `OR` in it decide
how long the longest path of the tree is, and the limit does not look at them. The text is refused
for being nested too deeply exactly if an operand is deeper than the limit, and otherwise it is read
as the same tree. So there is a text for every length of a path, and it is read within the limit. -/
theorem junctions_of_read (scope : Scope) :
    (∀ levels c p c', (read scope levels).run c = (.ok p, c') →
      ∃ depth sizes, SeparatedAt (consumeKeyword .OR) (ConjunctionOf scope) depth c sizes c' ∧
        p.junctions = longestPath sizes ∧
        (((read scope maxNesting).run c).1 = .error .nestedTooDeeply ↔ maxNesting < depth) ∧
        (depth ≤ maxNesting → (read scope maxNesting).run c = (.ok p, c'))) ∧
    ∀ ands, ∃ p, ((read scope maxNesting).run (Cursor.ofText (chainText sample ands))).1 = .ok p ∧
      p.junctions = ands := by
  refine ⟨fun levels c p c' h => ?_, fun ands => exists_chain scope 127 ands⟩
  obtain ⟨depth, hreads, hfails, hruns⟩ := (measures_read scope).limit_exact h maxNesting
  obtain ⟨sizes, hsizes, hjunctions⟩ := ((hreads depth).mpr rfl).exists_sizes
  exact ⟨depth, sizes, hsizes, hjunctions, hfails, hruns⟩

/-- With `AND` written 129 times, a path is longer than the limit. -/
theorem junctions_gt_maxNesting :
    ∃ p, ((read ⟨Bindings.none, "", 0⟩ maxNesting).run
        (Cursor.ofText (chainText sample 129))).1 = .ok p ∧ maxNesting < p.junctions := by
  obtain ⟨p, hrun, hjunctions⟩ := exists_chain ⟨Bindings.none, "", 0⟩ 127 129
  refine ⟨p, hrun, ?_⟩
  rw [hjunctions]
  decide

end Predicate

end Chains

end TransactSql
