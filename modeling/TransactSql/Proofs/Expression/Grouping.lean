/-
TransactSql.Proofs.Expression.Grouping — how operands are grouped.

An expression is a chain of operands with operators between them. The
grammar has two levels, and both group from the left: the chain is cut
before every additive operator, what stands between two cuts is grouped
first, and then the groups are (`Chain.grouped`).

The reader goes another way. It reads the whole right-hand side first,
which is then grouped already, and puts each operator before it with
`Expression.group`. That a chain with one operand more in front comes out
right is `group_grouped`; the rest follows by induction on the levels.
-/
import TransactSql.Proofs.Expression.Plain
import TransactSql.Proofs.Parse.Following

namespace TransactSql

open Parse

/-- Operands with the operators between them, in the order of the text. -/
structure Chain where
  first : Expression
  rest : List (ArithmeticOperator × Expression)

namespace Chain

/-- The chain with one operand more in front. -/
def cons (left : Expression) (op : ArithmeticOperator) (chain : Chain) : Chain :=
  ⟨left, (op, chain.first) :: chain.rest⟩

/-- The operands, grouped from the left. -/
def groupLeft (chain : Chain) : Expression :=
  chain.rest.foldl (fun left next => .binary next.1 left next.2) chain.first

/-- The operators of the lower level. Only multiplication and division bind tighter. -/
def additive : List ArithmeticOperator := [.add, .subtract, .modulo, .bitAnd, .bitOr, .bitXor]

theorem precedence_of_mem {op : ArithmeticOperator} (h : op ∈ additive) :
    op.precedence = .additive := by
  revert h
  cases op <;> decide

theorem precedence_of_not_mem {op : ArithmeticOperator} (h : op ∉ additive) :
    op.precedence = .multiplicative := by
  revert h
  cases op <;> decide

/-- The chain, cut before every additive operator: the run before the first cut, and the runs
behind the cuts with the operators before them. -/
def runs (first : Expression) :
    List (ArithmeticOperator × Expression) → Chain × List (ArithmeticOperator × Chain)
  | [] => (⟨first, []⟩, [])
  | (op, next) :: rest =>
    let later := runs next rest
    if op ∈ additive then (⟨first, []⟩, (op, later.1) :: later.2)
    else (.cons first op later.1, later.2)

/-- The operands in two levels: every run is grouped from the left, and so are the runs. -/
def grouped (chain : Chain) : Expression :=
  let cut := runs chain.first chain.rest
  groupLeft ⟨cut.1.groupLeft, cut.2.map fun next => (next.1, next.2.groupLeft)⟩

/-! ## Runs -/

variable {first : Expression} {rest : List (ArithmeticOperator × Expression)}

theorem runs_first (first : Expression) (rest : List (ArithmeticOperator × Expression)) :
    (runs first rest).1.first = first := by
  cases rest with
  | nil => rfl
  | cons next rest =>
    unfold runs
    dsimp only
    split <;> rfl

/-- Within a run there are no additive operators. -/
theorem precedence_of_mem_run {next : ArithmeticOperator × Expression}
    (h : next ∈ (runs first rest).1.rest) : next.1.precedence = .multiplicative := by
  induction rest generalizing first with
  | nil => cases h
  | cons head rest ih =>
    obtain ⟨op, operand⟩ := head
    unfold runs at h
    by_cases hop : op ∈ additive
    · rw [if_pos hop] at h
      cases h
    · rw [if_neg hop] at h
      rcases List.mem_cons.mp h with rfl | h
      · exact precedence_of_not_mem hop
      · exact ih h

/-- Before a run there is an additive operator. -/
theorem precedence_of_mem_runs {next : ArithmeticOperator × Chain}
    (h : next ∈ (runs first rest).2) : next.1.precedence = .additive := by
  induction rest generalizing first with
  | nil => cases h
  | cons head rest ih =>
    obtain ⟨op, operand⟩ := head
    unfold runs at h
    by_cases hop : op ∈ additive
    · rw [if_pos hop] at h
      rcases List.mem_cons.mp h with rfl | h
      · exact precedence_of_mem hop
      · exact ih h
    · rw [if_neg hop] at h
      exact ih h

/-- The cuts leave nothing out. -/
theorem runs_flatten (first : Expression) (rest : List (ArithmeticOperator × Expression)) :
    (runs first rest).1.rest ++
      (runs first rest).2.flatMap (fun next => (next.1, next.2.first) :: next.2.rest) = rest := by
  induction rest generalizing first with
  | nil => rfl
  | cons head rest ih =>
    obtain ⟨op, operand⟩ := head
    unfold runs
    by_cases hop : op ∈ additive
    · simp [hop, runs_first, ih]
    · simp [hop, cons, runs_first, ih]

end Chain

/-! ## Putting an operator before a chain -/

namespace Expression

/-- The expression is an operand: no operator stands at its root, and it has no alias. -/
def isOperand : Expression → Bool
  | binary _ _ _ => false
  | named _ _ => false
  | _ => true

theorem group_of_isOperand {e : Expression} (h : e.isOperand = true) (op : ArithmeticOperator)
    (left : Expression) : group op left e = binary op left e := by
  cases e <;> first | rfl | cases h

/-- An operator before which nothing in the chain binds tighter goes to the first operand. -/
theorem group_groupLeft {op : ArithmeticOperator} {rest : List (ArithmeticOperator × Expression)}
    (h : ∀ next ∈ rest, next.1.precedence.bindsTighterThan op.precedence = false)
    (left first : Expression) : group op left (Chain.groupLeft ⟨first, rest⟩) =
      Chain.groupLeft ⟨group op left first, rest⟩ := by
  induction rest generalizing first with
  | nil => rfl
  | cons next rest ih =>
    have hrest := ih (fun n hn => h n (List.mem_cons_of_mem _ hn)) (binary next.1 first next.2)
    have hnext : group op left (binary next.1 first next.2) =
        binary next.1 (group op left first) next.2 := by
      rw [group, h next List.mem_cons_self]
      rfl
    rw [hnext] at hrest
    exact hrest

/-- An additive operator is put before a run as a whole. -/
theorem group_run {op : ArithmeticOperator} (hop : op ∈ Chain.additive) {run : Chain}
    (hfirst : run.first.isOperand = true)
    (hrun : ∀ next ∈ run.rest, next.1.precedence = .multiplicative) (left : Expression) :
    group op left run.groupLeft = binary op left run.groupLeft := by
  obtain ⟨first, rest⟩ := run
  rcases List.eq_nil_or_concat rest with rfl | ⟨init, last, rfl⟩
  · exact group_of_isOperand hfirst op left
  · have hlast := hrun last (by simp)
    simp only [Chain.groupLeft, List.concat_eq_append, List.foldl_append, List.foldl_cons,
      List.foldl_nil]
    rw [group, if_pos (by rw [Chain.precedence_of_mem hop, hlast]; rfl)]

/-- No operator binds tighter than a multiplicative one. -/
theorem bindsTighterThan_of_not_additive {op : ArithmeticOperator}
    (h : op ∉ Chain.additive) (next : ArithmeticOperator) :
    next.precedence.bindsTighterThan op.precedence = false := by
  rw [Chain.precedence_of_not_mem h]
  cases next <;> rfl

/-- A chain that is grouped already, with one operand more put before it. -/
theorem group_grouped {chain : Chain} (h : chain.first.isOperand = true) (op : ArithmeticOperator)
    (left : Expression) : group op left chain.grouped = (chain.cons left op).grouped := by
  obtain ⟨first, rest⟩ := chain
  have hfirst : (Chain.runs first rest).1.first.isOperand = true := by
    rw [Chain.runs_first]
    exact h
  unfold Chain.grouped
  by_cases hop : op ∈ Chain.additive
  · have hruns : ∀ next ∈ (Chain.runs first rest).2.map fun next => (next.1, next.2.groupLeft),
        next.1.precedence.bindsTighterThan op.precedence = false := by
      intro next hnext
      obtain ⟨run, hmem, rfl⟩ := List.mem_map.mp hnext
      rw [Chain.precedence_of_mem_runs hmem, Chain.precedence_of_mem hop]
      rfl
    rw [group_groupLeft hruns,
      group_run hop hfirst fun _ hmem => Chain.precedence_of_mem_run hmem]
    simp only [Chain.cons, Chain.runs, if_pos hop]
    rfl
  · have htight : ∀ next : ArithmeticOperator × Expression,
        next.1.precedence.bindsTighterThan op.precedence = false := fun next =>
      bindsTighterThan_of_not_additive hop next.1
    rw [group_groupLeft fun next _ => htight next]
    simp only [Chain.cons, Chain.runs, if_neg hop]
    congr 2
    calc group op left (Chain.groupLeft (Chain.runs first rest).1)
        = Chain.groupLeft ⟨group op left (Chain.runs first rest).1.first,
            (Chain.runs first rest).1.rest⟩ := group_groupLeft (fun next _ => htight next) left _
      _ = Chain.groupLeft ⟨binary op left (Chain.runs first rest).1.first,
            (Chain.runs first rest).1.rest⟩ := by rw [group_of_isOperand hfirst]
      _ = Chain.groupLeft ⟨left, (op, (Chain.runs first rest).1.first) ::
            (Chain.runs first rest).1.rest⟩ := rfl

/-! ## The operands of an expression -/

/-- The operands of an expression and the operators between them, from left to right. -/
def inOrder : Expression → Chain
  | binary op left right =>
    ⟨left.inOrder.first, left.inOrder.rest ++ (op, right.inOrder.first) :: right.inOrder.rest⟩
  | operand => ⟨operand, []⟩

theorem inOrder_of_isOperand {e : Expression} (h : e.isOperand = true) : e.inOrder = ⟨e, []⟩ := by
  cases e <;> first | rfl | cases h

theorem inOrder_groupLeft (first : Expression) (rest : List (ArithmeticOperator × Expression)) :
    (Chain.groupLeft ⟨first, rest⟩).inOrder = ⟨first.inOrder.first, first.inOrder.rest ++
      rest.flatMap fun next => (next.1, next.2.inOrder.first) :: next.2.inOrder.rest⟩ := by
  induction rest generalizing first with
  | nil => simp [Chain.groupLeft]
  | cons next rest ih =>
    have hrest := ih (binary next.1 first next.2)
    simp only [inOrder, List.append_assoc, List.cons_append] at hrest
    rw [List.flatMap_cons, List.cons_append]
    exact hrest

end Expression

namespace Chain

/-- Every operand of the chain is one. -/
def Operands (chain : Chain) : Prop :=
  chain.first.isOperand = true ∧ ∀ next ∈ chain.rest, next.2.isOperand = true

theorem flatMap_inOrder {rest : List (ArithmeticOperator × Expression)}
    (h : ∀ next ∈ rest, next.2.isOperand = true) :
    rest.flatMap (fun next => (next.1, next.2.inOrder.first) :: next.2.inOrder.rest) = rest := by
  induction rest with
  | nil => rfl
  | cons next rest ih =>
    have hnext := Expression.inOrder_of_isOperand (h next List.mem_cons_self)
    rw [List.flatMap_cons, hnext, ih fun n hn => h n (List.mem_cons_of_mem _ hn)]
    rfl

theorem inOrder_groupLeft {chain : Chain} (h : chain.Operands) :
    chain.groupLeft.inOrder = chain := by
  obtain ⟨first, rest⟩ := chain
  rw [Expression.inOrder_groupLeft, Expression.inOrder_of_isOperand h.1, flatMap_inOrder h.2]
  rfl

theorem operands_runs {first : Expression} {rest : List (ArithmeticOperator × Expression)}
    (h : Operands ⟨first, rest⟩) :
    (runs first rest).1.Operands ∧ ∀ next ∈ (runs first rest).2, next.2.Operands := by
  induction rest generalizing first with
  | nil => exact ⟨h, List.forall_mem_nil _⟩
  | cons head rest ih =>
    obtain ⟨op, operand⟩ := head
    obtain ⟨hfirst, hrest⟩ := h
    have hoperand : operand.isOperand = true := hrest (op, operand) List.mem_cons_self
    obtain ⟨hrun, hruns⟩ := ih ⟨hoperand, fun n hn => hrest n (List.mem_cons_of_mem _ hn)⟩
    unfold runs
    by_cases hop : op ∈ additive
    · rw [if_pos hop]
      exact ⟨⟨hfirst, List.forall_mem_nil _⟩, List.forall_mem_cons.mpr ⟨hrun, hruns⟩⟩
    · rw [if_neg hop]
      exact ⟨⟨hfirst, List.forall_mem_cons.mpr ⟨hrun.1, hrun.2⟩⟩, hruns⟩

/-- Grouping leaves no operand and no operator out, and keeps their order. -/
theorem inOrder_grouped {chain : Chain} (h : chain.Operands) : chain.grouped.inOrder = chain := by
  obtain ⟨first, rest⟩ := chain
  obtain ⟨hrun, hruns⟩ := operands_runs h
  have hflatten : (runs first rest).2.flatMap (fun next =>
      (next.1, next.2.groupLeft.inOrder.first) :: next.2.groupLeft.inOrder.rest) =
      (runs first rest).2.flatMap fun next => (next.1, next.2.first) :: next.2.rest := by
    rw [List.flatMap_def, List.flatMap_def]
    refine congrArg List.flatten (List.map_congr_left fun next hnext => ?_)
    rw [inOrder_groupLeft (hruns next hnext)]
  unfold grouped
  rw [Expression.inOrder_groupLeft, inOrder_groupLeft hrun, runs_first, List.flatMap_map,
    hflatten, runs_flatten]

end Chain

/-! ## Reading a chain -/

namespace Expression

variable {scope : Scope}

/-- What is read of the text, operand by operand: with so many levels left, the chain is read
from the first cursor on, and the second one is where it ends. -/
inductive ReadsChain (scope : Scope) : Nat → Cursor → Chain → Cursor → Prop
  | last {levels : Nat} {c c₁ c' : Cursor} {operand : Expression}
      (hoperand : (readOperand scope (readers scope levels)).run c = (.ok operand, c₁))
      (hend : nextOperator?.run c₁ = (.ok none, c')) :
      ReadsChain scope (levels + 1) c ⟨operand, []⟩ c'
  | more {levels : Nat} {c c₁ c₂ c' : Cursor} {operand : Expression} {op : ArithmeticOperator}
      {chain : Chain}
      (hoperand : (readOperand scope (readers scope levels)).run c = (.ok operand, c₁))
      (hop : nextOperator?.run c₁ = (.ok (some op), c₂))
      (hmore : ReadsChain scope levels c₂ chain c') :
      ReadsChain scope (levels + 1) c (chain.cons operand op) c'

theorem yields_isOperand_readCall (below : Readers) (name : QualifiedName) :
    (readCall below name).Yields fun e => e.isOperand = true := by
  unfold readCall
  split
  · exact yields_fail _ _
  · refine yields_bind _ fun arguments => ?_
    split
    · exact yields_pure rfl
    · exact yields_fail _ _

theorem yields_isOperand_readName (below : Readers) (first : String) :
    (readName below first).Yields fun e => e.isOperand = true := by
  have hafter : ∀ more : QualifiedName, (peekIs (·.kind == .openParen) >>= fun isCall =>
      if isCall then readCall below (first :: more)
      else pure (reference (first :: more))).Yields fun e => e.isOperand = true := fun more =>
    yields_bind _ fun _ => yields_ite (yields_isOperand_readCall below _) (yields_pure rfl)
  exact yields_bind _ fun _ => yields_ite (yields_bind _ hafter) (yields_bind _ hafter)

theorem yields_isOperand {below : Readers}
    (hsigned : below.signed.Yields fun e => e.isOperand = true) (scope : Scope) :
    (readOperand scope below).Yields fun e => e.isOperand = true := by
  refine yields_bind _ fun token => ?_
  split
  · exact yields_pure rfl
  · exact yields_pure rfl
  · exact yields_pure rfl
  · exact yields_bind _ fun _ => yields_pure rfl
  · exact yields_bind _ fun _ => yields_pure rfl
  · exact yields_bind _ fun _ => yields_pure rfl
  · exact hsigned
  · exact yields_bind _ fun _ => yields_bind _ fun _ => yields_pure rfl
  · exact yields_isOperand_readName below _
  · exact yields_isOperand_readName below _
  · exact yields_fail _ _

/-- What is read as an operand is one, on every level. -/
theorem yields_isOperand_readOperand (scope : Scope) (levels : Nat) :
    (readOperand scope (readers scope levels)).Yields fun e => e.isOperand = true := by
  induction levels with
  | zero => exact yields_isOperand (yields_fail _ _) scope
  | succ levels ih => exact yields_isOperand ih scope

theorem ReadsChain.operands {levels : Nat} {c c' : Cursor} {chain : Chain}
    (h : ReadsChain scope levels c chain c') : chain.Operands := by
  induction h with
  | last hoperand _ =>
    exact ⟨yields_isOperand_readOperand scope _ _ _ _ hoperand, List.forall_mem_nil _⟩
  | more hoperand _ _ ih =>
    refine ⟨yields_isOperand_readOperand scope _ _ _ _ hoperand, ?_⟩
    exact List.forall_mem_cons.mpr ⟨ih.1, ih.2⟩

/-- The reader answers the grouping of the chain that it reads. -/
theorem exists_readsChain {levels : Nat} {c c' : Cursor} {e : Expression}
    (h : (read scope levels).run c = (.ok e, c')) :
    ∃ chain, ReadsChain scope levels c chain c' ∧ e = chain.grouped := by
  induction levels generalizing c e with
  | zero => cases h
  | succ levels ih =>
    rw [read_succ] at h
    obtain ⟨left, c₁, hoperand, h⟩ := run_bind_ok.mp h
    obtain ⟨op?, c₂, hop, h⟩ := run_bind_ok.mp h
    cases op? with
    | none =>
      cases h
      exact ⟨⟨e, []⟩, .last hoperand hop, rfl⟩
    | some op =>
      obtain ⟨right, c₃, hright, h⟩ := run_bind_ok.mp h
      cases h
      obtain ⟨chain, hchain, rfl⟩ := ih hright
      refine ⟨chain.cons left op, .more hoperand hop hchain, ?_⟩
      have hplain := yields_read scope.supplies_any levels _ _ _ hright
      rw [hplain.join_eq, group_grouped hchain.operands.1]

/-! ## Reading an alias -/

theorem run_nextOperator? (t : Token) (rest : List Token) (fault : Option Error) (last : String) :
    nextOperator?.run ⟨t :: rest, fault, last⟩ =
      match t.arithmeticOperator? with
      | some op => (.ok (some op), ⟨rest, fault, t.literal⟩)
      | none => (.ok none, ⟨t :: rest, fault, last⟩) := by
  unfold nextOperator?
  rw [run_nextIf_bind]
  cases h : t.arithmeticOperator? with
  | none => rfl
  | some op => simp [h]

theorem eq_of_nextOperator?_none {c c' : Cursor} (h : nextOperator?.run c = (.ok none, c')) :
    c' = c := by
  obtain ⟨tokens, fault, last⟩ := c
  cases tokens with
  | nil =>
    cases fault <;> cases h
    rfl
  | cons t rest =>
    rw [run_nextOperator?] at h
    split at h <;> cases h
    rfl

theorem exists_token_of_nextOperator?_some {c c' : Cursor} {op : ArithmeticOperator}
    (h : nextOperator?.run c = (.ok (some op), c')) :
    ∃ t, c.tokens = t :: c'.tokens ∧ t.arithmeticOperator? = some op ∧
      c'.lastLiteral = t.literal := by
  obtain ⟨tokens, fault, last⟩ := c
  cases tokens with
  | nil => cases fault <;> cases h
  | cons t rest =>
    rw [run_nextOperator?] at h
    split at h <;> cases h
    exact ⟨t, rfl, by assumption, rfl⟩

theorem run_expectAlias {t : Token} {name : String} (h : t.aliasText? = some name)
    (rest : List Token) (fault : Option Error) (last : String) :
    expectAlias.run ⟨t :: rest, fault, last⟩ = (.ok name, ⟨rest, fault, t.literal⟩) := by
  unfold expectAlias expectText
  rw [run_expectNext_bind, h]
  rfl

theorem run_consumeKeyword_bind {α : Type} (keyword : Keyword) (f : Bool → Parse α) (t : Token)
    (rest : List Token) (fault : Option Error) (last : String) :
    (consumeKeyword keyword >>= f).run ⟨t :: rest, fault, last⟩ =
      if t.isKeyword keyword then (f true).run ⟨rest, fault, t.literal⟩
      else (f false).run ⟨t :: rest, fault, last⟩ := by
  unfold consumeKeyword
  rw [consume_bind, run_nextIf_bind]
  rfl

/-- Before `AS` and an alias, the same tokens are read as the same expression with the alias. -/
theorem run_readAliased_of_read {levels : Nat} {c c' : Cursor} {e : Expression}
    (h : (read scope levels).run c = (.ok e, c')) :
    ∃ taken, c.tokens = taken ++ c'.tokens ∧ ∀ word label name more fault,
      word.isKeyword .AS = true → label.aliasText? = some name →
        (readAliased scope levels).run ⟨taken ++ word :: label :: more, fault, c.lastLiteral⟩ =
          (.ok (.named e name), ⟨more, fault, label.literal⟩) := by
  induction levels generalizing c e with
  | zero => cases h
  | succ levels ih =>
    rw [read_succ] at h
    obtain ⟨left, c₁, hoperand, h⟩ := run_bind_ok.mp h
    obtain ⟨op?, c₂, hop, h⟩ := run_bind_ok.mp h
    obtain ⟨hbelow, hsigned⟩ := stopsBefore_readers scope levels
    obtain ⟨taken₁, htokens₁, hrun₁⟩ :=
      (stopsBefore_readOperand hbelow hsigned scope).ignoresRest _ _ _ hoperand
    cases op? with
    | none =>
      cases h
      obtain rfl := eq_of_nextOperator?_none hop
      refine ⟨taken₁, htokens₁, fun word label name more fault hword hlabel => ?_⟩
      have hends : word.EndsExpression := Token.endsExpression_of_isKeyword hword
      rw [readAliased_succ]
      refine run_bind_ok.mpr ⟨e, _, hrun₁ word (label :: more) fault (.inl hends), ?_⟩
      rw [run_consumeKeyword_bind, if_pos hword]
      exact run_bind_ok.mpr ⟨name, _, run_expectAlias hlabel more fault _, rfl⟩
    | some op =>
      obtain ⟨right, c₃, hright, h⟩ := run_bind_ok.mp h
      cases h
      obtain ⟨t, htoken, hsymbol, hlast⟩ := exists_token_of_nextOperator?_some hop
      obtain ⟨taken₂, htokens₂, hrun₂⟩ := ih hright
      refine ⟨taken₁ ++ t :: taken₂, ?_, fun word label name more fault hword hlabel => ?_⟩
      · rw [htokens₁, htoken, htokens₂, List.append_assoc, List.cons_append]
      have hnot : ¬t.isKeyword .AS = true := by
        intro hkeyword
        have hkind : t.kind = .keyword .AS := by simpa [Token.isKeyword] using hkeyword
        simp [Token.arithmeticOperator?, hkind] at hsymbol
      rw [readAliased_succ, List.append_assoc, List.cons_append]
      refine run_bind_ok.mpr ⟨left, _, hrun₁ t _ fault (.inr (by rw [htoken]; rfl)), ?_⟩
      rw [run_consumeKeyword_bind, if_neg hnot]
      refine run_bind_ok.mpr ⟨some op, _, by rw [run_nextOperator?, hsymbol], ?_⟩
      refine run_bind_ok.mpr ⟨.named right name, ⟨more, fault, label.literal⟩, ?_, rfl⟩
      rw [← hlast]
      exact hrun₂ word label name more fault hword hlabel

/-! ## What is read -/

/-- What is read is the grouping of the operands and operators that are read, each of them in its
place, and it has no alias. If `AS` and an alias follow the same tokens, the reader that accepts
them answers the same expression under the alias; and no other alias is ever read. -/
theorem read_eq_grouped {levels : Nat} {c c' : Cursor} {e : Expression}
    (h : (read scope levels).run c = (.ok e, c')) :
    (∃ chain, ReadsChain scope levels c chain c' ∧ e = chain.grouped ∧ e.inOrder = chain) ∧
      e.hasAlias = false ∧
      (∃ taken, c.tokens = taken ++ c'.tokens ∧ ∀ word label name more fault,
        word.isKeyword .AS = true → label.aliasText? = some name →
          (readAliased scope levels).run ⟨taken ++ word :: label :: more, fault, c.lastLiteral⟩ =
            (.ok (.named e name), ⟨more, fault, label.literal⟩)) ∧
      ∀ d d' e', (readAliased scope levels).run d = (.ok e', d') →
        e'.hasAlias = false ∨ ∃ inner name, e' = .named inner name ∧ inner.hasAlias = false := by
  obtain ⟨chain, hchain, rfl⟩ := exists_readsChain h
  refine ⟨⟨chain, hchain, rfl, Chain.inOrder_grouped hchain.operands⟩, ?_,
    run_readAliased_of_read h, fun d d' e' h' => ?_⟩
  · exact (yields_read scope.supplies_any levels _ _ _ h).hasAlias_eq_false
  · rcases yields_readAliased scope.supplies_any levels _ _ _ h' with
      hplain | ⟨inner, name, rfl, hplain⟩
    · exact .inl hplain.hasAlias_eq_false
    · exact .inr ⟨inner, name, rfl, hplain.hasAlias_eq_false⟩

/-- Of `a - b * c % d & e / f` the product and the quotient are grouped first, and then the
difference, the remainder and the bitwise `AND`, from the left. -/
theorem read_eq_grouped_on_both_levels :
    let product := binary .multiply (reference ["b"]) (reference ["c"])
    let quotient := binary .divide (reference ["e"]) (reference ["f"])
    let e := binary .bitAnd
      (binary .modulo (binary .subtract (reference ["a"]) product) (reference ["d"])) quotient
    ∃ chain, ReadsChain ⟨Bindings.none, "", 0⟩ 6
        ⟨[⟨.word, "a", 0⟩, ⟨.operator '-', "-", 1⟩, ⟨.word, "b", 2⟩, ⟨.operator '*', "*", 3⟩,
          ⟨.word, "c", 4⟩, ⟨.operator '%', "%", 5⟩, ⟨.word, "d", 6⟩, ⟨.operator '&', "&", 7⟩,
          ⟨.word, "e", 8⟩, ⟨.operator '/', "/", 9⟩, ⟨.word, "f", 10⟩], none, ""⟩
        chain ⟨[], none, "f"⟩ ∧
      e = chain.grouped ∧ e.inOrder = chain :=
  (read_eq_grouped rfl).1

end Expression
end TransactSql
