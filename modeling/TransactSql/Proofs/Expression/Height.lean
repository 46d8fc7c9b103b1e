/-
TransactSql.Proofs.Expression.Height — how high an expression is.

The readers bound how deep an expression is nested in the text, but what
is evaluated is the tree that they make of it, and grouping turns a chain
of operators around: its first operand, which was read with the most
levels left, comes to stand deepest in the tree. So the tree can be
higher than the text is deep.

Grouping keeps the operands in their order (`inOrder_group`), and an
operand stands under as many operators as the chain has, at most. A chain
that is `depth` deep has fewer than `depth` operators, and its operands
are chains of smaller depth, under one more node. That gives a node for
each level of each level (`heightBound`).
-/
import TransactSql.Proofs.Expression.Depth
import TransactSql.Proofs.Expression.Grouping

namespace TransactSql

open Parse

namespace Expression

/-- The number of nodes on a longest path. -/
def height : Expression → Nat
  | value _ => 1
  | reference _ => 1
  | named inner _ => inner.height + 1
  | parenthesized inner => inner.height + 1
  | negative operand => operand.height + 1
  | binary _ left right => max left.height right.height + 1
  | call _ argument => argument.height + 1

/-- The expression without the alias of the whole. -/
def unnamed : Expression → Expression
  | named inner _ => inner
  | e => e

/-- The number of nodes that so many levels are good for. -/
def heightBound (depth : Nat) : Nat := depth * (depth + 1) / 2

theorem heightBound_succ (depth : Nat) :
    heightBound (depth + 1) = heightBound depth + depth + 1 := by
  have hmul : (depth + 1) * (depth + 1 + 1) = depth * (depth + 1) + (depth + 1) * 2 := by
    rw [Nat.mul_comm depth, ← Nat.mul_add]
  unfold heightBound
  rw [hmul, Nat.add_mul_div_right _ _ Nat.two_pos, Nat.add_assoc]

theorem heightBound_mono {depth depth' : Nat} (h : depth ≤ depth') :
    heightBound depth ≤ heightBound depth' :=
  Nat.div_le_div_right (Nat.mul_le_mul h (Nat.succ_le_succ h))

variable {scope : Scope} {depth depth' : Nat} {c c' : Cursor} {e left right : Expression}
  {op : ArithmeticOperator}

/-! ## Chains -/

theorem inOrder_binary (hleft : left.isOperand = true) :
    (binary op left right).inOrder = right.inOrder.cons left op := by
  rw [inOrder, inOrder_of_isOperand hleft]
  rfl

/-- Grouping puts an operand before the chain and keeps its order. -/
theorem inOrder_group (hleft : left.isOperand = true) (e : Expression) :
    (group op left e).inOrder = e.inOrder.cons left op := by
  induction e with
  | binary next middle right ihmiddle _ =>
    rw [group]
    split
    · exact inOrder_binary hleft
    · rw [inOrder, ihmiddle]
      rfl
  | value | reference | named | parenthesized | negative | call => exact inOrder_binary hleft

theorem isOperand_cons {chain : Chain} (hleft : left.isOperand = true) (h : chain.Operands) :
    (chain.cons left op).Operands :=
  ⟨hleft, List.forall_mem_cons.mpr ⟨h.1, h.2⟩⟩

end Expression

/-- A chain that is so deep has fewer operators than that, and its operands are less deep. -/
structure Chain.Within (chain : Chain) (depth : Nat) : Prop where
  operands : chain.Operands
  length : chain.rest.length < depth
  first : chain.first.height ≤ Expression.heightBound (depth - 1) + 1
  rest : ∀ next ∈ chain.rest, next.2.height ≤ Expression.heightBound (depth - 1) + 1

namespace Expression

variable {scope : Scope} {depth depth' : Nat} {c c' : Cursor} {e left right : Expression}
  {op : ArithmeticOperator}

/-- In the tree of a chain an operand stands under as many operators as there are, at most. -/
theorem height_le_of_inOrder {bound : Nat} (hfirst : e.inOrder.first.height ≤ bound)
    (hrest : ∀ next ∈ e.inOrder.rest, next.2.height ≤ bound) :
    e.height ≤ e.inOrder.rest.length + bound := by
  induction e with
  | binary op left right ihleft ihright =>
    rw [inOrder] at hfirst hrest
    obtain ⟨hleft, hright⟩ := List.forall_mem_append.mp hrest
    obtain ⟨hright, hmore⟩ := List.forall_mem_cons.mp hright
    have hl := ihleft hfirst hleft
    have hr := ihright hright hmore
    simp only [height, inOrder, List.length_append, List.length_cons]
    omega
  | value | reference | named | parenthesized | negative | call =>
    exact Nat.le_add_left_of_le hfirst

theorem height_le_of_within (h : e.inOrder.Within depth) : e.height ≤ heightBound depth := by
  have hle := height_le_of_inOrder h.first h.rest
  have hlength := h.length
  -- At most `n` operators, and below them what `n` levels are good for, and one node.
  obtain ⟨n, rfl⟩ := Nat.exists_eq_add_one_of_ne_zero (Nat.ne_zero_of_lt hlength)
  rw [Nat.add_sub_cancel] at hle
  rw [heightBound_succ]
  omega

theorem within_of_isOperand (h : e.isOperand = true) (hheight : e.height ≤ heightBound depth + 1) :
    e.inOrder.Within (depth + 1) := by
  rw [inOrder_of_isOperand h]
  exact ⟨⟨h, List.forall_mem_nil _⟩, Nat.succ_pos _, hheight, List.forall_mem_nil _⟩

/-- An operand before a chain: the levels are those of the deeper one, and one more. -/
theorem within_group (hleft : left.isOperand = true) (hheight : left.height ≤ heightBound depth + 1)
    (h : right.inOrder.Within depth') :
    (group op left right).inOrder.Within (max depth depth' + 1) := by
  -- The operands of the rest are a level less deep than the rest, so less than the whole.
  have hbelow : heightBound (depth' - 1) ≤ heightBound (max depth depth') :=
    heightBound_mono (by omega)
  rw [inOrder_group hleft]
  refine ⟨isOperand_cons hleft h.operands, ?_, ?_, List.forall_mem_cons.mpr ⟨?_, ?_⟩⟩
  · have hlength := h.length
    simp only [Chain.cons, List.length_cons]
    omega
  · have hmono : heightBound depth ≤ heightBound (max depth depth') :=
      heightBound_mono (Nat.le_max_left _ _)
    exact Nat.le_trans hheight (Nat.succ_le_succ hmono)
  · exact Nat.le_trans h.first (Nat.succ_le_succ hbelow)
  · exact fun next hnext => Nat.le_trans (h.rest next hnext) (Nat.succ_le_succ hbelow)

/-! ## What is read -/

/-- What is known of what stands in the text: an operand is one, and is as high as what is nested in
it and one node more; an expression is a chain, and has no alias if none may follow. -/
def Shaped : Form → (depth : Nat) → Expression → Prop
  | .operand, depth, e => e.isOperand = true ∧ e.height ≤ heightBound depth + 1
  | .expression aliased, depth, e =>
    e.unnamed.inOrder.Within depth ∧ (aliased = false → e.unnamed = e)

theorem unnamed_of_isOperand (h : e.isOperand = true) : e.unnamed = e := by
  cases e <;> first | rfl | cases h

theorem unnamed_group (op : ArithmeticOperator) (left right : Expression) :
    (group op left right).unnamed = group op left right := by
  cases right with
  | binary next middle right =>
    rw [group]
    split <;> rfl
  | value | reference | named | parenthesized | negative | call => rfl

/-- An alias does not get in the way of grouping. -/
theorem unnamed_join (h : right.unnamed.inOrder.Operands) (op : ArithmeticOperator)
    (left : Expression) : (join op left right).unnamed = group op left right.unnamed := by
  cases right with
  | named inner name =>
    cases inner with
    | named inner name' => exact absurd h.1 (by simp [unnamed, inOrder, isOperand])
    | value | reference | binary | parenthesized | negative | call => rfl
  | value | reference | binary | parenthesized | negative | call =>
    exact unnamed_group op left _

theorem join_eq_group (h : right.unnamed = right) (op : ArithmeticOperator) (left : Expression) :
    join op left right = group op left right := by
  cases right with
  | named inner name => cases h
  | value | reference | binary | parenthesized | negative | call => rfl

theorem height_le_of_shaped (h : Shaped (.expression false) depth e) :
    e.height ≤ heightBound depth := by
  have hle := height_le_of_within h.1
  rwa [h.2 rfl] at hle

theorem ReadsAt.shaped {form : Form} (h : ReadsAt scope form depth c e c') :
    Shaped form depth e := by
  induction h with
  | literal => exact ⟨rfl, Nat.le_add_left _ _⟩
  | parameter => exact ⟨rfl, Nat.le_add_left _ _⟩
  | systemVariable => exact ⟨rfl, Nat.le_add_left _ _⟩
  | reference => exact ⟨rfl, Nat.le_add_left _ _⟩
  | negative _ _ _ ih =>
    have hoperand := ih.2
    refine ⟨rfl, ?_⟩
    rw [height, heightBound_succ]
    omega
  | positive _ _ _ ih =>
    have hoperand := ih.2
    refine ⟨ih.1, ?_⟩
    rw [heightBound_succ]
    omega
  | parenthesized _ _ _ _ ih => exact ⟨rfl, Nat.succ_le_succ (height_le_of_shaped ih)⟩
  | call _ _ _ _ _ _ _ _ _ _ ih => exact ⟨rfl, Nat.succ_le_succ (height_le_of_shaped ih)⟩
  | last _ _ _ ih =>
    have hunnamed := unnamed_of_isOperand ih.1
    refine ⟨?_, fun _ => hunnamed⟩
    rw [hunnamed]
    exact within_of_isOperand ih.1 ih.2
  | named _ hnamed _ ih =>
    refine ⟨within_of_isOperand ih.1 ih.2, ?_⟩
    rintro rfl
    cases hnamed
  | more _ _ _ _ ih ihrest =>
    refine ⟨?_, fun haliased => ?_⟩
    · rw [unnamed_join ihrest.1.operands]
      exact within_group ih.1 ih.2 ihrest.1
    · rw [join_eq_group (ihrest.2 haliased), unnamed_group]

/-- The tree of an expression is at most so high, without the alias of the whole. -/
theorem ReadsAt.height_le {aliased : Bool} (h : ReadsAt scope (.expression aliased) depth c e c') :
    e.unnamed.height ≤ heightBound depth :=
  height_le_of_within h.shaped.1

end Expression
end TransactSql
