/-
TransactSql.Proofs.Value.Ordering — the order of values.

Two values are compared in a type that depends on both of their types,
but not on which of them comes first, and it is the type of one of them
(`comparison_eq`). So at most one of the two values has to be converted to
another type, and only that one can fail. This is why comparing the other
way round fails alike, and otherwise turns the order around
(`compare_comm`).

Among integers alone, or among texts alone, nothing fails. There the order
is that of what the values are compared by, their integers or their texts,
and so it is a total preorder (`preordered_of_key`).
-/
import Mathlib.Data.Set.Defs
import TransactSql.Predicate.Basic
import TransactSql.Proofs.Collation.Laws
import TransactSql.Proofs.Value.Integers
import TransactSql.Proofs.Value.WellFormed

namespace TransactSql

/-- The operator that says the same of two operands that change places. -/
def ComparisonOperator.converse : ComparisonOperator → ComparisonOperator
  | equal => equal
  | notEqual => notEqual
  | greater => less
  | greaterOrEqual => lessOrEqual
  | less => greater
  | lessOrEqual => greaterOrEqual

theorem ComparisonOperator.holds_converse (op : ComparisonOperator) (o : Ordering) :
    op.converse.holds o.swap = op.holds o := by
  cases op <;> cases o <;> rfl

/-! ## Types -/

namespace DataType

theorem comparison_comm (left right : DataType) :
    comparison left right = comparison right left := by
  cases left <;> cases right <;> rfl

/-- Two values are compared in the type of one of them. -/
theorem comparison_eq (left right : DataType) :
    comparison left right = left ∨ comparison left right = right := by
  cases left <;> cases right <;> first | exact .inl rfl | exact .inr rfl

end DataType

/-! ## Scalars -/

instance : Std.TransCmp Binary64.compare :=
  inferInstanceAs (Std.TransCmp (compareOn Binary64.orderKey))

instance : Std.TransCmp Collation.caseInsensitive.compare :=
  inferInstanceAs (Std.TransCmp (Collation.foldCompare Unicode.lowercase))

namespace Scalar

theorem compare_comm (left right : Scalar) : compare right left = (compare left right).swap := by
  cases left with
  | int m =>
    cases right with
    | int n => exact Std.OrientedOrd.eq_swap
    | _ => rfl
  | bigint m =>
    cases right with
    | bigint n => exact Std.OrientedOrd.eq_swap
    | _ => rfl
  | float x =>
    cases right with
    | float y =>
      have hswap : y.compare x = (x.compare y).swap := Std.OrientedCmp.eq_swap
      exact hswap
    | _ => rfl
  | text s =>
    cases right with
    | text t =>
      have hswap : Collation.caseInsensitive.compare t s =
          (Collation.caseInsensitive.compare s t).swap := Std.OrientedCmp.eq_swap
      exact hswap
    | _ => rfl

/-- A scalar is what it is in its own type. -/
theorem convert_self {type : DataType} {s : Scalar} (h : s.fits type = true) :
    convert type type s = .ok s := by
  cases s <;> cases type <;> first | rfl | cases h

theorem Denotes.compare_eq {type : DataType} {left right : Scalar} {i j : Int}
    (hleft : left.Denotes type i) (hright : right.Denotes type j) :
    compare left right = Ord.compare i j := by
  cases hleft <;> cases hright <;> rfl

theorem convert_text {target : DataType} (htarget : target.isText = true) (source : DataType)
    (text : String) : convert target source (.text text) = .ok (.text text) := by
  cases target <;> cases htarget <;> rfl

end Scalar

namespace Value

variable {a b : Value} {s t : Scalar}

/-! ## Comparing the other way round -/

theorem compare_of_some (ha : a.scalar = some s) (hb : b.scalar = some t) :
    compare a b =
      (Scalar.convert (DataType.comparison a.type b.type) a.type s).bind fun l =>
        (Scalar.convert (DataType.comparison a.type b.type) b.type t).bind fun r =>
          .ok (some (Scalar.compare l r)) := by
  simp only [compare, compareWith, ha, hb]
  rfl

/-- Comparing two values the other way round turns their order around, fails alike, or finds a NULL
alike. -/
theorem compare_comm (ha : a.isWellFormed = true) (hb : b.isWellFormed = true) :
    compare b a = (compare a b).map (Option.map Ordering.swap) := by
  cases hs : a.scalar with
  | none => cases ht : b.scalar <;> simp only [compare, compareWith, hs, ht] <;> rfl
  | some s =>
    cases ht : b.scalar with
    | none => simp only [compare, compareWith, hs, ht]; rfl
    | some t =>
      rw [compare_of_some hs ht, compare_of_some ht hs, DataType.comparison_comm b.type a.type]
      -- one of the two is in its own type, and its conversion cannot fail
      rcases DataType.comparison_eq a.type b.type with htype | htype
      · rw [htype, Scalar.convert_self (isWellFormed_of_some hs ▸ ha)]
        cases Scalar.convert a.type b.type t with
        | error e => rfl
        | ok r => exact congrArg (Except.ok ∘ some) (Scalar.compare_comm s r)
      · rw [htype, Scalar.convert_self (isWellFormed_of_some ht ▸ hb)]
        cases Scalar.convert b.type a.type s with
        | error e => rfl
        | ok l => exact congrArg (Except.ok ∘ some) (Scalar.compare_comm l t)

theorem compareValues_converse (ha : a.isWellFormed = true) (hb : b.isWellFormed = true)
    (op : ComparisonOperator) :
    Predicate.compareValues op.converse b a = Predicate.compareValues op a b := by
  rw [Predicate.compareValues, Predicate.compareValues, compare_comm ha hb]
  rcases compare a b with e | _ | o
  · rfl
  · rfl
  · exact congrArg Except.ok (op.holds_converse o)

/-! ## Values of one family -/

/-- The value is not NULL, and its type is of the family. -/
structure IsOf (family : DataType → Bool) (v : Value) : Prop where
  wellFormed : v.isWellFormed = true
  notNull : v.isNull = false
  type : family v.type = true

/-- The first value is not greater than the second. -/
def AtMost (a b : Value) : Prop := ∃ o, compare a b = .ok (some o) ∧ o ≠ .gt

/-- Any two of the values can be compared, and their order is a total preorder. -/
structure Preordered (values : Set Value) : Prop where
  comparable : ∀ a ∈ values, ∀ b ∈ values, ∃ o, compare a b = .ok (some o)
  refl : ∀ a ∈ values, compare a a = .ok (some .eq)
  total : ∀ a ∈ values, ∀ b ∈ values, AtMost a b ∨ AtMost b a
  trans : ∀ a ∈ values, ∀ b ∈ values, ∀ c ∈ values, AtMost a b → AtMost b c → AtMost a c

/-- Values that are compared by their keys are ordered as the keys are. -/
theorem preordered_of_key {κ : Type} {cmp : κ → κ → Ordering} [Std.TransCmp cmp]
    {HasKey : Value → κ → Prop} {values : Set Value} (hkey : ∀ v ∈ values, ∃ k, HasKey v k)
    (hcompare : ∀ {a b k l}, HasKey a k → HasKey b l → compare a b = .ok (some (cmp k l))) :
    Preordered values := by
  have hle : ∀ {a b k l}, HasKey a k → HasKey b l → (AtMost a b ↔ (cmp k l).isLE = true) := by
    intro a b k l ha hb
    simp [AtMost, hcompare ha hb, Ordering.isLE_iff_ne_gt]
  refine ⟨fun a ha b hb => ?_, fun a ha => ?_, fun a ha b hb => ?_, fun a ha b hb c hc => ?_⟩
  · obtain ⟨k, hk⟩ := hkey a ha
    obtain ⟨l, hl⟩ := hkey b hb
    exact ⟨cmp k l, hcompare hk hl⟩
  · obtain ⟨k, hk⟩ := hkey a ha
    have hself : cmp k k = .eq := Std.ReflCmp.compare_self
    rw [hcompare hk hk, hself]
  · obtain ⟨k, hk⟩ := hkey a ha
    obtain ⟨l, hl⟩ := hkey b hb
    have hswap : cmp l k = (cmp k l).swap := Std.OrientedCmp.eq_swap
    rw [hle hk hl, hle hl hk, hswap]
    cases cmp k l <;> simp
  · obtain ⟨k, hk⟩ := hkey a ha
    obtain ⟨l, hl⟩ := hkey b hb
    obtain ⟨m, hm⟩ := hkey c hc
    rw [hle hk hl, hle hl hm, hle hk hm]
    exact Std.TransCmp.isLE_trans

/-- Integers are compared as integers, also across their two types. -/
theorem Denotes.compare_eq {i j : Int} (ha : a.Denotes i) (hb : b.Denotes j) :
    compare a b = .ok (some (Ord.compare i j)) := by
  obtain ⟨s, hs, ha⟩ := ha
  obtain ⟨t, ht, hb⟩ := hb
  obtain ⟨l, hl, hl'⟩ := ha.exists_convert b.type
  obtain ⟨r, hr, hr'⟩ := hb.exists_convert a.type
  rw [DataType.commonInteger_comm] at hr hr'
  have htype : DataType.comparison a.type b.type = DataType.commonInteger a.type b.type := by
    rw [DataType.comparison, DataType.common?_of_integers ha.isInteger hb.isInteger]
  rw [compare_of_some hs ht, htype, hl, hr, ← hl'.compare_eq hr']
  rfl

/-- The value is this text. -/
def IsText (v : Value) (text : String) : Prop :=
  v.type.isText = true ∧ v.scalar = some (.text text)

/-- Texts are compared by the collation, also across their two types. -/
theorem IsText.compare_eq {left right : String} (ha : a.IsText left) (hb : b.IsText right) :
    compare a b = .ok (some (Collation.caseInsensitive.compare left right)) := by
  have htype : (DataType.comparison a.type b.type).isText = true := by
    rcases DataType.comparison_eq a.type b.type with h | h <;> rw [h]
    · exact ha.1
    · exact hb.1
  rw [compare_of_some ha.2 hb.2, Scalar.convert_text htype, Scalar.convert_text htype]
  rfl

theorem IsOf.exists_denotes (h : a.IsOf DataType.isInteger) : ∃ i, a.Denotes i := by
  rcases eq_null_or_denotes h.wellFormed h.type with hnull | hdenotes
  · have hnot := h.notNull
    rw [hnull] at hnot
    cases hnot
  · exact hdenotes

theorem IsOf.exists_text (h : a.IsOf DataType.isText) : ∃ text, a.IsText text := by
  obtain ⟨hwell, hnot, htype⟩ := h
  obtain ⟨type, _ | scalar⟩ := a
  · cases hnot
  · cases scalar with
    | text text => exact ⟨text, htype, rfl⟩
    | _ => cases type <;> cases htype <;> cases hwell

/-- Comparison is symmetric, and within a family of types a total preorder. Comparing any two values
the other way round turns their order around, finds a NULL alike or fails alike, so that an operator
holds of them exactly if its converse does of the exchanged ones. Integers alone or texts alone can
always be compared, and are in a total preorder. -/
theorem compare_symmetric_preorder :
    (∀ a b : Value, a.isWellFormed = true → b.isWellFormed = true →
      compare b a = (compare a b).map (Option.map Ordering.swap) ∧
      ∀ op, Predicate.compareValues op.converse b a = Predicate.compareValues op a b) ∧
    ∀ values : Set Value,
      ((∀ v ∈ values, v.IsOf DataType.isInteger) ∨ ∀ v ∈ values, v.IsOf DataType.isText) →
        Preordered values := by
  refine ⟨fun a b ha hb => ⟨compare_comm ha hb, compareValues_converse ha hb⟩, ?_⟩
  rintro values (hintegers | htexts)
  · exact preordered_of_key (fun v hv => (hintegers v hv).exists_denotes) Denotes.compare_eq
  · exact preordered_of_key (fun v hv => (htexts v hv).exists_text) IsText.compare_eq

/-- A text that is no number fails on either side of an int, and texts of both types that differ in
their case are in order with one another. -/
theorem compare_symmetric_preorder_of_texts :
    (varchar "1x").isWellFormed = true ∧ (int 1).isWellFormed = true ∧
      compare (varchar "1x") (int 1) = .error (.conversionFailed "1x" .varchar .int) ∧
      compare (int 1) (varchar "1x") = .error (.conversionFailed "1x" .varchar .int) ∧
      (∀ v ∈ ({varchar "b", nvarchar "B"} : Set Value), v.IsOf DataType.isText) ∧
      Preordered {varchar "b", nvarchar "B"} := by
  have hfails : compare (int 1) (varchar "1x") = .error (.conversionFailed "1x" .varchar .int) := by
    decide +kernel
  have htexts : ∀ v ∈ ({varchar "b", nvarchar "B"} : Set Value), v.IsOf DataType.isText := by
    rintro v (rfl | rfl) <;> exact ⟨rfl, rfl, rfl⟩
  refine ⟨rfl, rfl, ?_, hfails, htexts, compare_symmetric_preorder.2 _ (.inr htexts)⟩
  rw [(compare_symmetric_preorder.1 (int 1) (varchar "1x") rfl rfl).1, hfails]
  rfl

end Value
end TransactSql
