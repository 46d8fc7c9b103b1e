/-
TransactSql.Proofs.Statement.Failures — failures that name no place.

Only a character that begins no token is reported with its place in the
text. So a failure that a statement runs into does not depend on where
the statement stands. `Placeless` says that of a computation. What can go
wrong with values names no place (`FailsOnValues.placeless`), and from
there on there is one lemma for each function that can fail, up to
`Statement.placeless_perform`.
-/
import TransactSql.Proofs.Lexer.Boundaries
import TransactSql.Proofs.Statement.Performing
import TransactSql.Proofs.Value.Failures
import TransactSql.Scope

namespace TransactSql

variable {α β : Type}

/-- The failure of the computation, if it fails, names no place in a text. -/
def Placeless (x : Except Error α) : Prop := ∀ n, x.mapError (Error.shift n) = x

theorem placeless_ok (a : α) : Placeless (.ok a : Except Error α) := fun _ => rfl

theorem Placeless.bind {x : Except Error α} {f : α → Except Error β} (hx : Placeless x)
    (hf : ∀ a, Placeless (f a)) : Placeless (x >>= f) := by
  intro n
  cases x with
  | ok a => exact hf a n
  | error e => exact congrArg Except.error (Except.error.inj (hx n))

theorem Placeless.map {x : Except Error α} {f : α → β} (hx : Placeless x) :
    Placeless (x.map f) := by
  intro n
  cases x with
  | ok a => rfl
  | error e => exact congrArg Except.error (Except.error.inj (hx n))

theorem Placeless.mapM {f : α → Except Error β} (hf : ∀ a, Placeless (f a)) (xs : List α) :
    Placeless (xs.mapM f) := by
  induction xs with
  | nil => exact placeless_ok _
  | cons x xs ih =>
    rw [List.mapM_cons]
    exact (hf x).bind fun _ => ih.bind fun _ => placeless_ok _

/-! ## Values -/

/-- What goes wrong with values names no place. -/
theorem FailsOnValues.placeless {x : Except Error α} (h : FailsOnValues x) : Placeless x := by
  intro n
  cases x with
  | ok a => rfl
  | error e => cases e <;> first | rfl | cases h _ rfl

namespace Value

theorem placeless_convert (v : Value) (target : DataType) : Placeless (v.convert target) :=
  (v.failsWith_convert target).placeless

theorem placeless_apply (op : ArithmeticOperator) (left right : Value) :
    Placeless (apply op left right) := by
  cases hcommon : DataType.common? left.type right.type with
  | some common => exact (failsWith_apply hcommon).placeless
  | none =>
    rw [apply, applyWith, hcommon]
    dsimp only
    split
    · exact placeless_ok _
    · split
      · exact placeless_ok _
      · exact fun _ => rfl

theorem placeless_negate (v : Value) : Placeless v.negate := v.failsWith_negate.placeless

theorem placeless_compare (left right : Value) : Placeless (left.compare right) :=
  (left.failsWith_compare right).placeless

end Value

theorem BuiltIn.placeless_apply (function : BuiltIn) (v : Value) :
    Placeless (function.apply v) := (function.failsWith_apply v).placeless

namespace Scope

theorem placeless_parameter (scope : Scope) (name : String) :
    Placeless (scope.parameter name) := by
  unfold parameter
  split <;> exact fun _ => rfl

theorem placeless_systemVariable (scope : Scope) (name : String) :
    Placeless (scope.systemVariable name) := by
  dsimp only [systemVariable]
  split
  · exact placeless_ok _
  · split <;> exact fun _ => rfl

end Scope

/-! ## Expressions and conditions -/

theorem Expression.placeless_eval {row : Lookup} (hrow : ∀ name, Placeless (row name))
    (e : Expression) : Placeless (e.eval row) := by
  induction e with
  | value v => exact placeless_ok v
  | reference name => exact hrow name
  | named inner name ih => exact ih
  | parenthesized inner ih => exact ih
  | negative operand ih => exact ih.bind Value.placeless_negate
  | binary op left right ihleft ihright =>
    exact ihleft.bind fun l => ihright.bind fun r => Value.placeless_apply op l r
  | call function argument ih => exact ih.bind fun v => function.placeless_apply v

theorem Predicate.placeless_eval {row : Lookup} (hrow : ∀ name, Placeless (row name))
    (p : Predicate) : Placeless (p.eval row) := by
  induction p with
  | comparison op left right =>
    refine (left.placeless_eval hrow).bind fun l => (right.placeless_eval hrow).bind fun r => ?_
    exact (l.placeless_compare r).bind fun _ => placeless_ok _
  | and left right ihleft ihright =>
    refine ihleft.bind fun l => ?_
    cases l with
    | true => exact ihright
    | false => exact placeless_ok _
  | or left right ihleft ihright =>
    refine ihleft.bind fun l => ?_
    cases l with
    | true => exact placeless_ok _
    | false => exact ihright

/-! ## Queries -/

theorem RowSet.placeless_lookup (set : RowSet) (row : Row) (name : QualifiedName) :
    Placeless (set.lookup row name) := by
  unfold lookup
  split <;> exact fun _ => rfl

namespace Select

theorem placeless_keeps (s : Select) (set : RowSet) (row : Row) : Placeless (s.keeps set row) := by
  unfold keeps
  split
  · exact placeless_ok _
  · exact Predicate.placeless_eval (set.placeless_lookup row) _

theorem placeless_project (s : Select) (set : RowSet) (row : Row) :
    Placeless (s.project set row) := by
  refine (Placeless.mapM (fun item => ?_) s.items).bind fun _ => placeless_ok _
  cases item with
  | wildcard => exact placeless_ok _
  | expression e =>
    exact (e.placeless_eval (set.placeless_lookup row)).bind fun _ => placeless_ok _

theorem placeless_collect (s : Select) (set : RowSet) (limit : Option Nat) (rows : List Row) :
    Placeless (s.collect set limit rows) := by
  induction rows generalizing limit with
  | nil =>
    rcases limit with _ | _ | _ <;> exact placeless_ok _
  | cons row rows ih =>
    have hstep : ∀ limit, Placeless (do
        if ← s.keeps set row then
          let output ← s.project set row
          let more ← collect s set (limit.map (· - 1)) rows
          .ok (output :: more)
        else collect s set limit rows) := by
      intro limit
      refine (s.placeless_keeps set row).bind fun kept => ?_
      cases kept with
      | false => exact ih limit
      | true =>
        exact (s.placeless_project set row).bind fun _ => (ih _).bind fun _ => placeless_ok _
    rcases limit with _ | _ | limit
    · exact hstep none
    · exact placeless_ok _
    · exact hstep (some (limit + 1))

theorem placeless_run (s : Select) (source : RowSet) : Placeless (s.run source) :=
  (s.placeless_collect source _ _).bind fun _ => placeless_ok _

end Select

theorem Source.placeless_load (catalog : Catalog) (source : Source) :
    Placeless (source.load catalog) := by
  induction source with
  | unit => exact placeless_ok _
  | table name tableAlias =>
    unfold load
    split <;> exact fun _ => rfl
  | derived select source tableAlias ih =>
    refine ih.bind fun rows => (select.placeless_run rows).bind fun set => ?_
    unfold checkNames
    split <;> exact fun _ => rfl

theorem Query.placeless_run (q : Query) (catalog : Catalog) : Placeless (q.run catalog) :=
  (q.source.placeless_load catalog).bind fun source => q.select.placeless_run source

/-! ## Tables -/

namespace Table

theorem placeless_create (name : String) (columns : List Column) :
    Placeless (create name columns) := by
  unfold create withRows
  split <;> exact fun _ => rfl

theorem placeless_namedTargets (t : Table) (used : List Nat) (names : List String) :
    Placeless (t.namedTargets used names) := by
  induction names generalizing used with
  | nil => exact placeless_ok _
  | cons name names ih =>
    unfold namedTargets
    split
    · exact fun _ => rfl
    · split
      · exact fun _ => rfl
      · exact (ih _).bind fun _ => placeless_ok _

theorem placeless_convertValues (targets : List Target) (values : Row) :
    Placeless (convertValues targets values) := by
  induction targets generalizing values with
  | nil => exact placeless_ok _
  | cons target targets ih =>
    cases values with
    | nil => exact placeless_ok _
    | cons value values =>
      exact (value.placeless_convert _).bind fun _ => (ih values).bind fun _ => placeless_ok _

theorem placeless_prepare (t : Table) (named : Bool) (targets : List Target) (values : Row) :
    Placeless (t.prepare named targets values) := by
  unfold prepare
  split
  · refine (placeless_convertValues targets values).bind fun converted => ?_
    dsimp only
    split <;> exact fun _ => rfl
  · unfold countMismatch
    intro n
    split <;> (try split) <;> rfl

theorem placeless_insert (t : Table) (columns : Option (List String)) (rows : List Row) :
    Placeless ((insert columns rows).answer t) := by
  have htargets : Placeless (t.targets columns) := by
    cases columns with
    | none => exact placeless_ok _
    | some names => exact t.placeless_namedTargets [] names
  rw [answer_insert]
  exact (htargets.bind fun targets => Placeless.mapM (t.placeless_prepare _ targets) rows).map

end Table

namespace Catalog

theorem placeless_create (catalog : Catalog) (table : Table) :
    Placeless ((create table).answer catalog) := by
  rw [answer_create]
  split <;> exact fun _ => rfl

theorem placeless_insert (catalog : Catalog) (name : String) (columns : Option (List String))
    (rows : List Row) : Placeless ((insert name columns rows).answer catalog) := by
  rw [insert, answer_update]
  split
  · exact fun _ => rfl
  · exact (Table.placeless_insert _ columns rows).map

end Catalog

/-- The failure of a statement does not depend on where the statement stands. -/
theorem Statement.placeless_perform (s : Statement) (catalog : Catalog) :
    Placeless (s.perform.answer catalog) := by
  cases s with
  | select query =>
    rw [answer_select]
    exact (query.placeless_run catalog).map
  | createTable name columns =>
    rw [answer_createTable]
    exact (Table.placeless_create name columns).bind fun table =>
      (catalog.placeless_create table).bind fun _ => placeless_ok _
  | insert table columns rows =>
    rw [answer_insert]
    exact (catalog.placeless_insert table columns rows).bind fun _ => placeless_ok _

end TransactSql
