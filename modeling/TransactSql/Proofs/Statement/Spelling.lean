/-
TransactSql.Proofs.Statement.Spelling — statements up to the spelling of
names.

Two statements are `Respelled` if one becomes the other when some of the
names in it are spelled in another way. On respelled catalogs they do the
same (`Statement.Respelled.run`): they fail alike, or they have respelled
outcomes and leave respelled catalogs.

The proof follows the syntax. An expression looks up its names in a row,
and what it finds there is the same (`Lookup.Respelled`); so its value is
the same, and with it the truth of a condition and the rows of a query.
-/
import TransactSql.Proofs.Query.Visiting
import TransactSql.Proofs.Statement.Performing
import TransactSql.Proofs.Store.Spelling

namespace TransactSql

open Collation

/-! ## Expressions -/

/-- The names of columns stand for the same values. -/
def Lookup.Respelled (row row' : Lookup) : Prop :=
  ∀ name name', SameNames name name' → Agree Eq (row name) (row' name')

theorem Lookup.noRow_respelled : noRow.Respelled noRow :=
  fun _ _ hname => .error (.invalidColumnName hname.last)

/-- The expressions are the same but for the spelling of names. -/
inductive Expression.Respelled : Expression → Expression → Prop
  | value (v : Value) : Respelled (.value v) (.value v)
  | reference {name name' : QualifiedName} (h : SameNames name name') :
      Respelled (.reference name) (.reference name')
  | named {e f : Expression} (h : Respelled e f) {a b : String} (hname : sameName a b = true) :
      Respelled (.named e a) (.named f b)
  | parenthesized {e f : Expression} (h : Respelled e f) :
      Respelled (.parenthesized e) (.parenthesized f)
  | negative {e f : Expression} (h : Respelled e f) : Respelled (.negative e) (.negative f)
  | binary (op : ArithmeticOperator) {e f e' f' : Expression} (h : Respelled e f)
      (h' : Respelled e' f') : Respelled (.binary op e e') (.binary op f f')
  | call (function : BuiltIn) {e f : Expression} (h : Respelled e f) :
      Respelled (.call function e) (.call function f)

namespace Expression.Respelled

variable {e f e' f' : Expression}

theorem name (h : e.Respelled f) : sameName e.name f.name = true := by
  induction h with
  | reference h => exact h.last
  | named _ hname _ => exact hname
  | parenthesized _ ih => exact ih
  | _ => rfl

theorem isNamed_eq (h : e.Respelled f) : e.isNamed = f.isNamed := by
  cases h <;> rfl

/-- Operators are grouped in the same way. -/
theorem group (op : ArithmeticOperator) (h : e.Respelled f) (h' : e'.Respelled f') :
    (Expression.group op e e').Respelled (Expression.group op f f') := by
  have hwhole := h'
  induction h' with
  | binary next hmiddle hright ih _ =>
    unfold Expression.group
    split
    · exact .binary op h hwhole
    · exact .binary next (ih hmiddle) hright
  | _ => exact .binary op h hwhole

theorem join (op : ArithmeticOperator) (h : e.Respelled f) (h' : e'.Respelled f') :
    (Expression.join op e e').Respelled (Expression.join op f f') := by
  have hwhole := h'
  induction h' with
  | named hinner hname ih => exact .named (ih hinner) hname
  | _ => exact h.group op hwhole

/-- The expressions have the same value, or fail alike. -/
theorem eval (h : e.Respelled f) {row row' : Lookup} (hrow : row.Respelled row') :
    Agree Eq (e.eval row) (f.eval row') := by
  induction h with
  | value v => exact .ok rfl
  | reference hname => exact hrow _ _ hname
  | named _ _ ih => exact ih
  | parenthesized _ ih => exact ih
  | negative _ ih => exact ih.bind_eq fun _ => .refl _
  | binary op _ _ ihl ihr => exact ihl.bind_eq fun _ => ihr.bind_eq fun _ => .refl _
  | call function _ ih => exact ih.bind_eq fun _ => .refl _

end Expression.Respelled

/-! ## Conditions -/

/-- The conditions are the same but for the spelling of names. -/
inductive Predicate.Respelled : Predicate → Predicate → Prop
  | comparison (op : ComparisonOperator) {e f e' f' : Expression} (h : e.Respelled f)
      (h' : e'.Respelled f') : Respelled (.comparison op e e') (.comparison op f f')
  | and {p q p' q' : Predicate} (h : Respelled p q) (h' : Respelled p' q') :
      Respelled (.and p p') (.and q q')
  | or {p q p' q' : Predicate} (h : Respelled p q) (h' : Respelled p' q') :
      Respelled (.or p p') (.or q q')

theorem Predicate.Respelled.eval {p q : Predicate} (h : p.Respelled q) {row row' : Lookup}
    (hrow : row.Respelled row') : Agree Eq (p.eval row) (q.eval row') := by
  induction h with
  | comparison op hl hr =>
    exact (hl.eval hrow).bind_eq fun _ => (hr.eval hrow).bind_eq fun _ => .refl _
  | and _ _ ihl ihr =>
    refine ihl.bind_eq fun l => ?_
    cases l with
    | true => exact ihr
    | false => exact .ok rfl
  | or _ _ ihl ihr =>
    refine ihl.bind_eq fun l => ?_
    cases l with
    | true => exact .ok rfl
    | false => exact ihr

/-! ## Queries -/

inductive SelectItem.Respelled : SelectItem → SelectItem → Prop
  | wildcard : Respelled .wildcard .wildcard
  | expression {e f : Expression} (h : e.Respelled f) : Respelled (.expression e) (.expression f)

structure Select.Respelled (s t : Select) : Prop where
  limit : s.limit = t.limit
  items : List.Forall₂ SelectItem.Respelled s.items t.items
  filter : Option.Rel Predicate.Respelled s.filter t.filter

inductive Source.Respelled : Source → Source → Prop
  | unit : Respelled .unit .unit
  | table {name name' : QualifiedName} (h : SameNames name name') (a b : Option String) :
      Respelled (.table name a) (.table name' b)
  | derived {s t : Select} (hselect : s.Respelled t) {x y : Source} (hsource : Respelled x y)
      {a b : String} (hname : sameName a b = true) :
      Respelled (.derived s x a) (.derived t y b)

/-- The queries are the same but for the spelling of names. -/
structure Query.Respelled (p q : Query) : Prop where
  select : p.select.Respelled q.select
  source : p.source.Respelled q.source

theorem RowSet.Respelled.lookup_respelled {a b : RowSet} (h : a.Respelled b) (row : Row) :
    Lookup.Respelled (a.lookup row) (b.lookup row) :=
  fun _ _ hname => h.lookup row hname

namespace SelectItem.Respelled

variable {x y : SelectItem}

theorem isWildcard_eq (h : x.Respelled y) : x.isWildcard = y.isWildcard := by
  cases h <;> rfl

theorem columnNames (h : x.Respelled y) {names names' : List String}
    (hnames : SameNames names names') : SameNames (x.columnNames names) (y.columnNames names') := by
  cases h with
  | wildcard => exact hnames
  | expression h => exact .cons h.name .nil

theorem project (h : x.Respelled y) {a b : RowSet} (hset : a.Respelled b) (row : Row) :
    Agree Eq (x.project a row) (y.project b row) := by
  cases h with
  | wildcard => exact .ok rfl
  | expression h => exact (h.eval (hset.lookup_respelled row)).bind_eq fun _ => .ok rfl

end SelectItem.Respelled

namespace Select.Respelled

variable {s t : Select} {a b : RowSet}

theorem keeps (h : s.Respelled t) (hset : a.Respelled b) (row : Row) :
    Agree Eq (s.keeps a row) (t.keeps b row) := by
  unfold Select.keeps
  rcases rel_option_cases h.filter with ⟨hs, ht⟩ | ⟨p, q, hs, ht, hfilter⟩ <;> rw [hs, ht]
  · exact .ok rfl
  · exact hfilter.eval (hset.lookup_respelled row)

theorem project (h : s.Respelled t) (hset : a.Respelled b) (row : Row) :
    Agree Eq (s.project a row) (t.project b row) :=
  (Agree.mapM h.items fun _ _ hitem => hitem.project hset row).bind_eq fun _ => .ok rfl

/-- The same rows are looked at, and the same output is made of them. -/
theorem collect (h : s.Respelled t) (hset : a.Respelled b) (limit : Option Nat)
    (rows : List Row) : Agree Eq (s.collect a limit rows) (t.collect b limit rows) := by
  induction rows generalizing limit with
  | nil =>
    rw [collect_nil, collect_nil]
    exact .ok rfl
  | cons row rest ih =>
    by_cases hlimit : limit = some 0
    · rw [hlimit, collect_zero, collect_zero]
      exact .ok rfl
    · rw [collect_cons hlimit, collect_cons hlimit]
      refine (h.keeps hset row).bind_eq fun kept => ?_
      cases kept with
      | true => exact (h.project hset row).bind_eq fun _ => (ih _).bind_eq fun _ => .ok rfl
      | false => exact ih limit

theorem run (h : s.Respelled t) (hset : a.Respelled b) :
    Agree RowSet.Respelled (s.run a) (t.run b) := by
  unfold Select.run
  rw [h.limit, hset.rows]
  refine (h.collect hset _ _).bind_eq fun rows => .ok ⟨?_, rfl⟩
  exact List.rel_flatMap h.items fun _ _ hitem => hitem.columnNames hset.columns

end Select.Respelled

variable {c d : Catalog}

theorem Source.checkNames_respelled {x y : String} (hname : sameName x y = true) {a b : RowSet}
    (h : a.Respelled b) : Agree RowSet.Respelled (checkNames x a) (checkNames y b) := by
  unfold checkNames
  rw [findIdx?_eq_of_forall₂ h.columns fun _ _ hcolumn => isEmpty_eq_of_sameName hcolumn]
  split
  · exact .error (.noColumnName _ hname)
  · exact .ok h

theorem Source.Respelled.load {x y : Source} (h : x.Respelled y) (hc : c.Respelled d) :
    Agree RowSet.Respelled (x.load c) (y.load d) := by
  induction h with
  | unit => exact .ok ⟨.nil, rfl⟩
  | table hname _ _ =>
    unfold Source.load
    rcases rel_option_cases (hc.read? hname.last) with ⟨hs, ht⟩ | ⟨t, u, hs, ht, htable⟩ <;>
      rw [hs, ht]
    · exact .error (.invalidObjectName hname.toText)
    · exact .ok ⟨htable.columnNames, htable.rows⟩
  | derived hselect _ hname ih =>
    exact ih.bind fun _ _ hrows => (hselect.run hrows).bind fun _ _ hset =>
      checkNames_respelled hname hset

theorem Query.Respelled.run {p q : Query} (h : p.Respelled q) (hc : c.Respelled d) :
    Agree RowSet.Respelled (p.run c) (q.run d) :=
  (h.source.load hc).bind fun _ _ hset => h.select.run hset

/-! ## Statements -/

/-- The statements are the same but for the spelling of names. -/
inductive Statement.Respelled : Statement → Statement → Prop
  | select {p q : Query} (h : p.Respelled q) : Respelled (.select p) (.select q)
  | createTable {a b : String} (hname : sameName a b = true) {cs ds : List Column}
      (hcolumns : Table.SameColumns cs ds) : Respelled (.createTable a cs) (.createTable b ds)
  | insert {a b : String} (hname : sameName a b = true) {names names' : Option (List String)}
      (hnames : Option.Rel SameNames names names') (rows : List Row) :
      Respelled (.insert a names rows) (.insert b names' rows)

/-- The statements have the same effect, up to the spelling of names. -/
theorem Statement.Respelled.perform {s t : Statement} (h : s.Respelled t) (hc : c.Respelled d) :
    Agree (fun a b => a.1.Respelled b.1 ∧ a.2.Respelled b.2) (s.perform.answer c)
      (t.perform.answer d) := by
  cases h with
  | select h =>
    rw [answer_select, answer_select]
    exact (h.run hc).map fun _ _ hset => ⟨.rowSet hset, hc⟩
  | createTable hname hcolumns =>
    rw [answer_createTable, answer_createTable]
    exact (Table.create_respelled hname hcolumns).bind fun _ _ htable =>
      (hc.create htable).bind fun _ _ hafter => .ok ⟨.nonQuery none, hafter⟩
  | insert hname hnames rows =>
    rw [answer_insert, answer_insert]
    refine (hc.insert hname hnames rows).bind fun a b hinserted => ?_
    obtain ⟨count, after⟩ := a
    obtain ⟨count', after'⟩ := b
    obtain ⟨rfl, hafter⟩ := hinserted
    exact .ok ⟨.nonQuery _, hafter⟩

end TransactSql
