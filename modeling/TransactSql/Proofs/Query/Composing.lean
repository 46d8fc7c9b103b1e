/-
TransactSql.Proofs.Query.Composing — conditions one after the other.

A derived table that keeps the rows of which one condition is true can be
queried with a second condition. That answers what one query answers with
both conditions joined by `AND` (`Query.run_derived_filter`). The derived
table has the columns of its source, so a reference finds the same value
in both; and the second condition is tried on the same rows, since a
conjunction does not look at its right-hand side where the left one is
not true (`Select.collect_composed`). The two queries may fail
differently: the derived table is made as a whole before the second
condition is tried on any row.
-/
import TransactSql.Proofs.Query.Visiting
import TransactSql.Proofs.Store.Places

namespace TransactSql

/-! ## Collecting twice -/

namespace Select

variable {s : Select} {source set : RowSet} {items : List SelectItem} {p q : Predicate}

/-- What a selection makes of rows depends on the names of their columns only. -/
theorem collect_columns (others rows : List Row) :
    s.collect ⟨source.columns, others⟩ none rows = s.collect source none rows := by
  have hnone : (none : Option Nat) ≠ some 0 := nofun
  induction rows with
  | nil => rw [collect_nil, collect_nil]
  | cons row rest ih =>
    rw [collect_cons hnone, collect_cons hnone, Option.map_none, ih]
    rfl

/-- Rows are collected if the first one is left out and the others are collected, or if the first
one is kept, something is made of it, and the others are collected. -/
theorem collect_cons_ok_iff {row : Row} {rest outputs : List Row} :
    s.collect source none (row :: rest) = .ok outputs ↔
      (s.keeps source row = .ok false ∧ s.collect source none rest = .ok outputs) ∨
      (s.keeps source row = .ok true ∧ ∃ output more, s.project source row = .ok output ∧
        s.collect source none rest = .ok more ∧ output :: more = outputs) := by
  have hnone : (none : Option Nat) ≠ some 0 := nofun
  rw [collect_cons hnone, bind_eq_ok, Bool.exists_bool]
  simp [bind_eq_ok]

/-- If one selection keeps a row as it is, and a second one goes on as a third one does with both
conditions, then the third one collects what the second one collects from what the first one
collects. -/
theorem collect_composed {first second both : Select}
    (hfirst : ∀ row, first.project source row = .ok row)
    (hproject : ∀ row, both.project source row = second.project source row)
    (hkeeps : ∀ row, both.keeps source row = (first.keeps source row >>= fun isTrue =>
      if isTrue then second.keeps source row else .ok false))
    {rows outputs : List Row} :
    both.collect source none rows = .ok outputs ↔
      ∃ kept, first.collect source none rows = .ok kept ∧
        second.collect source none kept = .ok outputs := by
  induction rows generalizing outputs with
  | nil => simp [collect_nil]
  | cons row rest ih =>
    simp only [collect_cons_ok_iff, hkeeps, hproject, ih]
    rcases first.keeps source row with e | _ | _
    · simp [Bind.bind, Except.bind]
    · simp [Bind.bind, Except.bind]
    · constructor
      · rintro (⟨hsecond, kept, hkept, houtputs⟩ |
          ⟨hsecond, output, more, houtput, ⟨kept, hkept, hmore⟩, rfl⟩)
        · exact ⟨row :: kept, .inr ⟨rfl, row, kept, hfirst row, hkept, rfl⟩,
            collect_cons_ok_iff.mpr (.inl ⟨hsecond, houtputs⟩)⟩
        · exact ⟨row :: kept, .inr ⟨rfl, row, kept, hfirst row, hkept, rfl⟩,
            collect_cons_ok_iff.mpr (.inr ⟨hsecond, output, more, houtput, hmore, rfl⟩)⟩
      · rintro ⟨_, ⟨hfalse, -⟩ | ⟨-, same, kept, hsame, hkept, rfl⟩, houtputs⟩
        · cases hfalse
        obtain rfl : row = same := Except.ok.inj ((hfirst row).symm.trans hsame)
        rcases collect_cons_ok_iff.mp houtputs with
          ⟨hsecond, houtputs⟩ | ⟨hsecond, output, more, houtput, hmore, rfl⟩
        · exact .inl ⟨hsecond, kept, hkept, houtputs⟩
        · exact .inr ⟨hsecond, output, more, houtput, ⟨kept, hkept, hmore⟩, rfl⟩

/-- A derived table keeps rows as they are. -/
theorem collect_and_iff {rows outputs : List Row} :
    collect ⟨none, items, some (.and p q)⟩ source none rows = .ok outputs ↔
      ∃ kept, collect ⟨none, [.wildcard], some p⟩ source none rows = .ok kept ∧
        collect ⟨none, items, some q⟩ source none kept = .ok outputs := by
  have hfirst : ∀ row, project ⟨none, [.wildcard], some p⟩ source row = .ok row :=
    fun row => congrArg Except.ok (List.append_nil row)
  have hproject : ∀ row, project ⟨none, items, some (.and p q)⟩ source row =
      project ⟨none, items, some q⟩ source row := fun _ => rfl
  have hkeeps : ∀ row, keeps ⟨none, items, some (.and p q)⟩ source row =
      (keeps ⟨none, [.wildcard], some p⟩ source row >>= fun isTrue =>
        if isTrue then keeps ⟨none, items, some q⟩ source row else .ok false) := fun _ => rfl
  exact collect_composed hfirst hproject hkeeps

/-- The answer of a selection without a limit. -/
theorem run_ok_iff {filter : Option Predicate} : run ⟨none, items, filter⟩ source = .ok set ↔
    ∃ rows, collect ⟨none, items, filter⟩ source none source.rows = .ok rows ∧
      ⟨columnNames ⟨none, items, filter⟩ source.columns, rows⟩ = set := by
  simp only [run, bind_eq_ok, Except.ok.injEq]

end Select

/-! ## Derived tables -/

namespace Source

variable {catalog : Catalog} {source : Source} {loaded set : RowSet}

/-- Columns that all have names are taken as they are. -/
theorem checkNames_of_named {columns : List String} (h : ∀ name ∈ columns, name ≠ "")
    (tableAlias : String) (rows : List Row) :
    checkNames tableAlias ⟨columns, rows⟩ = .ok ⟨columns, rows⟩ := by
  have hnone : columns.findIdx? (·.isEmpty) = none := by
    rw [List.findIdx?_eq_none_iff]
    intro name hname
    simpa using h name hname
  rw [checkNames, hnone]

/-- A derived table that takes all columns has the columns of its source, and the rows that its
condition keeps. -/
theorem load_derived_iff (hloaded : source.load catalog = .ok loaded)
    (hnames : ∀ name ∈ loaded.columns, name ≠ "") (p : Predicate) (tableAlias : String) :
    (derived ⟨none, [.wildcard], some p⟩ source tableAlias).load catalog = .ok set ↔
      ∃ kept, Select.collect ⟨none, [.wildcard], some p⟩ loaded none loaded.rows = .ok kept ∧
        ⟨loaded.columns, kept⟩ = set := by
  have hcolumns : Select.columnNames ⟨none, [.wildcard], some p⟩ loaded.columns = loaded.columns :=
    List.append_nil _
  simp only [load, hloaded, bind_eq_ok, Except.ok.injEq, exists_eq_left', Select.run_ok_iff,
    hcolumns]
  constructor
  · rintro ⟨_, ⟨kept, hkept, rfl⟩, h⟩
    rw [checkNames_of_named hnames] at h
    exact ⟨kept, hkept, Except.ok.inj h⟩
  · rintro ⟨kept, hkept, rfl⟩
    exact ⟨_, ⟨kept, hkept, rfl⟩, checkNames_of_named hnames tableAlias kept⟩

end Source

namespace Query

/-- On any catalog the two queries answer the same. -/
theorem run_and_iff {catalog : Catalog} {source : Source} {items : List SelectItem}
    {p q : Predicate} {tableAlias : String} {set : RowSet}
    (hnames : ∀ loaded, source.load catalog = .ok loaded → ∀ name ∈ loaded.columns, name ≠ "") :
    Query.run ⟨⟨none, items, some (.and p q)⟩, source⟩ catalog = .ok set ↔
      Query.run ⟨⟨none, items, some q⟩,
        .derived ⟨none, [.wildcard], some p⟩ source tableAlias⟩ catalog = .ok set := by
  cases hloaded : source.load catalog with
  | error e => simp [Query.run, Source.load, hloaded, bind_eq_ok]
  | ok loaded =>
    simp only [Query.run, hloaded, bind_eq_ok, Except.ok.injEq, exists_eq_left',
      Source.load_derived_iff hloaded (hnames loaded hloaded), Select.run_ok_iff,
      Select.collect_and_iff]
    constructor
    · rintro ⟨rows, ⟨kept, hkept, hrows⟩, rfl⟩
      exact ⟨_, ⟨kept, hkept, rfl⟩, rows, (Select.collect_columns kept kept).trans hrows, rfl⟩
    · rintro ⟨_, ⟨kept, hkept, rfl⟩, rows, hrows, rfl⟩
      exact ⟨rows, ⟨kept, hkept, (Select.collect_columns kept kept).symm.trans hrows⟩, rfl⟩

/-- On a server, whatever is selected from a source whose columns all have names: a query with two
conditions joined by `AND` answers exactly if the query with the second condition answers on the
derived table that the first condition makes of the source, and both answer the same columns and
the same rows in the same order. It makes no difference there that a table finds its columns in a
map that is made once, and a derived table in one that is made of its names. -/
theorem run_derived_filter (configuration : Configuration) {events : List Site.Event}
    (h : ∀ event ∈ events, event.WellFormed) (source : Source) (items : List SelectItem)
    (p q : Predicate) (tableAlias : String) :
    let catalog := ((Site.create configuration).run events).server.catalog
    (∀ loaded, source.load catalog = .ok loaded → ∀ name ∈ loaded.columns, name ≠ "") →
      (∀ set, Query.run ⟨⟨none, items, some (.and p q)⟩, source⟩ catalog = .ok set ↔
        Query.run ⟨⟨none, items, some q⟩,
          .derived ⟨none, [.wildcard], some p⟩ source tableAlias⟩ catalog = .ok set) ∧
      (∀ name t, catalog.read? name = some t → ∀ column,
        (lastPlaces t.columnNames).get? column =
          RowSet.columnIndex? ⟨t.columnNames, t.rows⟩ column) ∧
      ∀ (set : RowSet) column, (firstPlaces set.columns).get? column = set.columnIndex? column := by
  intro catalog hnames
  have hcatalog : catalog.Consistent := ((Site.Consistent.create configuration).run h).catalog
  refine ⟨fun set => run_and_iff hnames, fun name t hread column => ?_,
    fun set column => get?_firstPlaces set.columns column⟩
  rw [lastPlaces_eq (hcatalog.names_of_read? hread)]
  exact get?_firstPlaces t.columnNames column

/-- The second condition fails on the first of three rows, which the first condition leaves out, and
is true of the last one. -/
theorem run_derived_filter_quotient :
    let events : List Site.Event := [.start "CREATE TABLE t (a int)" Bindings.none,
      .start "INSERT t VALUES (1), (NULL), (3)" Bindings.none, .next 0, .next 1]
    let catalog := ((Site.create {}).run events).server.catalog
    let p := Predicate.comparison .greater (.reference ["a"]) (.value (.int 1))
    let q := Predicate.comparison .equal (.binary .divide (.value (.int 6)) (.parenthesized
      (.binary .subtract (.reference ["A"]) (.value (.int 1))))) (.value (.int 3))
    (∀ event ∈ events, event.WellFormed) ∧
      (∀ loaded, (Source.table ["T"] none).load catalog = .ok loaded →
        ∀ name ∈ loaded.columns, name ≠ "") ∧
      Query.run ⟨⟨none, [.wildcard], some q⟩, .table ["T"] none⟩ catalog = .error .divideByZero ∧
      Query.run ⟨⟨none, [.wildcard], some (.and p q)⟩, .table ["T"] none⟩ catalog =
        .ok ⟨["a"], [[.int 3]]⟩ := by
  intro events catalog p q
  have hevents : ∀ event ∈ events, event.WellFormed := by decide +kernel
  have hload : (Source.table ["T"] none).load catalog =
      .ok ⟨["a"], [[.int 1], [.null .int], [.int 3]]⟩ := by decide +kernel
  have hnames : ∀ loaded, (Source.table ["T"] none).load catalog = .ok loaded →
      ∀ name ∈ loaded.columns, name ≠ "" := by
    intro loaded hloaded
    obtain rfl := Except.ok.inj (hload.symm.trans hloaded)
    decide
  have hderived : Query.run ⟨⟨none, [.wildcard], some q⟩,
      .derived ⟨none, [.wildcard], some p⟩ (.table ["T"] none) "d"⟩ catalog =
        .ok ⟨["a"], [[.int 3]]⟩ := by decide +kernel
  have hsame := run_derived_filter {} hevents (.table ["T"] none) [.wildcard] p q "d" hnames
  exact ⟨hevents, hnames, by decide +kernel, (hsame.1 _).mpr hderived⟩

end Query
end TransactSql
