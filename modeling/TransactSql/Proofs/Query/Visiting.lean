/-
TransactSql.Proofs.Query.Visiting — which rows a query looks at.

A selection visits the rows of its source in order, and with a limit it
stops at the row that fills it (`Select.visited`). On a visited row it
tries its condition, and on one that is accepted then its entries from
left to right; `Select.failures` are those that go wrong. So it answers
if nothing goes wrong on any visited row, and otherwise it reports what
goes wrong first (`collect_ok`, `collect_error`). All this is said by what
the condition and the expressions evaluate to on the row.

A limit only cuts a result short (`filter_upTo`). That every row of a
result has a value for each of its columns is an induction on the source,
which starts from consistent tables (`Source.rectangular_load`).
-/
import TransactSql.Proofs.Execution.Turns

namespace TransactSql

/-! ## Computations over lists -/

section Lists

variable {ε α β : Type}

/-- What the computation fails with, if it fails. -/
def failure? : Except ε α → Option ε
  | .error e => some e
  | .ok _ => none

/-- If there is an answer for a list, nothing goes wrong on any item. -/
theorem failures_of_forall₂ {f : α → Except ε β} {xs : List α} {ys : List β}
    (h : List.Forall₂ (fun x y => f x = .ok y) xs ys) :
    (xs.filterMap fun x => failure? (f x)) = [] := by
  induction h with
  | nil => rfl
  | cons hx _ ih => rw [List.filterMap_cons, hx]; exact ih

/-- Otherwise the first thing that goes wrong is reported. -/
theorem head?_failures_of_mapM {f : α → Except ε β} {xs : List α} {e : ε}
    (h : xs.mapM f = .error e) : (xs.filterMap fun x => failure? (f x)).head? = some e := by
  induction xs with
  | nil => cases h
  | cons x xs ih =>
    rw [List.mapM_cons] at h
    rw [List.filterMap_cons]
    cases hx : f x with
    | error e' =>
      rw [hx] at h
      cases h
      rfl
    | ok y =>
      rw [hx] at h
      cases hxs : xs.mapM f with
      | error e' =>
        rw [hxs] at h
        cases h
        exact ih hxs
      | ok ys =>
        rw [hxs] at h
        cases h

/-- The items up to and with the one at which so many have had a property. -/
def upTo (p : α → Bool) : (limit : Option Nat) → List α → List α
  | some 0, _ | _, [] => []
  | limit, x :: xs => x :: upTo p (if p x then limit.map (· - 1) else limit) xs

variable (p : α → Bool)

theorem upTo_nil (limit : Option Nat) : upTo p limit [] = [] := by
  rcases limit with _ | _ | n <;> rfl

theorem upTo_zero (xs : List α) : upTo p (some 0) xs = [] := by
  cases xs <;> rfl

theorem upTo_cons {limit : Option Nat} (h : limit ≠ some 0) (x : α) (xs : List α) :
    upTo p limit (x :: xs) = x :: upTo p (if p x then limit.map (· - 1) else limit) xs := by
  rw [upTo]
  exact h

theorem upTo_none (xs : List α) : upTo p none xs = xs := by
  induction xs with
  | nil => rfl
  | cons x xs ih => rw [upTo_cons p (by simp), Option.map_none, ite_self, ih]

theorem isPrefix_upTo (limit : Option Nat) (xs : List α) : upTo p limit xs <+: xs := by
  induction xs generalizing limit with
  | nil => simp only [upTo_nil, List.prefix_rfl]
  | cons x xs ih =>
    by_cases hlimit : limit = some 0
    · rw [hlimit, upTo_zero]
      exact List.nil_prefix
    · rw [upTo_cons p hlimit]
      exact List.prefix_cons_inj x |>.mpr (ih _)

/-- Those of the items up to the limit that have the property are the first ones that have it. -/
theorem filter_upTo (n : Nat) (xs : List α) :
    (upTo p (some n) xs).filter p = (xs.filter p).take n := by
  induction xs generalizing n with
  | nil => rw [upTo_nil, List.filter_nil, List.take_nil]
  | cons x xs ih =>
    cases n with
    | zero => rw [upTo_zero, List.take_zero, List.filter_nil]
    | succ n =>
      rw [upTo_cons p (by simp), List.filter_cons, List.filter_cons]
      cases hx : p x with
      | false => exact ih (n + 1)
      | true => exact congrArg (x :: ·) (ih n)

end Lists

/-! ## Visiting the rows of a source -/

namespace SelectItem

/-- The cells that the entry makes of a row: all of them for a wildcard, and one for an expression,
which is its value. -/
inductive Makes (source : RowSet) (row : Row) : SelectItem → Row → Prop
  | wildcard : Makes source row .wildcard row
  | expression {e : Expression} {v : Value} (h : e.eval (source.lookup row) = .ok v) :
    Makes source row (.expression e) [v]

/-- What goes wrong with the entry on a row. -/
def failure? (source : RowSet) (row : Row) : SelectItem → Option Error
  | wildcard => none
  | expression e => TransactSql.failure? (e.eval (source.lookup row))

variable {item : SelectItem} {source : RowSet} {row cells : Row}

theorem makes_iff : item.Makes source row cells ↔ item.project source row = .ok cells := by
  cases item with
  | wildcard =>
    refine ⟨fun h => by cases h; rfl, fun h => ?_⟩
    cases h
    exact .wildcard
  | expression e =>
    refine ⟨fun h => ?_, fun h => ?_⟩
    · cases h with | expression hv => exact bind_eq_ok.mpr ⟨_, hv, rfl⟩
    · obtain ⟨v, hv, h⟩ := bind_eq_ok.mp h
      cases h
      exact .expression hv

theorem failure?_eq : item.failure? source row =
    TransactSql.failure? (item.project source row) := by
  cases item with
  | wildcard => rfl
  | expression e =>
    rw [failure?, project]
    cases e.eval (source.lookup row) <;> rfl

end SelectItem

namespace Select

variable (s : Select) (source : RowSet)

/-- The condition is true of the row. Without a condition every row is accepted. -/
def accepts (row : Row) : Bool :=
  match s.filter with
  | none => true
  | some condition => condition.eval (source.lookup row) matches .ok true

/-- The rows of the source that are looked at: all up to the one that fills the limit. -/
def visited : List Row :=
  upTo (s.accepts source) s.limit source.rows

/-- The output row is made of what the entries of the select list make of the row, one after the
other. -/
def Projects (row output : Row) : Prop :=
  ∃ parts, List.Forall₂ (SelectItem.Makes source row) s.items parts ∧ output = parts.flatten

/-- What goes wrong on a row: the condition, or, if the row is accepted, entries of the select list
from left to right. -/
def failures (row : Row) : List Error :=
  (s.filter.bind fun condition => failure? (condition.eval (source.lookup row))).toList ++
    if s.accepts source row then s.items.filterMap (·.failure? source row) else []

variable {s source} {row output : Row} {e : Error} {kept : Bool}

/-! ### The condition -/

theorem accepts_of_keeps (h : s.keeps source row = .ok kept) : s.accepts source row = kept := by
  rw [keeps] at h
  rw [accepts]
  cases hfilter : s.filter with
  | none =>
    rw [hfilter] at h
    exact Except.ok.inj h
  | some condition =>
    rw [hfilter] at h
    dsimp only at h ⊢
    rw [h]
    cases kept <;> rfl

theorem failures_of_keeps (h : s.keeps source row = .ok kept) : s.failures source row =
    if kept then s.items.filterMap fun item => failure? (item.project source row) else [] := by
  have hnone : (s.filter.bind fun condition => failure? (condition.eval (source.lookup row))) =
      none := by
    rw [keeps] at h
    cases hfilter : s.filter with
    | none => rfl
    | some condition =>
      rw [hfilter] at h
      exact congrArg failure? h
  rw [failures, hnone, accepts_of_keeps h]
  simp only [Option.toList_none, List.nil_append, SelectItem.failure?_eq]

theorem failures_of_keeps_error (h : s.keeps source row = .error e) :
    s.failures source row = [e] := by
  obtain ⟨condition, hfilter, hcondition⟩ : ∃ condition, s.filter = some condition ∧
      condition.eval (source.lookup row) = .error e := by
    rw [keeps] at h
    split at h
    · cases h
    · exact ⟨_, ‹_›, h⟩
  have haccepts : s.accepts source row = false := by
    rw [accepts, hfilter]
    dsimp only
    rw [hcondition]
  rw [failures, haccepts, hfilter, Option.bind_some, hcondition]
  rfl

/-- It is known whether a row is kept if the condition, where there is one, has a value on it. -/
theorem exists_keeps_iff : (∃ kept, s.keeps source row = .ok kept) ↔
    ∀ condition ∈ s.filter, ∃ kept, condition.eval (source.lookup row) = .ok kept := by
  rw [keeps]
  cases s.filter <;> simp

/-! ### The entries -/

theorem forall₂_makes_iff {parts : List Row} :
    List.Forall₂ (SelectItem.Makes source row) s.items parts ↔
      s.items.mapM (·.project source row) = .ok parts := by
  simp only [mapM_eq_ok_iff, ← SelectItem.makes_iff]

theorem projects_of_project (h : s.project source row = .ok output) :
    s.Projects source row output := by
  obtain ⟨parts, hparts, h⟩ := bind_eq_ok.mp h
  exact ⟨parts, forall₂_makes_iff.mpr hparts, (Except.ok.inj h).symm⟩

theorem Projects.failures_eq_nil (h : s.Projects source row output)
    (hkeeps : s.keeps source row = .ok true) : s.failures source row = [] := by
  obtain ⟨parts, hparts, -⟩ := h
  rw [failures_of_keeps hkeeps, if_pos rfl]
  exact failures_of_forall₂ (hparts.imp fun _ _ => SelectItem.makes_iff.mp)

theorem Projects.unique {other : Row} (h : s.Projects source row output)
    (h' : s.Projects source row other) : output = other := by
  obtain ⟨parts, hparts, rfl⟩ := h
  obtain ⟨parts', hparts', rfl⟩ := h'
  have hsame := (forall₂_makes_iff.mp hparts).symm.trans (forall₂_makes_iff.mp hparts')
  rw [Except.ok.inj hsame]

theorem head?_failures_of_project (hkeeps : s.keeps source row = .ok true)
    (h : s.project source row = .error e) : (s.failures source row).head? = some e := by
  rw [failures_of_keeps hkeeps, if_pos rfl]
  cases hparts : s.items.mapM (·.project source row) with
  | error e' =>
    rw [project, hparts] at h
    cases h
    exact head?_failures_of_mapM hparts
  | ok parts =>
    rw [project, hparts] at h
    cases h

/-- Nothing goes wrong on a row if its condition has a value and, if that is true, each entry has
one. -/
theorem failures_eq_nil_iff : s.failures source row = [] ↔
    (∀ condition ∈ s.filter, ∃ kept, condition.eval (source.lookup row) = .ok kept) ∧
      (s.accepts source row = true →
        ∀ item ∈ s.items, ∃ cells, item.Makes source row cells) := by
  have hok : ∀ item : SelectItem, failure? (item.project source row) = none ↔
      ∃ cells, item.Makes source row cells := by
    intro item
    simp only [SelectItem.makes_iff]
    cases item.project source row <;> simp [failure?]
  rw [← exists_keeps_iff]
  cases hkeeps : s.keeps source row with
  | error e => simp [failures_of_keeps_error hkeeps]
  | ok kept =>
    rw [failures_of_keeps hkeeps, accepts_of_keeps hkeeps]
    cases kept <;> simp [List.filterMap_eq_nil_iff, hok]

/-! ## Collecting -/

theorem collect_zero (rows : List Row) : s.collect source (some 0) rows = .ok [] := by
  rw [collect]

theorem collect_nil (limit : Option Nat) : s.collect source limit [] = .ok [] := by
  rcases limit with _ | _ | n <;> rw [collect] <;> nofun

theorem collect_cons {limit : Option Nat} (h : limit ≠ some 0) (row : Row) (rest : List Row) :
    s.collect source limit (row :: rest) = (do
      if ← s.keeps source row then
        let output ← s.project source row
        let more ← s.collect source (limit.map (· - 1)) rest
        .ok (output :: more)
      else s.collect source limit rest) := by
  rw [collect]
  exact h

/-- If rows are collected, nothing goes wrong on a visited row, and the accepted ones are
projected. -/
theorem collect_ok {limit : Option Nat} {rows outputs : List Row}
    (h : s.collect source limit rows = .ok outputs) :
    (∀ row ∈ upTo (s.accepts source) limit rows, s.failures source row = []) ∧
      List.Forall₂ (s.Projects source)
        ((upTo (s.accepts source) limit rows).filter (s.accepts source)) outputs := by
  induction rows generalizing limit outputs with
  | nil =>
    rw [collect_nil] at h
    cases h
    rw [upTo_nil]
    exact ⟨List.forall_mem_nil _, .nil⟩
  | cons row rest ih =>
    by_cases hlimit : limit = some 0
    · rw [hlimit, collect_zero] at h
      cases h
      rw [hlimit, upTo_zero]
      exact ⟨List.forall_mem_nil _, .nil⟩
    · rw [collect_cons hlimit] at h
      rw [upTo_cons _ hlimit, List.filter_cons, List.forall_mem_cons]
      obtain ⟨kept, hkeeps, h⟩ := bind_eq_ok.mp h
      have haccepts := accepts_of_keeps hkeeps
      rw [haccepts]
      cases kept with
      | false =>
        obtain ⟨hfailures, houtputs⟩ := ih h
        exact ⟨⟨failures_of_keeps hkeeps, hfailures⟩, houtputs⟩
      | true =>
        obtain ⟨output, hproject, h⟩ := bind_eq_ok.mp h
        obtain ⟨more, hmore, h⟩ := bind_eq_ok.mp h
        cases h
        obtain ⟨hfailures, houtputs⟩ := ih hmore
        have hprojects := projects_of_project hproject
        exact ⟨⟨hprojects.failures_eq_nil hkeeps, hfailures⟩, .cons hprojects houtputs⟩

/-- If rows cannot be collected, the failure is the first one on the visited rows. -/
theorem collect_error {limit : Option Nat} {rows : List Row}
    (h : s.collect source limit rows = .error e) :
    ((upTo (s.accepts source) limit rows).flatMap (s.failures source)).head? = some e := by
  induction rows generalizing limit with
  | nil =>
    rw [collect_nil] at h
    cases h
  | cons row rest ih =>
    by_cases hlimit : limit = some 0
    · rw [hlimit, collect_zero] at h
      cases h
    · rw [collect_cons hlimit] at h
      rw [upTo_cons _ hlimit, List.flatMap_cons, List.head?_append]
      cases hkeeps : s.keeps source row with
      | error e' =>
        rw [hkeeps] at h
        cases h
        rw [failures_of_keeps_error hkeeps]
        rfl
      | ok kept =>
        have haccepts := accepts_of_keeps hkeeps
        rw [hkeeps] at h
        rw [haccepts]
        cases kept with
        | false =>
          rw [failures_of_keeps hkeeps]
          exact ih h
        | true =>
          cases hproject : s.project source row with
          | error e' =>
            have hfirst := head?_failures_of_project hkeeps hproject
            rw [hproject] at h
            cases h
            rw [hfirst]
            rfl
          | ok output =>
            rw [(projects_of_project hproject).failures_eq_nil hkeeps]
            rw [hproject] at h
            cases hmore : s.collect source (limit.map (· - 1)) rest with
            | error e' =>
              rw [hmore] at h
              cases h
              exact ih hmore
            | ok more =>
              rw [hmore] at h
              cases h

/-! ## Running -/

theorem run_ok {set : RowSet} (h : s.run source = .ok set) :
    set.columns = s.columnNames source.columns ∧
      (∀ row ∈ s.visited source, s.failures source row = []) ∧
      List.Forall₂ (s.Projects source) ((s.visited source).filter (s.accepts source)) set.rows := by
  obtain ⟨rows, hrows, h⟩ := bind_eq_ok.mp h
  cases h
  exact ⟨rfl, collect_ok hrows⟩

/-- Every row of a result is made of a row of the source. -/
theorem exists_source_row {result : RowSet} (h : s.run source = .ok result)
    (houtput : output ∈ result.rows) : ∃ row ∈ source.rows, s.Projects source row output := by
  obtain ⟨row, hrow, hprojects⟩ := exists_of_mem_forall₂ (run_ok h).2.2 houtput
  exact ⟨row, (isPrefix_upTo _ _ _).subset (List.mem_of_mem_filter hrow), hprojects⟩

theorem run_error (h : s.run source = .error e) :
    ((s.visited source).flatMap (s.failures source)).head? = some e := by
  cases hrows : s.collect source s.limit source.rows with
  | error e' =>
    rw [run, hrows] at h
    cases h
    exact collect_error hrows
  | ok rows =>
    rw [run, hrows] at h
    cases h

/-- A selection answers exactly if nothing goes wrong on a visited row. -/
theorem exists_run_ok_iff :
    (∃ set, s.run source = .ok set) ↔ ∀ row ∈ s.visited source, s.failures source row = [] := by
  constructor
  · rintro ⟨set, hset⟩
    exact (run_ok hset).2.1
  · intro hnone
    cases hrun : s.run source with
    | ok set => exact ⟨set, rfl⟩
    | error e =>
      have hfirst := run_error hrun
      rw [List.flatMap_eq_nil_iff.mpr hnone] at hfirst
      cases hfirst

/-- With a limit a selection answers the first rows of what it answers without one. -/
theorem run_limit {set : RowSet} (h : { s with limit := none }.run source = .ok set) (n : Nat) :
    { s with limit := some n }.run source = .ok ⟨set.columns, set.rows.take n⟩ := by
  obtain ⟨hcolumns, hfailures, houtputs⟩ := run_ok h
  have hsub : ∀ row ∈ { s with limit := some n }.visited source,
      { s with limit := some n }.failures source row = [] := by
    intro row hrow
    refine hfailures row ?_
    rw [visited, upTo_none]
    exact (isPrefix_upTo _ _ _).subset hrow
  obtain ⟨limited, hlimited⟩ := exists_run_ok_iff.mpr hsub
  obtain ⟨hcolumns', -, houtputs'⟩ := run_ok hlimited
  have hunique : Relator.RightUnique (s.Projects source) := fun _ _ _ => Projects.unique
  have hrows : limited.rows = set.rows.take n := by
    rw [visited, upTo_none] at houtputs
    rw [visited, filter_upTo] at houtputs'
    exact List.right_unique_forall₂' hunique houtputs' (List.forall₂_take n houtputs)
  have hsame : limited.columns = set.columns := hcolumns'.trans hcolumns.symm
  rw [hlimited, ← hrows, ← hsame]

end Select

/-! ## The width of a result -/

/-- Every row has a value for each column, and no others. -/
def RowSet.Rectangular (set : RowSet) : Prop :=
  ∀ row ∈ set.rows, row.length = set.columns.length

namespace Select

variable {s : Select} {source : RowSet}

theorem length_of_projects {row output : Row} (hrow : row.length = source.columns.length)
    (h : s.Projects source row output) : output.length = (s.columnNames source.columns).length := by
  obtain ⟨parts, hparts, rfl⟩ := h
  rw [columnNames]
  generalize s.items = items at hparts
  induction hparts with
  | nil => rfl
  | @cons item part _ _ hitem _ ih =>
    have hpart : part.length = (item.columnNames source.columns).length := by
      cases hitem with
      | wildcard => exact hrow
      | expression hv => rfl
    rw [List.flatten_cons, List.length_append, List.flatMap_cons, List.length_append, hpart, ih]

theorem rectangular_run (hsource : source.Rectangular) {set : RowSet}
    (h : s.run source = .ok set) : set.Rectangular := by
  intro output houtput
  obtain ⟨row, hrow, hprojects⟩ := exists_source_row h houtput
  rw [(run_ok h).1]
  exact length_of_projects (hsource row hrow) hprojects

end Select

theorem SystemType.rectangular_table :
    RowSet.Rectangular ⟨SystemType.table.columnNames, SystemType.table.rows⟩ := by
  intro row hrow
  obtain ⟨t, -, rfl⟩ := List.mem_map.mp hrow
  rfl

/-- What is loaded from consistent tables has the width of its columns. -/
theorem Source.rectangular_load {catalog : Catalog} (h : catalog.Consistent) {source : Source}
    {set : RowSet} (hload : source.load catalog = .ok set) : set.Rectangular := by
  induction source generalizing set with
  | unit =>
    cases hload
    exact List.forall_mem_singleton.mpr rfl
  | table name tableAlias =>
    unfold load at hload
    split at hload
    · rename_i found hfound
      cases hload
      unfold Catalog.read? at hfound
      split at hfound
      · rename_i table hget
        cases hfound
        obtain ⟨entry, hentry, rfl⟩ := CollatedMap.exists_mem_of_get? hget
        intro row hrow
        rw [((h.tables entry hentry).rows row hrow).length]
        exact (List.length_map _).symm
      · split at hfound
        · cases hfound
          exact SystemType.rectangular_table
        · cases hfound
    · cases hload
  | derived select source tableAlias ih =>
    obtain ⟨rows, hrows, hload⟩ := bind_eq_ok.mp hload
    obtain ⟨selected, hselected, hload⟩ := bind_eq_ok.mp hload
    unfold checkNames at hload
    split at hload
    · cases hload
    · cases hload
      exact Select.rectangular_run (ih hrows) hselected

/-! ## Queries on any server -/

namespace Query

/-- A query on a server visits the rows of its source in order, up to its limit. It answers if
nothing goes wrong on them, with one row for each accepted one, as wide as its columns, and fails
with the first thing that goes wrong otherwise. A limit cuts off what would come behind it. -/
theorem run_visits_in_order (configuration : Configuration) {events : List Site.Event}
    (h : ∀ event ∈ events, event.WellFormed) (q : Query) {source : RowSet}
    (hsource : q.source.load ((Site.create configuration).run events).server.catalog =
      .ok source) :
    let catalog := ((Site.create configuration).run events).server.catalog
    let visited := q.select.visited source
    ((∃ set, q.run catalog = .ok set) ↔
        ∀ row ∈ visited,
          (∀ condition ∈ q.select.filter,
            ∃ kept, condition.eval (source.lookup row) = .ok kept) ∧
          (q.select.accepts source row = true →
            ∀ item ∈ q.select.items, ∃ cells, item.Makes source row cells)) ∧
      (∀ set, q.run catalog = .ok set →
        set.columns = q.select.columnNames source.columns ∧
        List.Forall₂ (q.select.Projects source) (visited.filter (q.select.accepts source))
          set.rows ∧
        ∀ row ∈ set.rows, row.length = set.columns.length) ∧
      (∀ e, q.run catalog = .error e →
        (visited.flatMap (q.select.failures source)).head? = some e) ∧
      ∀ set, Query.run ⟨{ q.select with limit := none }, q.source⟩ catalog = .ok set →
        ∀ n, Query.run ⟨{ q.select with limit := some n }, q.source⟩ catalog =
          .ok ⟨set.columns, set.rows.take n⟩ := by
  intro catalog visited
  have hcreate : (Site.create configuration).Consistent :=
    ⟨Catalog.empty_sound, List.forall_mem_nil _, List.forall_mem_nil _⟩
  have hsite := hcreate.run h
  have hrectangular : source.Rectangular :=
    Source.rectangular_load (hsite.sound.consistent hsite.tables) hsource
  have hrun : ∀ select : Select, Query.run ⟨select, q.source⟩ catalog = select.run source := by
    intro select
    rw [Query.run, hsource]
    rfl
  simp only [hrun q.select, hrun]
  refine ⟨?_, fun set hset => ?_, fun e he => Select.run_error he, fun set hset n => ?_⟩
  · simp only [Select.exists_run_ok_iff, Select.failures_eq_nil_iff]
    rfl
  · obtain ⟨hcolumns, -, houtputs⟩ := Select.run_ok hset
    exact ⟨hcolumns, houtputs, Select.rectangular_run hrectangular hset⟩
  · exact Select.run_limit hset n

/-- Of three rows the last one is accepted: a NULL is not greater than a number. The wildcard and a
column make two cells of it. -/
theorem run_visits_in_order_greater :
    let events : List Site.Event := [.start "CREATE TABLE t (a int)" Bindings.none,
      .start "INSERT t VALUES (1), (NULL), (3)" Bindings.none, .next 0, .next 1]
    let catalog := ((Site.create {}).run events).server.catalog
    let filter := Predicate.comparison .greater (.reference ["a"]) (.value (.int 1))
    let q : Query := ⟨⟨some 1, [.wildcard, .expression (.reference ["A"])], some filter⟩,
      .table ["T"] none⟩
    let source : RowSet := ⟨["a"], [[.int 1], [.null .int], [.int 3]]⟩
    (∀ event ∈ events, event.WellFormed) ∧ q.source.load catalog = .ok source ∧
      q.select.visited source = source.rows ∧
      q.run catalog = .ok ⟨["a", "A"], [[.int 3, .int 3]]⟩ ∧
      List.Forall₂ (q.select.Projects source)
        ((q.select.visited source).filter (q.select.accepts source)) [[.int 3, .int 3]] := by
  intro events catalog filter q source
  have hnone : ∀ entry ∈ Bindings.none.toList, entry.2.isWellFormed = true := nofun
  have hevents : ∀ event ∈ events, event.WellFormed := by
    intro event hevent
    simp only [events, List.mem_cons, List.not_mem_nil, or_false] at hevent
    rcases hevent with rfl | rfl | rfl | rfl
    · exact hnone
    · exact hnone
    · trivial
    · trivial
  have hsource : q.source.load catalog = .ok source := by decide +kernel
  have hvisited : q.select.visited source = source.rows := by decide +kernel
  have hrun : q.run catalog = .ok ⟨["a", "A"], [[.int 3, .int 3]]⟩ := by decide +kernel
  have hvisits := run_visits_in_order {} hevents q hsource
  exact ⟨hevents, hsource, hvisited, hrun, (hvisits.2.1 _ hrun).2.1⟩

end Query
end TransactSql
