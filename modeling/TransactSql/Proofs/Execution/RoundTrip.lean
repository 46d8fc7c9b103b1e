/-
TransactSql.Proofs.Execution.RoundTrip — what is written is read back.

A script is a text of statements with semicolons between them. If each of
the statements succeeds on the catalog that the ones before it leave, the
script is run to its end and has their outcomes (`execute_of_executes`).

The script that writes a table and selects its rows has three outcomes;
the last of them holds the names of the columns and the rows as they were
given (`execute_script`).
-/
import TransactSql.Proofs.Execution.Layout
import TransactSql.Proofs.Execution.Turns
import TransactSql.Proofs.Query.Visiting
import TransactSql.Proofs.Statement.Script
import TransactSql.Proofs.Store.Loading

namespace TransactSql

open Parse Lexer

open Token (written)

variable {catalog between after : Catalog}

/-- The texts are those of statements that have these outcomes, one after the other, and lead from
one catalog to another. -/
inductive Executes : Catalog → List String → List Outcome → Catalog → Prop
  | nil (catalog : Catalog) : Executes catalog [] [] catalog
  | cons {catalog between after : Catalog} {text : String} {statement : Statement}
      {texts : List String} {outcome : Outcome} {outcomes : List Outcome}
      (htext : IsStatement text statement)
      (hrun : statement.perform.run catalog = .ok outcome between)
      (hrest : Executes between texts outcomes after) :
      Executes catalog (text :: texts) (outcome :: outcomes) after

namespace Execution

variable {e : Execution} {server : Server} {t : Token} {ts rest : List Token}
  {outcomes : List Outcome}

/-! ## Tokens that are run -/

/-- Where these tokens are all that is left, they are run to their end with these outcomes. -/
def RunsTo (ts : List Token) (catalog : Catalog) (outcomes : List Outcome) (after : Catalog) :
    Prop :=
  ∀ (e : Execution) (server : Server) (last : String), e.finished = false →
    e.cursor = ⟨ts, none, last⟩ → server.catalog = catalog →
    e.run server = ⟨outcomes, none, { server with catalog := after }⟩

theorem runsTo_nil (catalog : Catalog) : RunsTo [] catalog [] catalog := by
  intro e server last hfinished hcursor hcatalog
  have hend : e.cursor.next = (.ok none, e.cursor) := by rw [hcursor]; rfl
  rw [run_eq, next_of_end hfinished hend, ← hcatalog]

/-- A semicolon is passed over. -/
theorem RunsTo.terminator (h : RunsTo ts catalog outcomes after) (ht : t.kind = .terminator) :
    RunsTo (t :: ts) catalog outcomes after := by
  intro e server last hfinished hcursor hcatalog
  have hnext : e.cursor.next = (.ok (some t), ⟨ts, none, t.literal⟩) := by rw [hcursor]; rfl
  have hcall : e.next server = { e with cursor := ⟨ts, none, t.literal⟩ }.next server := by
    rw [next_of_token hfinished hnext, handle, if_pos (beq_iff_eq.mpr ht)]
  rw [run_eq, hcall, ← run_eq]
  exact h _ server t.literal hfinished rfl hcatalog

/-- A token that begins a statement is no semicolon, and sets no option. -/
theorem handle_of_takes {scope : Scope} {statement : Statement} {cursor : Cursor}
    (h : Takes Token.EndsStatement (Statement.read scope t) ts statement) :
    handle e server t cursor = runStatement e server t cursor := by
  have hread : ∀ error, Statement.read scope t ≠ fail error := by
    intro error heq
    obtain ⟨last, hrun⟩ := h [] "" (fun _ ht => by cases ht)
    rw [heq] at hrun
    cases hrun
  have hterminator : (t.kind == .terminator) = false := by
    refine beq_eq_false_iff_ne.mpr fun heq => hread t.unexpected ?_
    simp only [Statement.read, heq]
  have hset : t.isKeyword .SET = false := by
    refine beq_eq_false_iff_ne.mpr fun heq => ?_
    cases hknown : Keyword.SET.beginsUnsupportedStatement with
    | true => exact hread (.unsupported (.statement .SET)) (by simp [Statement.read, heq, hknown])
    | false => exact hread t.unexpected (by simp [Statement.read, heq, hknown])
  simp only [handle, hterminator, hset, Bool.false_eq_true, if_false]

/-- A statement is read and run before the tokens behind it. -/
theorem RunsTo.statement {statement : Statement} {outcome : Outcome}
    (h : RunsTo rest between outcomes after) (hrest : Followed Token.EndsStatement rest)
    (hread : ∀ scope, Takes Token.EndsStatement (Statement.read scope t) ts statement)
    (hrun : statement.perform.run catalog = .ok outcome between) :
    RunsTo (t :: (ts ++ rest)) catalog (outcome :: outcomes) after := by
  intro e server last hfinished hcursor hcatalog
  have hnext : e.cursor.next = (.ok (some t), ⟨ts ++ rest, none, t.literal⟩) := by
    rw [hcursor]
    rfl
  obtain ⟨last', hstatement⟩ := hread (e.scope server) rest t.literal hrest
  have hlater := h { e with cursor := ⟨rest, none, last'⟩, rowCount := outcome.rowCount }
    { server with catalog := between } last' hfinished rfl rfl
  rw [run_eq, next_of_token hfinished hnext, handle_of_takes (hread (e.scope server)), runStatement,
    hstatement]
  simp only [hcatalog, hrun, hlater]

/-! ## Scripts -/

/-- The statements of a script are run one after the other. -/
theorem runsTo_of_executes {texts : List String} (h : Executes catalog texts outcomes after) :
    ∃ ts, Renders ("; ".intercalate texts) ts ∧ RunsTo ts catalog outcomes after := by
  induction h with
  | nil catalog => exact ⟨[], fun _ _ _ hrest => hrest, runsTo_nil catalog⟩
  | @cons _ between after text _ texts _ outcomes htext hrun hrest ih =>
    obtain ⟨t, ts, hrenders, hread⟩ := htext
    cases texts with
    | nil =>
      cases hrest
      have hstatement := (runsTo_nil between).statement (fun _ ht => by cases ht) hread hrun
      rw [List.append_nil] at hstatement
      refine ⟨t :: ts, ?_, hstatement⟩
      rwa [String.intercalate_singleton]
    | cons text' texts =>
      obtain ⟨us, hothers, hlater⟩ := ih
      have hscript : Renders (text ++ "; " ++ "; ".intercalate (text' :: texts))
          (t :: ts ++ [written .terminator ";"] ++ us) :=
        (hrenders.append_opens ⟨';', by decide, rfl⟩ opens_semicolon).append_renders hothers
      rw [← String.intercalate_cons_cons, List.append_assoc, List.cons_append] at hscript
      have hbehind : RunsTo (written .terminator ";" :: us) between outcomes after :=
        hlater.terminator rfl
      exact ⟨_, hscript, hbehind.statement (followed_cons rfl) hread hrun⟩

/-- A script whose statements succeed is run to its end. -/
theorem execute_of_executes {texts : List String}
    (h : Executes server.catalog texts outcomes after) (parameters : Bindings) :
    server.execute ("; ".intercalate texts) parameters =
      ⟨outcomes, none, { server with catalog := after }⟩ := by
  obtain ⟨ts, hrenders, hruns⟩ := runsTo_of_executes h
  obtain ⟨us, hus, hsame⟩ := hrenders.written 0
  have halike : Execution.Alike ⟨⟨ts, none, ""⟩, parameters, 0, false⟩
      (ofText ("; ".intercalate texts) parameters) := by
    refine ⟨?_, rfl, rfl, rfl⟩
    rw [ofText, cursor_ofText, hus]
    exact ⟨hsame, rfl, rfl⟩
  rw [Server.execute, ← run_alike halike]
  exact hruns _ server "" rfl rfl rfl

end Execution

/-! ## A table, written and read back -/

/-- Without a condition and without a limit all rows are output as they are. -/
theorem Select.collect_wildcard (set : RowSet) (rows : List Row) :
    collect ⟨none, [.wildcard], none⟩ set none rows = .ok rows := by
  induction rows with
  | nil => exact collect_nil none
  | cons row rows ih =>
    have hkeeps : keeps ⟨none, [.wildcard], none⟩ set row = .ok true := rfl
    have hproject : project ⟨none, [.wildcard], none⟩ set row = .ok row :=
      congrArg Except.ok (List.append_nil row)
    rw [collect_cons (fun h => by cases h), hkeeps, hproject]
    simp only [bind, Except.bind, Option.map_none, ih, if_true]

section Tables

variable {t : Table}

/-- All columns and rows of a table are selected. -/
theorem run_select (h : catalog.read? t.name = some t) :
    (Statement.select ⟨⟨none, [.wildcard], none⟩, .table [t.name] none⟩).perform.run
      catalog = .ok (.rowSet ⟨t.columnNames, t.rows⟩) catalog := by
  have hload : Source.load catalog (.table [t.name] none) = .ok ⟨t.columnNames, t.rows⟩ := by
    have hlast : QualifiedName.last [t.name] = t.name := rfl
    rw [Source.load, hlast, h]
  have hcolumns : Select.columnNames ⟨none, [.wildcard], none⟩ t.columnNames = t.columnNames :=
    List.append_nil _
  refine Statement.select_eq_ok.mpr ⟨_, ?_, rfl, rfl⟩
  simp only [Query.run, hload, Select.run, Select.collect_wildcard, hcolumns, bind, Except.bind]

/-- The script of a table is run on a catalog that has no table of its name. -/
theorem executes_script (h : catalog.Sound) (hnew : catalog.contains t.name = false)
    (hcolumns : t.columns ≠ [])
    (hnames : t.columnNames.Pairwise fun left right => Collation.sameName left right = false)
    (hrows : t.rows ≠ []) (hfits : ∀ row ∈ t.rows, Table.RowFits t.columns row)
    (hwritable : ∀ row ∈ t.rows, ∀ v ∈ row, v.Writable) :
    ∃ after, Executes catalog [t.createText, t.insertText, t.selectText]
      [.nonQuery none, .nonQuery (some (Numeral.saturate t.rows.length)),
        .rowSet ⟨t.columnNames, t.rows⟩] after := by
  have hlength : ∀ row ∈ t.rows, row ≠ [] := by
    rintro row hrow rfl
    exact hcolumns (List.length_eq_zero_iff.mp (hfits [] hrow).length.symm)
  have hstored : (Catalog.create t.emptied).run catalog = .ok () (catalog.store t.emptied) :=
    Catalog.create_of_absent hnew
  have hsound : (catalog.store t.emptied).Sound := (Catalog.create_eq_ok h hstored).1
  have hcreate : (Statement.createTable t.name t.columns).perform.run catalog =
      .ok (.nonQuery none) (catalog.store t.emptied) :=
    Statement.createTable_eq_ok.mpr ⟨t.emptied, Table.create_of_pairwise hnames, hstored, rfl⟩
  have hfound : (catalog.store t.emptied).tables.get? t.name = some t.emptied :=
    Catalog.get?_store h t.emptied
  have hinserted := Catalog.insert_rows hfound hfits fun row hrow v hv =>
    Value.convert_asRead (hwritable row hrow v hv)
  have hinsert : (Statement.insert t.name none
      (t.rows.map fun row => row.map Value.asRead)).perform.run (catalog.store t.emptied) =
        .ok (.nonQuery (some (Numeral.saturate t.rows.length)))
          ((catalog.store t.emptied).store t) :=
    Statement.insert_eq_ok.mpr ⟨_, hinserted, rfl⟩
  refine ⟨(catalog.store t.emptied).store t, ?_⟩
  refine .cons (isStatement_createText hcolumns) hcreate ?_
  refine .cons (isStatement_insertText hrows hlength hwritable) hinsert ?_
  exact .cons isStatement_selectText (run_select (Catalog.read?_store hsound t)) (.nil _)

/-- Every value of a row that fits can be written, apart from floating point numbers and the least
integer. -/
theorem Table.RowFits.writable {columns : List Column} {row : Row} (h : RowFits columns row)
    (htypes : ∀ column ∈ columns, column.type ≠ .float)
    (hleast : Value.bigint (-9223372036854775808) ∉ row) : ∀ v ∈ row, v.Writable := by
  intro v hv
  obtain ⟨i, hi, rfl⟩ := List.getElem_of_mem hv
  have hcolumn : i < columns.length := h.length ▸ hi
  have hcell : (columns[i], row[i]) ∈ columns.zip row :=
    List.mem_of_getElem? (List.getElem?_zip_eq_some.mpr
      ⟨List.getElem?_eq_getElem hcolumn, List.getElem?_eq_getElem hi⟩)
  obtain ⟨htype, hwellFormed, -⟩ := h.cells _ hcell
  refine ⟨fun hfloat => ?_, hwellFormed, fun heq => hleast (heq ▸ hv)⟩
  exact htypes _ (List.getElem_mem hcolumn) (htype.symm.trans hfloat)

end Tables

namespace Site

/-- A table that is written as statements is read back: on a server that has no table of its name,
its script has three outcomes, which are the creation of the table, the number of its rows and the
rows themselves under the names of the columns. -/
theorem execute_script (configuration : Configuration) (events : List Event)
    (parameters : Bindings) {t : Table}
    (hnew : ((create configuration).run events).server.catalog.contains t.name = false)
    (hcolumns : t.columns ≠ [])
    (hnames : t.columnNames.Pairwise fun left right => Collation.sameName left right = false)
    (htypes : ∀ column ∈ t.columns, column.type ≠ .float) (hrows : t.rows ≠ [])
    (hfits : ∀ row ∈ t.rows, Table.RowFits t.columns row)
    (hleast : ∀ row ∈ t.rows, Value.bigint (-9223372036854775808) ∉ row) :
    let server := ((create configuration).run events).server
    let count := Numeral.saturate t.rows.length
    (server.execute t.script parameters).result =
        .ok [.nonQuery none, .nonQuery (some count), .rowSet ⟨t.columnNames, t.rows⟩] ∧
      Outcome.reported none = -1 ∧
      (Outcome.reported (some count)).toInt = min (t.rows.length : Int) 2147483647 := by
  intro server count
  have hsound : server.catalog.Sound := sound_run Catalog.empty_sound events
  obtain ⟨after, hexecutes⟩ := executes_script hsound hnew hcolumns hnames hrows hfits
    fun row hrow => (hfits row hrow).writable htypes (hleast row hrow)
  have hrun : server.execute t.script parameters = _ :=
    Execution.execute_of_executes hexecutes parameters
  rw [hrun]
  exact ⟨rfl, rfl, Numeral.toInt_saturate _⟩

theorem execute_script_of_two_rows :
    let server := ((create {}).run [.start "CREATE TABLE u (a int)" Bindings.none, .next 0]).server
    let t : Table := ⟨"SELECT", [⟨"a]b", .int, false⟩, ⟨"-- it's", .nvarchar, true⟩,
      ⟨"", .bigint, true⟩, ⟨"c", .varchar, true⟩],
      [[.int (-2147483648), .nvarchar "N'; ]] /*", .null .bigint, .varchar "''"],
        [.int 5, .null .nvarchar, .bigint (-3000000000), .varchar "@p"]]⟩
    (server.execute t.script Bindings.none).result =
        .ok [.nonQuery none, .nonQuery (some 2), .rowSet ⟨["a]b", "-- it's", "", "c"], t.rows⟩] ∧
      Outcome.reported none = -1 ∧ (Outcome.reported (some 2)).toInt = 2 :=
  execute_script {} [.start "CREATE TABLE u (a int)" Bindings.none, .next 0] Bindings.none
    (by decide +kernel) (by decide) (by decide +kernel) (by decide) (by decide) (by decide +kernel)
    (by decide +kernel)

end Site

end TransactSql
