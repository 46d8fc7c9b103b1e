/-
TransactSql.Proofs.Statement.Script — a table, written as statements.

`Table.script` writes a table as three statements: one creates it, one
inserts its rows and one selects them again. Names stand in brackets, so
that they may be anything. Each of the texts is read as the statement
that is meant.
-/
import TransactSql.Proofs.Statement.Values

namespace TransactSql

open Parse Lexer

open Token (written)

/-! ## Writing -/

/-- A column as it is written in the definition of a table. -/
def Column.definition (column : Column) : String :=
  " ".intercalate [bracketed column.name, column.type.name,
    if column.nullable then "NULL" else "NOT NULL"]

/-- A row as it is written in a statement. -/
def rowText (row : Row) : String := parenthesized (row.map Value.literal)

namespace Table

/-- The statement that creates the table. -/
def createText (t : Table) : String :=
  " ".intercalate
    ["CREATE", "TABLE", bracketed t.name, parenthesized (t.columns.map Column.definition)]

/-- The statement that inserts the rows. -/
def insertText (t : Table) : String :=
  " ".intercalate
    ["INSERT", bracketed t.name, "VALUES", ", ".intercalate (t.rows.map rowText)]

/-- The statement that selects the rows. -/
def selectText (t : Table) : String :=
  " ".intercalate ["SELECT", "*", "FROM", bracketed t.name]

/-- The statements that write a table and read it back. -/
def script (t : Table) : String :=
  "; ".intercalate [t.createText, t.insertText, t.selectText]

example :
    script ⟨"a]b", [⟨"x", .int, false⟩, ⟨"y", .nvarchar, true⟩],
        [[.int (-5), .nvarchar "it's"], [.int 7, .null .nvarchar]]⟩ =
      "CREATE TABLE [a]]b] ([x] int NOT NULL, [y] nvarchar NULL); " ++
        "INSERT [a]]b] VALUES (-5, N'it''s'), (7, NULL); SELECT * FROM [a]]b]" := by
  decide +kernel

end Table

/-! ## Rows -/

theorem reads_row {row : Row} (hne : row ≠ []) (h : ∀ v ∈ row, v.Writable) :
    Reads Token.EndsItem (fun scope _ => Statement.readRow (Expression.read scope maxNesting))
      (rowText row) (row.map Value.asRead) := by
  obtain ⟨ts, hrenders, hvalues⟩ := reads_commaSeparated hne fun v hv => reads_value (h v hv)
  exact ⟨_, (opens_parenthesized hrenders).renders,
    fun scope place => takes_parenthesized (hvalues scope place)⟩

/-! ## Columns -/

/-- A keyword in capitals. -/
def Token.reserved (keyword : Keyword) : Token := written (.keyword keyword) keyword.text

/-- A keyword is read if the lexer finds it in its text. -/
theorem renders_reserved (keyword : Keyword)
    (h : (ofText keyword.text).tokens = ([Token.reserved keyword], none)) :
    Renders keyword.text [Token.reserved keyword] :=
  (whole_of_tokens h rfl rfl).renders

theorem DataType.ofName?_name (type : DataType) : ofName? type.name = some type := by
  cases type <;> decide +kernel

/-- The name of a type is a word. -/
theorem whole_typeName (type : DataType) : Whole (written .word type.name) := by
  cases type <;> exact whole_of_tokens (by decide +kernel) rfl rfl

theorem takes_readTypeArguments :
    Takes (fun t => (t.kind == .openParen) = false) Statement.readTypeArguments [] () :=
  .last (takes_consume_nothing fun _ h => h) (takes_pure ())

/-- Whether a column allows NULL is read of what is written behind its type. -/
theorem reads_nullable (nullable : Bool) :
    ∃ t ts, Renders (if nullable then "NULL" else "NOT NULL") (t :: ts) ∧
      (t.kind == .openParen) = false ∧
      ∀ stop, Takes stop Statement.readNullable (t :: ts) nullable := by
  have hnull : Renders "NULL" [Token.reserved .NULL] :=
    renders_reserved .NULL (by decide +kernel)
  have hnot : Renders "NOT" [Token.reserved .NOT] :=
    renders_reserved .NOT (by decide +kernel)
  cases nullable with
  | true =>
    have hskip : Takes (fun t => t.kind = .keyword .NULL) (consumeKeyword .NOT) [] false :=
      takes_consume_nothing fun t ht => by simp [Token.isKeyword, ht]
    refine ⟨_, [], hnull, rfl, fun stop => hskip.skip rfl ?_⟩
    exact .last (takes_consume rfl _) (takes_pure true)
  | false =>
    have htext : "NOT NULL" = " ".intercalate ["NOT", "NULL"] := by decide +kernel
    refine ⟨_, _, htext ▸ renders_words hnot (renders_word hnull), rfl, fun stop => ?_⟩
    exact .then (takes_consume rfl) (.last (takes_expect rfl _) (takes_pure false))

theorem reads_definition (column : Column) :
    Reads Token.EndsItem (fun _ place => Statement.readColumn (place + 1)) column.definition
      column := by
  obtain ⟨name, type, nullable⟩ := column
  obtain ⟨t, ts, hrenders, hparen, hnullable⟩ := reads_nullable nullable
  have hend : Takes Token.EndsItem (peekIs Statement.beginsConstraint >>= fun constrained =>
      if constrained then fail (.unsupported .columnConstraint)
      else pure (⟨name, type, nullable⟩ : Column)) [] ⟨name, type, nullable⟩ := by
    refine .last (takes_peekIs_nothing fun t ht => ?_) (takes_pure _)
    rcases ht with hkind | hkind | hkind <;>
      simp [Statement.beginsConstraint, Token.isKeyword, hkind]
  have hwords := renders_words (whole_bracketed name).renders
    (renders_words (whole_typeName type).renders (renders_word hrenders))
  refine ⟨_, hwords, fun _ place => ?_⟩
  refine .then (takes_expectIdentifier rfl) (.then (takes_expectIdentifier rfl) ?_)
  simp only [written, DataType.ofName?_name]
  exact takes_readTypeArguments.skip hparen (.last (hnullable _) hend)

/-! ## Statements -/

/-- The text is read as the statement, whatever the scope. -/
def IsStatement (text : String) (statement : Statement) : Prop :=
  ∃ t ts, Renders text (t :: ts) ∧
    ∀ scope, Takes Token.EndsStatement (Statement.read scope t) ts statement

section Statements

variable {t : Table}

theorem isStatement_of_takes {text : String} {statement : Statement} {t : Token} {ts : List Token}
    (hrenders : Renders text ([t] ++ ts))
    (h : ∀ scope, Takes Token.EndsStatement (Statement.read scope t) ts statement) :
    IsStatement text statement :=
  ⟨t, ts, hrenders, h⟩

theorem reads_columns (hne : t.columns ≠ []) :
    Reads Token.EndsList (fun _ _ => Statement.readColumns)
      (", ".intercalate (t.columns.map Column.definition)) t.columns := by
  obtain ⟨column, more, hcolumns⟩ := List.exists_cons_of_ne_nil hne
  have hreads : Reads Token.EndsList (fun _ _ => separatedNumbered (consumeKind .comma) fun place =>
      Statement.readColumn (place + 1)) (", ".intercalate ((column :: more).map Column.definition))
      (id column, more.map id) := reads_list fun column _ => reads_definition column
  obtain ⟨ts, hrenders, hlist⟩ := hreads
  rw [List.map_id] at hlist
  rw [hcolumns]
  exact ⟨ts, hrenders, fun scope place => (hlist scope place).last (takes_pure _)⟩

theorem takes_refuseOtherKinds (stop : Token → Prop) :
    Takes stop Statement.refuseOtherKinds [Token.reserved .TABLE] () :=
  takes_expectNext (takes_pure ())

/-- The statement that creates a table is read. -/
theorem isStatement_createText (hne : t.columns ≠ []) :
    IsStatement t.createText (.createTable t.name t.columns) := by
  have hcreate : Renders "CREATE" [Token.reserved .CREATE] :=
    renders_reserved .CREATE (by decide +kernel)
  have htable : Renders "TABLE" [Token.reserved .TABLE] :=
    renders_reserved .TABLE (by decide +kernel)
  obtain ⟨ts, hrenders, hcolumns⟩ := reads_columns hne
  have hparenthesized := renders_word (opens_parenthesized hrenders).renders
  have hname := renders_words (whole_bracketed t.name).renders hparenthesized
  have hwords := renders_words hcreate (renders_words htable hname)
  refine isStatement_of_takes hwords fun scope => .then takes_refuseOtherKinds ?_
  refine .bind (takes_qualifiedName rfl) (fun _ _ => followed_cons rfl) ?_
  exact takes_parenthesized (hcolumns scope 0)

theorem takes_refuseOtherSources (stop : Token → Prop) :
    Takes stop Statement.refuseOtherSources [Token.reserved .VALUES] () :=
  takes_expectNext (takes_pure ())

/-- The statement that inserts the rows is read. Their values are still to be converted. -/
theorem isStatement_insertText (hrows : t.rows ≠ []) (hlength : ∀ row ∈ t.rows, row ≠ [])
    (hwritable : ∀ row ∈ t.rows, ∀ v ∈ row, v.Writable) :
    IsStatement t.insertText
      (.insert t.name none (t.rows.map fun row => row.map Value.asRead)) := by
  have hinsert : Renders "INSERT" [Token.reserved .INSERT] :=
    renders_reserved .INSERT (by decide +kernel)
  have hvalues : Renders "VALUES" [Token.reserved .VALUES] :=
    renders_reserved .VALUES (by decide +kernel)
  have hinto : Takes (fun t => t.isKeyword .INTO = false) (consumeKeyword .INTO) [] false :=
    takes_consume_nothing fun _ h => h
  have hlist : Takes (fun t => (t.kind == .openParen) = false) Statement.readColumnList? [] none :=
    .last (takes_consume_nothing fun _ h => h) (takes_pure none)
  obtain ⟨ts, hrenders, hreads⟩ := reads_commaSeparated hrows fun row hrow =>
    reads_row (hlength row hrow) (hwritable row hrow)
  have hbehind := renders_words hvalues (renders_word hrenders)
  have hwords := renders_words hinsert (renders_words (whole_bracketed t.name).renders hbehind)
  refine isStatement_of_takes hwords fun scope => hinto.skip rfl ?_
  refine .bind (takes_qualifiedName rfl) (fun _ _ => followed_cons rfl) ?_
  refine hlist.skip rfl (.then takes_refuseOtherSources ?_)
  exact .last ((hreads scope 0).mono fun _ => .inr) (takes_pure _)

/-- A single asterisk is read as the list of all columns. -/
theorem takes_wildcard (scope : Scope) (levels : Nat) :
    Takes (fun t => t.kind = .keyword .FROM) (commaSeparated (Query.readItem scope levels))
      [written (.operator '*') "*"] [.wildcard] := by
  have hitem : Takes (fun t => t.kind = .keyword .FROM) (Query.readItem scope levels)
      [written (.operator '*') "*"] .wildcard := .last (takes_consume rfl _) (takes_pure _)
  have hcomma : Takes (fun t => t.kind = .keyword .FROM) (consumeKind .comma) [] false :=
    takes_consume_nothing fun t ht => by rw [ht]; rfl
  exact (takes_separated_one hitem hcomma).last (takes_pure _)

/-- A name is read as a table without an alias. -/
theorem takes_readSource (derived : Parse Query) {t : Token} {name : String}
    (h : t.identifier? = some name) (hparen : (t.kind == .openParen) = false) :
    Takes Token.EndsStatement (Query.readSource derived) [t] (.table [name] none) := by
  have hopen : Takes (fun t => (t.kind == .openParen) = false) (consumeKind .openParen) [] false :=
    takes_consume_nothing fun _ h => h
  have hname : Takes Token.EndsStatement qualifiedName [t] [name] :=
    (takes_qualifiedName h).mono fun _ ht => ht.ne_kind _ (fun h => by cases h)
  have halias : Takes Token.EndsStatement Query.readSourceAlias? [] none := by
    refine .last (takes_consume_nothing fun _ ht => ht.ne_kind _ (fun h => by cases h)) ?_
    refine .last (takes_nextIf_nothing fun t ht => ?_) (takes_pure none)
    simp only [Token.identifier?, ht.kind_eq, Option.isSome_none]
  have hjoin : Takes Token.EndsStatement (peekIs Query.beginsJoin) [] false :=
    takes_peekIs_nothing fun t ht => by simp [Query.beginsJoin, Token.isKeyword, ht.kind_eq]
  refine .last ?_ (hjoin.last (takes_pure _))
  exact hopen.skip hparen (hname.last (halias.last (takes_pure _)))

/-- The statement that selects the rows is read. -/
theorem isStatement_selectText :
    IsStatement t.selectText (.select ⟨⟨none, [.wildcard], none⟩, .table [t.name] none⟩) := by
  have hselect : Renders "SELECT" [Token.reserved .SELECT] :=
    renders_reserved .SELECT (by decide +kernel)
  have hfrom : Renders "FROM" [Token.reserved .FROM] :=
    renders_reserved .FROM (by decide +kernel)
  have hname := renders_words hfrom (renders_word (whole_bracketed t.name).renders)
  have hwords := renders_words hselect (renders_asterisk rfl hname)
  have hquantifier : Takes (fun t => t.kind = .operator '*') Query.refuseQuantifier [] () :=
    .last (takes_peekIs_nothing fun t ht => by simp [Token.isKeyword, ht]) (takes_pure ())
  have hlimit (scope : Scope) (levels : Nat) :
      Takes (fun t => t.kind = .operator '*') (Query.readLimit? scope levels) [] none :=
    .last (takes_consume_nothing fun t ht => by simp [Token.isKeyword, ht]) (takes_pure none)
  have hfilter (scope : Scope) (levels : Nat) :
      Takes Token.EndsStatement (Query.readQuery.readFilter? scope levels) [] none :=
    .last (takes_consume_nothing fun _ ht => ht.ne_kind _ (fun h => by cases h)) (takes_pure none)
  have hclause : Takes Token.EndsStatement Query.refuseClause [] () := by
    refine takes_peek (takes_pure ()) fun t ht => ?_
    simp only [Option.bind_some, Query.refusedClause?, ht.kind_eq]
    exact takes_pure ()
  refine isStatement_of_takes hwords fun scope => .last ?_ (takes_pure _)
  refine hquantifier.skip rfl ((hlimit scope _).skip rfl ?_)
  refine .bind (takes_wildcard scope _) (fun _ _ => followed_cons rfl) ?_
  refine .then (takes_consume rfl) (.last (takes_readSource _ rfl rfl) ?_)
  exact (hfilter scope _).last (hclause.last (takes_pure _))

end Statements

end TransactSql
