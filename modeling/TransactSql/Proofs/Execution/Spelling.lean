/-
TransactSql.Proofs.Execution.Spelling — the language ignores case.

Two texts whose tokens are the same, but for the case of the letters in
bare words and variables, do the same (`Site.ignores_case`). Their outcomes
have the same rows and the same counts, they fail alike, and the tables
they leave are the same. What may differ is the spelling of names: in the
outcomes, in the failure and in the tables that the texts have created.

After a call both servers have the same tables, up to spelling, and what
is left to read of the texts is the same again (`next_respelled`). So the
next call answers alike as well, though it may find tables under names
that the two texts have spelled differently.
-/
import TransactSql.Proofs.Execution.Calls
import TransactSql.Proofs.Execution.Turns
import TransactSql.Proofs.Parse.Spelling

namespace TransactSql

open Collation Parse

/-- The servers are set alike and have the same tables, up to the spelling of names. -/
structure Server.Respelled (s s' : Server) : Prop where
  configuration : s.configuration = s'.configuration
  catalog : s.catalog.Respelled s'.catalog

namespace Execution

variable {e d : Execution} {c c' : Cursor} {t u : Token} {server server' : Server}

/-! ## One call -/

/-- The same tokens are to be run, up to spelling, under the same parameters. -/
structure Respelled (e d : Execution) : Prop where
  cursor : e.cursor.Respelled d.cursor
  parameters : e.parameters = d.parameters
  ignoresCase : e.parameters.collation.IgnoresCase
  rowCount : e.rowCount = d.rowCount
  finished : e.finished = d.finished

/-- The calls answer alike, and what is left to run is alike. -/
structure Step.Respelled (s r : Step) : Prop where
  item : Option.Rel (Agree Outcome.Respelled) s.item r.item
  execution : Execution.Respelled s.execution r.execution
  server : s.server.Respelled r.server

theorem Respelled.finish (h : e.Respelled d) (hc : c.Respelled c') :
    (e.finish c).Respelled (d.finish c') :=
  ⟨hc, h.parameters, h.ignoresCase, h.rowCount, rfl⟩

theorem Respelled.goOn (h : e.Respelled d) (hc : c.Respelled c') (rowCount : Int32) :
    Respelled { e with cursor := c, rowCount := rowCount }
      { d with cursor := c', rowCount := rowCount } :=
  ⟨hc, h.parameters, h.ignoresCase, rfl, h.finished⟩

theorem runStatement_respelled (h : e.Respelled d) (htoken : t.Respelled u)
    (hc : c.Respelled c') (hserver : server.Respelled server') :
    (runStatement e server t c).Respelled (runStatement d server' u c') := by
  have hscope : e.scope server = d.scope server' := by
    simp only [scope, h.parameters, h.rowCount, hserver.configuration]
  have hread : ReadsAlike Statement.Respelled (Statement.read (e.scope server) t)
      (Statement.read (e.scope server) u) := Statement.readsAlike_read h.ignoresCase htoken
  rw [runStatement_eq, runStatement_eq, ← hscope]
  rcases hread.cases hc with ⟨failure, failure', c₁, d₁, hleft, hright, hfailure, h₁⟩ |
    ⟨statement, statement', c₁, d₁, hleft, hright, hstatement, h₁⟩
  · rw [hleft, hright]
    exact ⟨.some (.error hfailure), h.finish h₁, hserver⟩
  rw [hleft, hright]
  dsimp only
  have hrun := hstatement.perform hserver.catalog
  generalize statement.perform.answer server.catalog = x at hrun
  generalize statement'.perform.answer server'.catalog = y at hrun
  cases hrun with
  | error hfailure => exact ⟨.some (.error hfailure), h.finish h₁, hserver⟩
  | ok hafter =>
    refine ⟨.some (.ok hafter.1), ?_, hserver.configuration, hafter.2⟩
    dsimp only
    rw [hafter.1.rowCount_eq]
    exact h.goOn h₁ _

theorem handle_respelled (h : e.Respelled d) (htoken : t.Respelled u) (hc : c.Respelled c')
    (hserver : server.Respelled server')
    (ih : ∀ e' d' : Execution, e'.cursor.remaining ≤ c.remaining → e'.Respelled d' →
      (e'.next server).Respelled (d'.next server')) :
    (handle e server t c).Respelled (handle d server' u c') := by
  have hterminator : (t.kind == .terminator) = (u.kind == .terminator) :=
    htoken.eq_of_seesKind (f := (·.kind == .terminator))
      ⟨fun _ _ _ _ _ => rfl, fun _ _ _ _ => rfl, fun _ _ _ _ => rfl⟩
  have hless := Statement.readOption.remaining_run_le c
  unfold handle
  rw [hterminator, htoken.eq_of_seesKind (seesKind_keyword .SET)]
  split
  · exact ih _ _ (Nat.le_refl _) ⟨hc, h.parameters, h.ignoresCase, h.rowCount, h.finished⟩
  · split
    · rcases Statement.readsAlike_readOption.cases hc with
        ⟨failure, failure', c₁, d₁, hread, hread', hfailure, h₁⟩ |
        ⟨⟨⟩, ⟨⟩, c₁, d₁, hread, hread', -, h₁⟩
      · rw [hread, hread']
        exact ⟨.some (.error hfailure), h.finish h₁, hserver⟩
      · rw [hread] at hless
        rw [hread, hread']
        exact ih _ _ hless (h.goOn h₁ 0)
    · exact runStatement_respelled h htoken hc hserver

/-- A call does not see in which case the letters are written. -/
theorem next_respelled (h : e.Respelled d) (hserver : server.Respelled server') :
    (e.next server).Respelled (d.next server') := by
  induction hn : e.cursor.remaining using Nat.strongRecOn generalizing e d with
  | ind n ih =>
    cases hfinished : e.finished with
    | true =>
      rw [next_of_finished hfinished, next_of_finished (h.finished ▸ hfinished)]
      exact ⟨.none, h, hserver⟩
    | false =>
      have hfinished' : d.finished = false := h.finished ▸ hfinished
      obtain ⟨cursor, parameters, rowCount, finished⟩ := e
      obtain ⟨cursor', parameters', rowCount', finished'⟩ := d
      obtain ⟨last, last', rfl, rfl⟩ | ⟨t, u, left, right, last, last', rfl, rfl, htoken, hrest⟩ :=
        h.cursor.cases_tokens
      · rw [next_of_end hfinished rfl, next_of_end hfinished' rfl]
        exact ⟨.none, h.finish h.cursor, hserver⟩
      rw [next_of_token hfinished rfl, next_of_token hfinished' rfl]
      refine handle_respelled h htoken hrest hserver fun e' d' hle h' => ih _ ?_ h' rfl
      rw [← hn]
      exact Nat.lt_of_le_of_lt hle (Nat.lt_succ_self left.length)

/-! ## All calls -/

theorem calls_respelled (h : e.Respelled d) (hserver : server.Respelled server') (n : Nat) :
    List.Forall₂ (Option.Rel (Agree Outcome.Respelled)) (e.calls server n).1
      (d.calls server' n).1 := by
  induction n generalizing e d server server' with
  | zero => exact .nil
  | succ n ih =>
    have hstep := next_respelled h hserver
    exact .cons hstep.item (ih hstep.execution hstep.server)

/-- The runs answer alike and leave the same tables, up to the spelling of names. -/
structure Run.Respelled (r r' : Run) : Prop where
  outcomes : List.Forall₂ Outcome.Respelled r.outcomes r'.outcomes
  failure : Option.Rel Error.Respelled r.failure r'.failure
  /-- Failures that correspond are made by the same constructor. -/
  variant : r.failure.map Error.ctorIdx = r'.failure.map Error.ctorIdx
  tables : List.Forall₂ (fun a b => sameName a.1 b.1 = true ∧ a.2.Respelled b.2)
    r.server.catalog.tables.toList r'.server.catalog.tables.toList

theorem tables_respelled (h : server.Respelled server') :
    List.Forall₂ (fun a b => sameName a.1 b.1 = true ∧ a.2.Respelled b.2)
      server.catalog.tables.toList server'.catalog.tables.toList := by
  have htables := h.catalog.tables.toList
  rw [h.catalog.collation] at htables
  exact htables

theorem run_respelled (h : e.Respelled d) (hserver : server.Respelled server') :
    (e.run server).Respelled (d.run server') := by
  induction hn : e.cursor.remaining using Nat.strongRecOn generalizing e d server server' with
  | ind n ih =>
    have hstep := next_respelled h hserver
    rw [run_eq, run_eq]
    rcases hleft : e.next server with ⟨item, later, after⟩
    rcases hright : d.next server' with ⟨item', later', after'⟩
    rw [hleft, hright] at hstep
    obtain ⟨hitem, hlater, hafter⟩ := hstep
    cases hitem with
    | none => exact ⟨.nil, .none, rfl, tables_respelled hafter⟩
    | some hitem =>
      cases hitem with
      | error hfailure =>
        exact ⟨.nil, .some hfailure, congrArg some hfailure.ctorIdx_eq, tables_respelled hafter⟩
      | ok houtcome =>
        have hrest := ih _ (hn ▸ remaining_next_lt hleft) hlater hafter rfl
        exact ⟨.cons houtcome hrest.outcomes, hrest.failure, hrest.variant, hrest.tables⟩

/-! ## Texts -/

theorem ofText_respelled {text text' : String} {tokens tokens' : List Token}
    (h : (Lexer.ofText text).tokens = (tokens, none))
    (h' : (Lexer.ofText text').tokens = (tokens', none))
    (hcase : List.Forall₂ Token.SameButForCase tokens tokens') {parameters : Bindings}
    (hparameters : parameters.collation.IgnoresCase) :
    (ofText text parameters).Respelled (ofText text' parameters) := by
  have hsame := (Lexer.lexes_of_tokens h).respelled (Lexer.lexes_of_tokens h') hcase
  have htrivia : SeesKind fun t => !t.isTrivia :=
    ⟨fun _ _ _ _ _ => rfl, fun _ _ _ _ => rfl, fun _ _ _ _ => rfl⟩
  refine ⟨⟨?_, ?_, ?_, ?_⟩, rfl, hparameters, rfl, rfl⟩ <;>
    simp only [ofText, Cursor.ofText, h, h']
  · refine List.rel_filter (fun t u htoken => ?_) hsame
    exact Iff.of_eq (congrArg (· = true) (htoken.eq_of_seesKind htrivia))
  · exact sameName_refl ""

end Execution

/-- Two texts without lexical faults, whose tokens are identical but for the case of the ASCII
letters in bare words and variables, are run alike on a server that has been used in any way: the
calls answer alike, and so does the whole run. The parameters may be kept under any collation that
ignores case, as the default one does (`Collation.caseInsensitive_ignoresCase`). -/
theorem Site.ignores_case (configuration : Configuration) (events : List Site.Event)
    {text text' : String} {tokens tokens' : List Token}
    (h : (Lexer.ofText text).tokens = (tokens, none))
    (h' : (Lexer.ofText text').tokens = (tokens', none))
    (hcase : List.Forall₂ Token.SameButForCase tokens tokens') {parameters : Bindings}
    (hparameters : parameters.collation.IgnoresCase) :
    let server := ((create configuration).run events).server
    (server.execute text parameters).Respelled (server.execute text' parameters) ∧
      ∀ n, List.Forall₂ (Option.Rel (Agree Outcome.Respelled))
        ((Execution.ofText text parameters).calls server n).1
        ((Execution.ofText text' parameters).calls server n).1 := by
  intro server
  have hsound : server.catalog.Sound := sound_run Catalog.empty_sound events
  have hserver : server.Respelled server := ⟨rfl, .refl hsound.collation⟩
  have halike := Execution.ofText_respelled h h' hcase hparameters
  exact ⟨Execution.run_respelled halike hserver, Execution.calls_respelled halike hserver⟩

/-- The texts differ in keywords, names and a variable. -/
theorem Site.ignores_case_of_letters :
    let server := ((create {}).run [.start "CREATE TABLE t (id int)" Bindings.none, .next 0]).server
    let text := "insert T values (@n) SELECT Id from t"
    let text' := "INSERT t VALUES (@N) select ID from T"
    let parameters := Bindings.none.insert "n" (.int 7)
    (server.execute text parameters).Respelled (server.execute text' parameters) ∧
      ∀ n, List.Forall₂ (Option.Rel (Agree Outcome.Respelled))
        ((Execution.ofText text parameters).calls server n).1
        ((Execution.ofText text' parameters).calls server n).1 := by
  intro server text text' parameters
  have h : (Lexer.ofText text).tokens.2 = none := by decide +kernel
  have h' : (Lexer.ofText text').tokens.2 = none := by decide +kernel
  have hcase : List.Forall₂ Token.SameButForCase (Lexer.ofText text).tokens.1
      (Lexer.ofText text').tokens.1 := by decide +kernel
  have hparameters : parameters.collation.IgnoresCase := by
    rw [CollatedMap.collation_insert]
    exact caseInsensitive_ignoresCase
  exact ignores_case {} _ (Prod.ext rfl h) (Prod.ext rfl h') hcase hparameters

end TransactSql
