/-
TransactSql.Proofs.Execution.Layout — comments and white space change nothing.

Two texts that say the same, with other comments and other white space
between their tokens, are run alike: the calls of `next` answer the same
outcomes and the same failures, and change the server in the same way.

That no reader of the grammar sees the layout is proved in
`Proofs.Parse.Layout`. Here it is carried over to an execution, first to
one call of `next`, then to a run.
-/
import TransactSql.Proofs.Execution.Calls
import TransactSql.Proofs.Parse.Layout

namespace TransactSql.Execution

open Parse

/-! ## One call on the same tokens -/

/-- The executions have the same tokens to run, and are otherwise equal. -/
structure Alike (e d : Execution) : Prop where
  cursor : e.cursor.Alike d.cursor
  parameters : e.parameters = d.parameters
  rowCount : e.rowCount = d.rowCount
  finished : e.finished = d.finished

/-- The calls answer the same and leave the same server and the same tokens behind. -/
structure Step.Alike (s r : Step) : Prop where
  item : s.item = r.item
  execution : s.execution.Alike r.execution
  server : s.server = r.server

theorem Alike.finish {e d : Execution} {c c' : Cursor} (h : e.Alike d) (hc : c.Alike c') :
    (e.finish c).Alike (d.finish c') :=
  ⟨hc, h.parameters, h.rowCount, rfl⟩

/-- Both texts report a fault, or both end, or both go on with the same token. -/
theorem taken_alike {c d : Cursor} (h : c.Alike d) :
    (∃ failure c' d', c.next = (.error failure, c') ∧ d.next = (.error failure, d') ∧ c'.Alike d') ∨
      (∃ c' d', c.next = (.ok none, c') ∧ d.next = (.ok none, d') ∧ c'.Alike d') ∨
      ∃ t u c' d', c.next = (.ok (some t), c') ∧ d.next = (.ok (some u), d') ∧
        t.meaning = u.meaning ∧ c'.Alike d' := by
  obtain ⟨fault, last, rfl, rfl⟩ | ⟨t, u, left, right, fault, last, rfl, rfl, htokens⟩ :=
    h.cases_tokens
  · cases fault with
    | none => exact .inr (.inl ⟨_, _, rfl, rfl, h⟩)
    | some e => exact .inl ⟨_, _, _, rfl, rfl, h.tokens, rfl, rfl⟩
  · exact .inr (.inr ⟨t, u, _, _, rfl, rfl, htokens.meaning_eq, .taken fault htokens⟩)

theorem runStatement_alike {e d : Execution} {t u : Token} {c c' : Cursor} (h : e.Alike d)
    (hmeaning : t.meaning = u.meaning) (hc : c.Alike c') (server : Server) :
    (runStatement e server t c).Alike (runStatement d server u c') := by
  have hscope : e.scope server = d.scope server := by
    simp only [scope, h.parameters, h.rowCount]
  have hread : Statement.read (e.scope server) t = Statement.read (d.scope server) u := by
    rw [hscope]
    exact ignoresPlace (f := Statement.read (d.scope server)) (fun _ _ _ _ => rfl) t u hmeaning
  have hsame := (Statement.stopsBefore_read (d.scope server) u).ignoresLayout c c' hc
  rw [runStatement_eq, runStatement_eq, hread]
  rcases hsame.cases with ⟨failure, c₁, d₁, hleft, hright, h₁⟩ |
    ⟨statement, c₁, d₁, hleft, hright, h₁⟩
  · rw [hleft, hright]
    exact ⟨rfl, h.finish h₁, rfl⟩
  · rw [hleft, hright]
    dsimp only
    split
    · exact ⟨rfl, h.finish h₁, rfl⟩
    · exact ⟨rfl, ⟨h₁, h.parameters, rfl, h.finished⟩, rfl⟩

/-- The same token is handled alike, if the calls on fewer tokens are alike. -/
theorem handle_alike {e d : Execution} {t u : Token} {c c' : Cursor} {server : Server}
    (h : e.Alike d) (hmeaning : t.meaning = u.meaning) (hc : c.Alike c')
    (ih : ∀ e' d' : Execution, e'.cursor.remaining ≤ c.remaining → e'.Alike d' →
      (e'.next server).Alike (d'.next server)) :
    (handle e server t c).Alike (handle d server u c') := by
  have hkind : t.kind = u.kind := congrArg Prod.fst hmeaning
  have hset : t.isKeyword .SET = u.isKeyword .SET := by
    rw [Token.isKeyword, Token.isKeyword, hkind]
  have hless := Statement.readOption.remaining_run_le c
  have hsame : SameReading (Statement.readOption.run c) (Statement.readOption.run c') :=
    Statement.stopsBefore_readOption.ignoresLayout c c' hc
  unfold handle
  rw [hkind, hset]
  split
  · exact ih _ _ (Nat.le_refl _) ⟨hc, h.parameters, h.rowCount, h.finished⟩
  · split
    · rcases hsame.cases with ⟨failure, c₁, d₁, hread, hread', h₁⟩ |
        ⟨⟨⟩, c₁, d₁, hread, hread', h₁⟩
      · rw [hread, hread']
        exact ⟨rfl, h.finish h₁, rfl⟩
      · rw [hread] at hless
        rw [hread, hread']
        exact ih _ _ hless ⟨h₁, h.parameters, rfl, h.finished⟩
    · exact runStatement_alike h hmeaning hc server

/-- A call does not see the layout of the text. -/
theorem next_alike {e d : Execution} (h : e.Alike d) (server : Server) :
    (e.next server).Alike (d.next server) := by
  induction hn : e.cursor.remaining using Nat.strongRecOn generalizing e d with
  | ind n ih =>
    cases hfinished : e.finished with
    | true =>
      rw [next_of_finished hfinished, next_of_finished (h.finished ▸ hfinished)]
      exact ⟨rfl, h, rfl⟩
    | false =>
      have hfinished' : d.finished = false := h.finished ▸ hfinished
      rcases taken_alike h.cursor with ⟨failure, c, c', hleft, hright, hc⟩ |
        ⟨c, c', hleft, hright, hc⟩ | ⟨t, u, c, c', hleft, hright, hmeaning, hc⟩
      · rw [next_of_fault hfinished hleft, next_of_fault hfinished' hright]
        exact ⟨rfl, h.finish hc, rfl⟩
      · rw [next_of_end hfinished hleft, next_of_end hfinished' hright]
        exact ⟨rfl, h.finish hc, rfl⟩
      · rw [next_of_token hfinished hleft, next_of_token hfinished' hright]
        refine handle_alike h hmeaning hc fun e' d' hle h' => ?_
        have hless := Nat.lt_of_le_of_lt hle (remaining_lt_of_next hleft)
        exact ih _ (hn ▸ hless) h' rfl

/-! ## All calls -/

theorem calls_alike {e d : Execution} (h : e.Alike d) (server : Server) (n : Nat) :
    e.calls server n = d.calls server n := by
  induction n generalizing e d server with
  | zero => rfl
  | succ n ih =>
    have hstep := next_alike h server
    simp only [calls, hstep.item, hstep.server, ih hstep.execution]

theorem run_alike {e d : Execution} (h : e.Alike d) (server : Server) :
    e.run server = d.run server := by
  induction hn : e.cursor.remaining using Nat.strongRecOn generalizing e d server with
  | ind n ih =>
    have hstep := next_alike h server
    rw [run_eq, run_eq]
    rcases hleft : e.next server with ⟨item, later, after⟩
    rcases hright : d.next server with ⟨item', later', after'⟩
    rw [hleft, hright] at hstep
    obtain ⟨hitem, hlater, hafter⟩ := hstep
    cases hitem
    cases hafter
    rcases item with _ | failure | outcome
    · rfl
    · rfl
    · show Run.mk _ _ _ = Run.mk _ _ _
      rw [ih _ (hn ▸ remaining_next_lt hleft) hlater after rfl]

/-! ## Texts -/

/-- The significant tokens of a text. -/
def significant (tokens : List Token) : List Token :=
  tokens.filter fun t => !t.isTrivia

theorem ofText_alike {text text' : String} {tokens tokens' : List Token}
    (h : (Lexer.ofText text).tokens = (tokens, none))
    (h' : (Lexer.ofText text').tokens = (tokens', none))
    (hsame : SameTokens (significant tokens) (significant tokens')) (parameters : Bindings) :
    (ofText text parameters).Alike (ofText text' parameters) := by
  refine ⟨⟨?_, ?_, ?_⟩, rfl, rfl, rfl⟩ <;> simp only [ofText, Cursor.ofText, h, h']
  exact hsame

/-- Texts without lexical faults whose significant tokens say the same, and whose operators touch
alike, are run alike: every call answers the same, and the server is changed in the same way. -/
theorem execute_eq_of_sameTokens {text text' : String} {tokens tokens' : List Token}
    (h : (Lexer.ofText text).tokens = (tokens, none))
    (h' : (Lexer.ofText text').tokens = (tokens', none))
    (hsame : SameTokens (significant tokens) (significant tokens')) (server : Server)
    (parameters : Bindings) :
    server.execute text parameters = server.execute text' parameters ∧
      ∀ n, (ofText text parameters).calls server n = (ofText text' parameters).calls server n := by
  have halike := ofText_alike h h' hsame parameters
  exact ⟨run_alike halike server, calls_alike halike server⟩

theorem execute_eq_without_comment :
    let server := Server.create {}
    let text := "SELECT name -- all\nFROM systypes WHERE name <= name"
    let text' := "SELECT name FROM/**/systypes WHERE name<=name"
    server.execute text Bindings.none = server.execute text' Bindings.none ∧
      ∀ n, (ofText text Bindings.none).calls server n =
        (ofText text' Bindings.none).calls server n := by
  have h : (Lexer.ofText "SELECT name -- all\nFROM systypes WHERE name <= name").tokens =
      ([⟨.keyword .SELECT, "SELECT", 0⟩, ⟨.whitespace, " ", 6⟩, ⟨.word, "name", 7⟩,
        ⟨.whitespace, " ", 11⟩, ⟨.comment, "-- all", 12⟩, ⟨.whitespace, "\n", 18⟩,
        ⟨.keyword .FROM, "FROM", 19⟩, ⟨.whitespace, " ", 23⟩, ⟨.word, "systypes", 24⟩,
        ⟨.whitespace, " ", 32⟩, ⟨.keyword .WHERE, "WHERE", 33⟩, ⟨.whitespace, " ", 38⟩,
        ⟨.word, "name", 39⟩, ⟨.whitespace, " ", 43⟩, ⟨.operator '<', "<", 44⟩,
        ⟨.operator '=', "=", 45⟩, ⟨.whitespace, " ", 46⟩, ⟨.word, "name", 47⟩], none) := by
    decide +kernel
  have h' : (Lexer.ofText "SELECT name FROM/**/systypes WHERE name<=name").tokens =
      ([⟨.keyword .SELECT, "SELECT", 0⟩, ⟨.whitespace, " ", 6⟩, ⟨.word, "name", 7⟩,
        ⟨.whitespace, " ", 11⟩, ⟨.keyword .FROM, "FROM", 12⟩, ⟨.comment, "/**/", 16⟩,
        ⟨.word, "systypes", 20⟩, ⟨.whitespace, " ", 28⟩, ⟨.keyword .WHERE, "WHERE", 29⟩,
        ⟨.whitespace, " ", 34⟩, ⟨.word, "name", 35⟩, ⟨.operator '<', "<", 39⟩,
        ⟨.operator '=', "=", 40⟩, ⟨.word, "name", 41⟩], none) := by
    decide +kernel
  refine execute_eq_of_sameTokens h h' ?_ _ _
  refine .cons_of_not_isSymbol rfl rfl (.cons_of_not_isSymbol rfl rfl ?_)
  refine .cons_of_not_isSymbol rfl rfl (.cons_of_not_isSymbol rfl rfl ?_)
  refine .cons_of_not_isSymbol rfl rfl (.cons_of_not_isSymbol rfl rfl ?_)
  refine .cons rfl ?_ (.cons rfl ?_ (.cons_of_not_isSymbol rfl rfl .nil))
  · rintro _ ⟨⟩ _ ⟨⟩ _ _
    exact ⟨fun _ => rfl, fun _ => rfl⟩
  · rintro _ ⟨⟩ _ ⟨⟩ _ hsymbol
    cases hsymbol

end TransactSql.Execution
