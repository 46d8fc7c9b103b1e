/-
TransactSql.Proofs.Execution.Replacing — a parameter is a value.

A text that runs without failure with a parameter bound to a value runs
in the same way if the literal of the value is written in the place of
the parameter (`execute_apply`). So a parameter cannot do what the
literal could not do.

Call by call, either both texts go on alike or the first one stops
before the parameter (`next_replaced`). There it would fail with its
next call, as no statement begins with a parameter.
-/
import TransactSql.Proofs.Collation.MapEntries
import TransactSql.Proofs.Execution.Calls
import TransactSql.Proofs.Parse.Replacing

namespace TransactSql.Execution

open Parse Replacement

variable {r : Replacement} {e d : Execution} {c c' : Cursor} {t u : Token} {server : Server}

/-! ## One call -/

/-- The first text is to be run with the parameter bound, and the second one with the literal. -/
structure Replaced (r : Replacement) (e d : Execution) : Prop where
  cursor : r.Alike e.cursor d.cursor
  binds : ∀ server, r.Binds (e.scope server) (d.scope server)
  finished : e.finished = d.finished

theorem Replaced.goOn (h : Replaced r e d) (hc : r.Alike c c') (rowCount : Int32) :
    Replaced r { e with cursor := c, rowCount := rowCount }
      { d with cursor := c', rowCount := rowCount } where
  cursor := hc
  binds server := ⟨(h.binds server).parameter, (h.binds server).collation, rfl, rfl⟩
  finished := h.finished

/-- The call has answered an outcome and stopped before the parameter. -/
structure Step.Stuck (r : Replacement) (s : Step) : Prop where
  item : ∃ outcome, s.item = some (.ok outcome)
  finished : s.execution.finished = false
  cursor : r.Stuck s.execution.cursor

/-- The calls answer the same, and what is left to run is alike. -/
structure Step.Replaced (r : Replacement) (s s' : Step) : Prop where
  item : s.item = s'.item
  execution : Execution.Replaced r s.execution s'.execution
  server : s.server = s'.server

theorem runStatement_replaced (h : Replaced r e d) (hfinished : e.finished = false)
    (hmeaning : t.meaning = u.meaning) (hc : r.Alike c c')
    (hsucceeds : (runStatement e server t c).Succeeds) :
    (runStatement e server t c).Stuck r ∨
      Step.Replaced r (runStatement e server t c) (runStatement d server u c') := by
  rw [runStatement_eq] at hsucceeds
  rw [runStatement_eq, runStatement_eq]
  rcases hread : (Statement.read (e.scope server) t).run c with ⟨failure | statement, later⟩
  · rw [hread] at hsucceeds
    exact absurd rfl (hsucceeds failure)
  rw [hread] at hsucceeds
  dsimp only at hsucceeds ⊢
  rcases hrun : statement.perform.answer server.catalog with failure | ⟨outcome, catalog⟩
  · rw [hrun] at hsucceeds
    exact absurd rfl (hsucceeds failure)
  rcases Statement.follows_read (h.binds server) hmeaning c c' statement later hc hread with
    ⟨-, hstuck⟩ | ⟨later', hread', halike⟩
  · exact .inl ⟨⟨outcome, rfl⟩, hfinished, hstuck⟩
  · rw [hread']
    dsimp only
    rw [hrun]
    exact .inr ⟨rfl, h.goOn halike outcome.rowCount, rfl⟩

theorem handle_replaced (h : Replaced r e d) (hfinished : e.finished = false)
    (hmeaning : t.meaning = u.meaning) (hc : r.Alike c c')
    (hsucceeds : (handle e server t c).Succeeds)
    (ih : ∀ e' d' : Execution, e'.cursor.remaining ≤ c.remaining → Replaced r e' d' →
      (e'.next server).Succeeds →
      (e'.next server).Stuck r ∨ Step.Replaced r (e'.next server) (d'.next server)) :
    (handle e server t c).Stuck r ∨
      Step.Replaced r (handle e server t c) (handle d server u c') := by
  have hkind : t.kind = u.kind := congrArg Prod.fst hmeaning
  have hset : t.isKeyword .SET = u.isKeyword .SET := by
    rw [Token.isKeyword, Token.isKeyword, hkind]
  have hless := Statement.readOption.remaining_run_le c
  unfold handle at hsucceeds ⊢
  rw [← hkind, ← hset]
  split
  · rename_i hterminator
    rw [if_pos hterminator] at hsucceeds
    exact ih _ { d with cursor := c' } (Nat.le_refl _) ⟨hc, h.binds, h.finished⟩ hsucceeds
  rename_i hterminator
  rw [if_neg hterminator] at hsucceeds
  split
  · rename_i hset
    rw [if_pos hset] at hsucceeds
    rcases hread : Statement.readOption.run c with ⟨failure | ⟨⟩, later⟩
    · rw [hread] at hsucceeds
      exact absurd rfl (hsucceeds failure)
    obtain ⟨later', hread', halike⟩ :=
      (Statement.mirrors_readOption c c' () later hc hread).resolve_left fun hstuck => hstuck.1
    rw [hread] at hsucceeds hless
    rw [hread']
    exact ih _ _ hless (h.goOn halike 0) hsucceeds
  · rename_i hset
    rw [if_neg hset] at hsucceeds
    exact runStatement_replaced h hfinished hmeaning hc hsucceeds

/-- No statement begins with the parameter. -/
theorem exists_error_of_stuck (hfinished : e.finished = false) (h : r.Stuck e.cursor)
    (server : Server) : ∃ failure, (e.next server).item = some (.error failure) := by
  obtain ⟨⟨tokens, fault, last⟩, parameters, rowCount, finished⟩ := e
  obtain ⟨t, rest, htokens, ht⟩ := h
  obtain ⟨name, hname⟩ := kind_of_replaces ht
  cases htokens
  rw [next_eq hfinished]
  show ∃ failure, (handle _ server t _).item = _
  have hterminator : ¬(t.kind == .terminator) = true := by simp [hname]
  have hset : ¬t.isKeyword .SET = true := by simp [Token.isKeyword, hname]
  rw [handle, if_neg hterminator, if_neg hset, runStatement_eq, Statement.read, hname]
  exact ⟨_, rfl⟩

/-- A call of the second text answers what the call of the first one answers, or the first one has
stopped before the parameter. -/
theorem next_replaced (h : Replaced r e d) (hsucceeds : (e.next server).Succeeds) :
    (e.next server).Stuck r ∨ Step.Replaced r (e.next server) (d.next server) := by
  induction hn : e.cursor.remaining using Nat.strongRecOn generalizing e d with
  | ind n ih =>
    cases hfinished : e.finished with
    | true =>
      rw [next_of_finished hfinished, next_of_finished (h.finished ▸ hfinished)]
      exact .inr ⟨rfl, h, rfl⟩
    | false =>
      have hfinished' : d.finished = false := h.finished ▸ hfinished
      obtain ⟨cursor, parameters, rowCount, finished⟩ := e
      obtain ⟨cursor', parameters', rowCount', finished'⟩ := d
      obtain ⟨last, last', rfl, rfl⟩ | ⟨t, u, left, right, last, last', rfl, rfl, hstands, hrest⟩ :=
        h.cursor.cases_tokens
      · rw [next_of_end hfinished rfl, next_of_end hfinished' rfl]
        exact .inr ⟨rfl, ⟨h.cursor, h.binds, rfl⟩, rfl⟩
      have hmeaning : t.meaning = u.meaning := by
        unfold Stands at hstands
        split at hstands
        · obtain ⟨failure, hfailure⟩ :=
            exists_error_of_stuck hfinished ⟨t, left, rfl, ‹_›⟩ server
          exact absurd hfailure (hsucceeds failure)
        · exact hstands
      rw [next_of_token hfinished rfl] at hsucceeds ⊢
      rw [next_of_token hfinished' rfl]
      refine handle_replaced h hfinished hmeaning ⟨hrest, rfl, rfl⟩ hsucceeds ?_
      intro e' d' hle h' hsucceeds'
      refine ih _ ?_ h' hsucceeds' rfl
      rw [← hn]
      exact Nat.lt_of_le_of_lt hle (Nat.lt_succ_self left.length)

/-! ## All calls -/

/-- A run without failure does not stop before the parameter. -/
theorem run_replaced (h : Replaced r e d) (hsuccess : (e.run server).failure = none) :
    d.run server = e.run server := by
  induction hn : e.cursor.remaining using Nat.strongRecOn generalizing e d server with
  | ind n ih =>
    have hsucceeds : (e.next server).Succeeds := by
      intro failure hitem
      rw [run_eq] at hsuccess
      rcases hnext : e.next server with ⟨item, later, after⟩
      rw [hnext] at hitem hsuccess
      cases hitem
      cases hsuccess
    have hstep := next_replaced h hsucceeds
    rw [run_eq] at hsuccess
    rw [run_eq, run_eq e]
    rcases hleft : e.next server with ⟨item, later, after⟩
    rcases hright : d.next server with ⟨item', later', after'⟩
    rw [hleft] at hsuccess hstep
    rw [hright] at hstep
    rcases hstep with ⟨⟨outcome, hitem⟩, hfinished, hstuck⟩ | ⟨hitem, hlater, hafter⟩
    · cases hitem
      -- the call after this one fails
      obtain ⟨failure, hfailure⟩ := exists_error_of_stuck hfinished hstuck after
      rcases hnext : later.next after with ⟨item, later', after'⟩
      have hrun : (run later after).failure = none := hsuccess
      rw [run_eq, hnext] at hrun
      rw [hnext] at hfailure
      cases hfailure
      cases hrun
    · cases hitem
      cases hafter
      rcases item with _ | failure | outcome
      · rfl
      · rfl
      · show Run.mk _ _ _ = Run.mk _ _ _
        rw [ih _ (hn ▸ remaining_next_lt hleft) hlater hsuccess rfl]

/-! ## Texts -/

theorem binds_insert (r : Replacement) {parameters : Bindings} (hsound : parameters.Sound)
    (hcollation : parameters.collation = r.collation) (version : String) (rowCount : Int32) :
    r.Binds ⟨parameters.insert r.name r.value, version, rowCount⟩
      ⟨parameters, version, rowCount⟩ where
  parameter name := by
    have hlawful : parameters.collation.Lawful := hcollation ▸ r.lawful
    rw [← hcollation]
    exact CollatedMap.get?_insert hsound hlawful r.name r.value name
  collation := CollatedMap.collation_insert parameters r.name r.value
  version := rfl
  rowCount := rfl

/-- A text that runs without failure with a parameter bound to the value of a literal runs in the
same way, without that binding, with the literal written in the place of the parameter. -/
theorem execute_apply (r : Replacement) (server : Server) {text : String} {tokens : List Token}
    {parameters : Bindings} (htokens : (Lexer.ofText text).tokens = (tokens, none))
    (hsound : parameters.Sound) (hcollation : parameters.collation = r.collation)
    (hsuccess : (server.execute text (parameters.insert r.name r.value)).failure = none) :
    server.execute (r.apply tokens) parameters =
      server.execute text (parameters.insert r.name r.value) := by
  obtain ⟨us, hus, hreplaced, -⟩ := r.reread_of_lexes (Lexer.lexes_of_tokens htokens) 0
  have hcursor : Cursor.ofText text = ⟨tokens.filter fun t => !t.isTrivia, none, ""⟩ := by
    simp only [Cursor.ofText, htokens]
  have hcursor' : Cursor.ofText (r.apply tokens) = ⟨us, none, ""⟩ := by
    rw [Lexer.cursor_ofText, apply, String.toList_ofList, hus]
  have halike : r.Alike (Cursor.ofText text) (Cursor.ofText (r.apply tokens)) := by
    rw [hcursor, hcursor']
    exact ⟨hreplaced, rfl, rfl⟩
  exact run_replaced ⟨halike, fun _ => binds_insert r hsound hcollation _ _, rfl⟩ hsuccess

/-- In both spellings the parameter can be written out, as a value that is given an alias and as one
that is negated. -/
theorem execute_apply_seven :
    let server := Server.create {}
    let run := server.execute "SELECT @P x, -@p" (Bindings.none.insert "p" (.int 7))
    run.failure = none ∧ server.execute "SELECT  7  x, - 7 " Bindings.none = run := by
  intro server run
  let r : Replacement :=
    { name := "p", collation := Collation.caseInsensitive,
      lawful := Collation.caseInsensitive_lawful,
      text := "7", token := ⟨.number (.int 7), "7", 0⟩, value := .int 7,
      tokens_eq := by decide +kernel, value_eq := rfl }
  have htokens : (Lexer.ofText "SELECT @P x, -@p").tokens =
      ([⟨.keyword .SELECT, "SELECT", 0⟩, ⟨.whitespace, " ", 6⟩, ⟨.parameter "P", "@P", 7⟩,
        ⟨.whitespace, " ", 9⟩, ⟨.word, "x", 10⟩, ⟨.comma, ",", 11⟩, ⟨.whitespace, " ", 12⟩,
        ⟨.operator '-', "-", 13⟩, ⟨.parameter "p", "@p", 14⟩], none) := by
    decide +kernel
  have hsuccess : run.failure = none := by decide +kernel
  have happly := execute_apply r server htokens (CollatedMap.empty_sound _) rfl hsuccess
  refine ⟨hsuccess, .trans (congrArg (server.execute · Bindings.none) ?_) happly⟩
  decide +kernel

end TransactSql.Execution
