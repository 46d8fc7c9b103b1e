/-
TransactSql.Proofs.Execution.Batches — one text behind another.

If a text that runs without failure is followed by a line break, a
semicolon and a second text, the two run one after the other: the second
finds the tables of the first and its row count, and nothing else
(`execute_append`).

`followedBy` puts a semicolon and further tokens behind what is still to
be run. A call does not see them until it comes to the semicolon
(`next_followedBy`), and from there on the further tokens are run as they
are alone, apart from the places in their failures (`run_shift`).
-/
import TransactSql.Proofs.Execution.Layout
import TransactSql.Proofs.Lexer.Significant
import TransactSql.Proofs.Parse.Failures
import TransactSql.Proofs.Parse.Following

namespace TransactSql

open Parse

/-! ## What follows the tokens -/

/-- The cursor, if the text goes on behind its end with a token and others. -/
def Cursor.followedBy (c : Cursor) (t : Token) (more : List Token) (fault : Option Error) :
    Cursor :=
  ⟨c.tokens ++ t :: more, fault, c.lastLiteral⟩

/-- A statement that is read does not see what stands behind a semicolon. -/
theorem Parse.StopsBefore.run_followedBy {α : Type} {p : Parse α} {c c' : Cursor} {a : α}
    {t : Token} (h : StopsBefore Token.EndsStatement p) (ht : t.EndsStatement)
    (hrun : p.run c = (.ok a, c')) (more : List Token) (fault : Option Error) :
    p.run (c.followedBy t more fault) = (.ok a, c'.followedBy t more fault) := by
  obtain ⟨taken, htokens, hany⟩ := h.ignoresRest c a c' hrun
  rw [Cursor.followedBy, htokens, List.append_assoc, Cursor.followedBy]
  cases hrest : c'.tokens with
  | nil => exact hany t more fault (.inl ht)
  | cons u rest => exact hany u (rest ++ t :: more) fault (.inr (by rw [hrest]; rfl))

namespace Execution

/-- The execution, if its text goes on behind its end with a token and others. -/
def followedBy (e : Execution) (t : Token) (more : List Token) (fault : Option Error) :
    Execution :=
  { e with cursor := e.cursor.followedBy t more fault }

/-- The execution with other tokens to run. -/
def goOn (e : Execution) (cursor : Cursor) : Execution :=
  { e with cursor := cursor, finished := false }

/-- A call with a token and others behind the text. At the end of the text it goes on with them. -/
def Step.followedBy (s : Step) (t : Token) (more : List Token) (fault : Option Error) : Step :=
  match s.item with
  | none => (s.execution.goOn ⟨more, fault, t.literal⟩).next s.server
  | some _ => { s with execution := s.execution.followedBy t more fault }

section FollowedBy

variable {e : Execution} {server : Server} {t : Token} {more : List Token} {fault : Option Error}

theorem runStatement_followedBy {u : Token} {c : Cursor} (ht : t.EndsStatement)
    (h : (runStatement e server u c).Succeeds) :
    runStatement (e.followedBy t more fault) server u (c.followedBy t more fault) =
      (runStatement e server u c).followedBy t more fault := by
  have hscope : (e.followedBy t more fault).scope server = e.scope server := rfl
  rw [runStatement_eq] at h
  rw [runStatement_eq, runStatement_eq]
  rw [hscope]
  rcases hread : (Statement.read (e.scope server) u).run c with ⟨failure | statement, later⟩
  · rw [hread] at h
    exact absurd rfl (h failure)
  rw [hread] at h
  rw [(Statement.stopsBefore_read (e.scope server) u).run_followedBy ht hread more fault]
  dsimp only at h ⊢
  rcases hrun : statement.perform.answer server.catalog with failure | ⟨outcome, catalog⟩
  · rw [hrun] at h
    exact absurd rfl (h failure)
  · rfl

theorem handle_followedBy {u : Token} {c : Cursor} (ht : t.EndsStatement)
    (hfinished : e.finished = false) (h : (handle e server u c).Succeeds)
    (ih : ∀ e' : Execution, e'.cursor.remaining ≤ c.remaining → e'.finished = false →
      (e'.next server).Succeeds →
      (e'.followedBy t more fault).next server = (e'.next server).followedBy t more fault) :
    handle (e.followedBy t more fault) server u (c.followedBy t more fault) =
      (handle e server u c).followedBy t more fault := by
  have hless := Statement.readOption.remaining_run_le c
  unfold handle at h ⊢
  split
  · rename_i hterminator
    rw [if_pos hterminator] at h
    exact ih { e with cursor := c } (Nat.le_refl _) hfinished h
  rename_i hterminator
  rw [if_neg hterminator] at h
  split
  · rename_i hset
    rw [if_pos hset] at h
    rcases hread : Statement.readOption.run c with ⟨failure | ⟨⟩, later⟩
    · rw [hread] at h
      exact absurd rfl (h failure)
    rw [hread] at h hless
    rw [Statement.stopsBefore_readOption.run_followedBy ht hread more fault]
    exact ih { e with cursor := later, rowCount := 0 } hless hfinished h
  · rename_i hset
    rw [if_neg hset] at h
    exact runStatement_followedBy ht h

/-- A call answers the same with a semicolon and further tokens behind the text; at the end of the
text it goes on with these. -/
theorem next_followedBy (ht : t.EndsStatement) (hfinished : e.finished = false)
    (h : (e.next server).Succeeds) :
    (e.followedBy t more fault).next server = (e.next server).followedBy t more fault := by
  induction hn : e.cursor.remaining using Nat.strongRecOn generalizing e with
  | ind n ih =>
    have hfinished' : (e.followedBy t more fault).finished = false := hfinished
    rw [next_eq hfinished] at h
    rw [next_eq hfinished', next_eq hfinished]
    obtain ⟨⟨tokens, fault', last⟩, parameters, rowCount, finished⟩ := e
    cases tokens with
    | nil =>
      cases fault' with
      | some failure => exact absurd rfl (h failure)
      | none =>
        -- the text has ended, and the token before the others is passed over
        have hkind : (t.kind == .terminator) = true := by rw [ht.kind_eq]; rfl
        obtain rfl : finished = false := hfinished
        show handle _ server t ⟨more, fault, t.literal⟩ = _
        rw [handle, if_pos hkind]
        rfl
    | cons u tokens =>
      refine handle_followedBy (c := ⟨tokens, fault', u.literal⟩) ht hfinished h ?_
      intro e' hle hfinished' h'
      refine ih _ ?_ hfinished' h' rfl
      rw [← hn]
      exact Nat.lt_of_le_of_lt hle (Nat.lt_succ_self _)

end FollowedBy

/-! ## Runs with further tokens -/

/-- The execution after all its statements have been run. -/
def atEnd (e : Execution) (server : Server) : Execution :=
  match _h : e.next server with
  | ⟨none, later, _⟩ => later
  | ⟨some (.error _), later, _⟩ => later
  | ⟨some (.ok _), later, after⟩ => atEnd later after
termination_by e.cursor.remaining
decreasing_by exact remaining_next_lt _h

theorem atEnd_eq (e : Execution) (server : Server) :
    e.atEnd server =
      match e.next server with
      | ⟨none, later, _⟩ => later
      | ⟨some (.error _), later, _⟩ => later
      | ⟨some (.ok _), later, after⟩ => later.atEnd after := by
  rw [atEnd]
  split <;> rename_i heq <;> rw [heq]

theorem parameters_atEnd (e : Execution) (server : Server) :
    (e.atEnd server).parameters = e.parameters := by
  fun_induction atEnd e server with
  | case1 e server later _ hnext => rw [← e.parameters_next server, hnext]
  | case2 e server _ later _ hnext => rw [← e.parameters_next server, hnext]
  | case3 e server _ later _ hnext ih => rw [ih, ← e.parameters_next server, hnext]

/-- An execution that answers an outcome can be called again. -/
theorem not_finished_of_next {e later : Execution} {server after : Server} {outcome : Outcome}
    (h : e.next server = ⟨some (.ok outcome), later, after⟩) : later.finished = false := by
  fun_induction next e server with
  | case1 => cases h
  | case2 => cases h
  | case3 => cases h
  | case4 _ _ _ _ _ _ ih => exact ih h
  | case5 => cases h
  | case6 _ _ _ _ _ _ _ _ _ ih => exact ih h
  | case7 e hfinished _ _ _ _ _ =>
    rw [runStatement_eq] at h
    split at h
    · cases h
    · split at h
      · cases h
      · cases h
        simpa using hfinished

theorem run_congr {e d : Execution} {server server' : Server}
    (h : e.next server = d.next server') : e.run server = d.run server' := by
  rw [run_eq, run_eq, h]

/-- What is run behind the outcomes of a run that has not failed. -/
def Run.followedBy (first second : Run) : Run :=
  ⟨first.outcomes ++ second.outcomes, second.failure, second.server⟩

/-- A run without failure goes on behind a semicolon: with the tables and the row count that are
there at its end. -/
theorem run_followedBy {e : Execution} {server : Server} {t : Token} (ht : t.EndsStatement)
    (hfinished : e.finished = false) (h : (e.run server).failure = none) (more : List Token)
    (fault : Option Error) :
    (e.followedBy t more fault).run server = (e.run server).followedBy
      (((e.atEnd server).goOn ⟨more, fault, t.literal⟩).run (e.run server).server) := by
  induction hn : e.cursor.remaining using Nat.strongRecOn generalizing e server with
  | ind n ih =>
    have hcall : (e.next server).Succeeds → (e.followedBy t more fault).next server =
        (e.next server).followedBy t more fault := next_followedBy ht hfinished
    rw [run_eq] at h
    rw [run_eq e, atEnd_eq]
    rcases hnext : e.next server with ⟨_ | failure | outcome, later, after⟩
    · rw [hnext] at hcall
      exact run_congr (hcall nofun)
    · rw [hnext] at h
      cases h
    · rw [hnext] at h hcall
      have hlater := ih _ (hn ▸ remaining_next_lt hnext) (not_finished_of_next hnext) h rfl
      rw [run_eq, hcall nofun]
      dsimp only [Step.followedBy]
      rw [hlater]
      rfl

/-! ## Runs in another place -/

theorem sameTokens_shift (n : Nat) (ts : List Token) : SameTokens (ts.map (Token.shift n)) ts := by
  induction ts with
  | nil => exact .nil
  | cons t ts ih =>
    refine .cons rfl (fun t' ht' u' hu' _ _ => ?_) ih
    cases ts with
    | nil => cases hu'
    | cons u ts =>
      cases ht'
      cases hu'
      simp only [Token.Touches, Token.shift, Token.stop]
      omega

/-- The execution, if the failure behind its tokens stands so much further on. -/
def shiftFault (n : Nat) (e : Execution) : Execution :=
  { e with cursor := e.cursor.shiftFault n }

def Step.shift (n : Nat) (s : Step) : Step :=
  ⟨s.item.map (Except.mapError (Error.shift n)), s.execution.shiftFault n, s.server⟩

/-- The run, if so many characters stand before the text. -/
def Run.shift (n : Nat) (r : Run) : Run := { r with failure := r.failure.map (Error.shift n) }

theorem runStatement_shiftFault (n : Nat) (e : Execution) (server : Server) (t : Token)
    (c : Cursor) :
    runStatement (e.shiftFault n) server t (c.shiftFault n) =
      (runStatement e server t c).shift n := by
  have hscope : (e.shiftFault n).scope server = e.scope server := rfl
  rw [runStatement_eq, runStatement_eq]
  rw [hscope, Statement.relaysFault_read _ t n c]
  rcases (Statement.read (e.scope server) t).run c with ⟨failure | statement, later⟩
  · rfl
  dsimp only [mapError_ok]
  have hplaceless := statement.placeless_perform server.catalog n
  rcases hrun : statement.perform.answer server.catalog with failure | ⟨outcome, catalog⟩
  · rw [hrun] at hplaceless
    have hfailure : failure.shift n = failure := Except.error.inj hplaceless
    simp only [Step.shift, Option.map_some, mapError_error, hfailure]
    rfl
  · rfl

theorem next_shiftFault (n : Nat) (e : Execution) (server : Server) :
    (e.shiftFault n).next server = (e.next server).shift n := by
  induction hn : e.cursor.remaining using Nat.strongRecOn generalizing e with
  | ind length ih =>
    cases hfinished : e.finished with
    | true =>
      rw [next_of_finished hfinished, next_of_finished (e := e.shiftFault n) hfinished]
      rfl
    | false =>
      rw [next_eq hfinished, next_eq (e := e.shiftFault n) hfinished]
      obtain ⟨⟨tokens, fault, last⟩, parameters, rowCount, finished⟩ := e
      cases tokens with
      | nil => cases fault <;> rfl
      | cons t tokens =>
        have hless : tokens.length < length := by
          rw [← hn]
          exact Nat.lt_succ_self _
        have hread := Statement.relaysFault_readOption n ⟨tokens, fault, t.literal⟩
        have hle := Statement.readOption.remaining_run_le ⟨tokens, fault, t.literal⟩
        show handle _ server t (Cursor.shiftFault n ⟨tokens, fault, t.literal⟩) = Step.shift n
          (handle _ server t ⟨tokens, fault, t.literal⟩)
        unfold handle
        split
        · exact ih _ hless ⟨⟨tokens, fault, t.literal⟩, parameters, rowCount, finished⟩ rfl
        · split
          · rw [hread]
            rcases hoption : Statement.readOption.run ⟨tokens, fault, t.literal⟩ with
              ⟨failure | ⟨⟩, later⟩
            · rfl
            · rw [hoption] at hle
              exact ih _ (Nat.lt_of_le_of_lt hle hless) ⟨later, parameters, 0, finished⟩ rfl
          · exact runStatement_shiftFault n _ server t _

theorem run_shiftFault (n : Nat) (e : Execution) (server : Server) :
    (e.shiftFault n).run server = (e.run server).shift n := by
  induction hn : e.cursor.remaining using Nat.strongRecOn generalizing e server with
  | ind length ih =>
    rw [run_eq, run_eq, next_shiftFault]
    rcases hnext : e.next server with ⟨_ | failure | outcome, later, after⟩
    · rfl
    · rfl
    · have hlater := ih _ (hn ▸ remaining_next_lt hnext) later after rfl
      simp only [Step.shift, Option.map_some, mapError_ok, hlater]
      rfl

/-- What stood before the tokens does not matter. -/
theorem run_lastLiteral (tokens : List Token) (fault : Option Error) (last last' : String)
    (parameters : Bindings) (rowCount : Int32) (server : Server) :
    (⟨⟨tokens, fault, last⟩, parameters, rowCount, false⟩ : Execution).run server =
      (⟨⟨tokens, fault, last'⟩, parameters, rowCount, false⟩ : Execution).run server := by
  cases tokens with
  | nil =>
    rw [run_eq, run_eq, next_eq rfl, next_eq rfl]
    cases fault <;> rfl
  | cons t tokens =>
    refine run_congr ?_
    rw [next_eq rfl, next_eq rfl]
    rfl

/-- A text that stands further on is run as it is alone, apart from the places in its failures. -/
theorem run_shift (n : Nat) (tokens : List Token) (fault : Option Error) (last last' : String)
    (parameters : Bindings) (rowCount : Int32) (server : Server) :
    (⟨⟨tokens.map (Token.shift n), fault.map (Error.shift n), last⟩, parameters, rowCount, false⟩ :
      Execution).run server =
      ((⟨⟨tokens, fault, last'⟩, parameters, rowCount, false⟩ : Execution).run server).shift n := by
  rw [← run_shiftFault]
  have halike : Execution.Alike
      ⟨⟨tokens.map (Token.shift n), fault.map (Error.shift n), last⟩, parameters, rowCount, false⟩
      ⟨⟨tokens, fault.map (Error.shift n), last⟩, parameters, rowCount, false⟩ :=
    ⟨⟨sameTokens_shift n tokens, rfl, rfl⟩, rfl, rfl, rfl⟩
  exact (run_alike halike server).trans (run_lastLiteral ..)

/-! ## Texts -/

/-- A text of which nothing has been run, after a statement with so many rows. -/
def ofTextAfter (rowCount : Int32) (text : String) (parameters : Bindings) : Execution :=
  { ofText text parameters with rowCount := rowCount }

/-- The tokens of a text behind another one, with a line break and a semicolon between them. -/
theorem cursor_append {a lineBreak : String} {tokens : List Token}
    (ha : (Lexer.ofText a).tokens = (tokens, none)) (hnonempty : lineBreak ≠ "")
    (hbreak : ∀ c ∈ lineBreak.toList, Lexer.isLineBreak c = true) (b : String) :
    let n := a.length + lineBreak.length
    let second := Cursor.ofText b
    Cursor.ofText (a ++ lineBreak ++ ";" ++ b) = (Cursor.ofText a).followedBy ⟨.terminator, ";", n⟩
      (second.tokens.map (Token.shift (n + 1))) (second.fault.map (Error.shift (n + 1))) := by
  intro n second
  obtain ⟨sep, breaks, hlineBreak⟩ : ∃ sep breaks, lineBreak.toList = sep :: breaks :=
    List.exists_cons_of_ne_nil fun h => hnonempty (String.toList_eq_nil_iff.mp h)
  have hblank : ∀ c ∈ sep :: breaks, Lexer.isSpace c = true := by
    intro c hc
    rw [Lexer.isSpace_iff]
    have hline : c = '\r' ∨ c = '\n' := by
      simpa [Lexer.isLineBreak] using hbreak c (hlineBreak ▸ hc)
    exact .inr (.inr hline)
  have hsep : Lexer.isLineBreak sep = true := hbreak sep (hlineBreak ▸ List.mem_cons_self)
  have htext : (a ++ lineBreak ++ ";" ++ b).toList =
      a.toList ++ sep :: (breaks ++ ';' :: b.toList) := by
    simp [String.toList_append, hlineBreak]
  have hsemicolon : Lexer.scan n ';' ([] ++ b.toList) = .ok (.terminator, 1) := rfl
  have hn : a.toList.length + (sep :: breaks).length = n := by
    rw [← hlineBreak, String.length_toList, String.length_toList]
  have hsecond : Lexer.significant (sep :: (breaks ++ ';' :: b.toList)) a.toList.length =
      (⟨.terminator, ";", n⟩ :: second.tokens.map (Token.shift (n + 1)),
        second.fault.map (Error.shift (n + 1))) := by
    rw [← List.cons_append, Lexer.significant_spaces hblank, hn]
    have hshift := Lexer.significant_shift (n + 1) 0 b.toList
    rw [Nat.zero_add] at hshift
    have htoken := Lexer.significant_of_token hsemicolon (by simp [Lexer.IsTrivia])
    simp only [List.nil_append, List.length_nil, Nat.add_zero, hshift] at htoken
    exact htoken
  have happend := (Lexer.lexes_of_tokens ha).significant_append hsep (breaks ++ ';' :: b.toList)
  rw [Nat.zero_add, hsecond] at happend
  rw [Lexer.cursor_ofText, htext, happend]
  rfl

/-- A text without lexical faults that runs without failure is followed by a line break, a
semicolon and any second text. The second one is run after the first: on the tables and with the
row count that the first leaves behind, and with the same parameters. Nothing else of the first
matters to it but how many characters stand before it, which only a lexical failure tells. -/
theorem execute_append {a lineBreak : String} {tokens : List Token} {server : Server}
    {parameters : Bindings} (ha : (Lexer.ofText a).tokens = (tokens, none))
    (hok : (server.execute a parameters).failure = none) (hnonempty : lineBreak ≠ "")
    (hbreak : ∀ c ∈ lineBreak.toList, Lexer.isLineBreak c = true) (b : String) :
    let first := server.execute a parameters
    let rowCount := ((ofText a parameters).atEnd server).rowCount
    let second := (ofTextAfter rowCount b parameters).run first.server
    server.execute (a ++ lineBreak ++ ";" ++ b) parameters =
      ⟨first.outcomes ++ second.outcomes,
        second.failure.map (Error.shift (a.length + lineBreak.length + 1)), second.server⟩ := by
  intro first rowCount second
  have hcursor := cursor_append ha hnonempty hbreak b
  have hwhole : ofText (a ++ lineBreak ++ ";" ++ b) parameters =
      (ofText a parameters).followedBy ⟨.terminator, ";", a.length + lineBreak.length⟩
        ((Cursor.ofText b).tokens.map (Token.shift (a.length + lineBreak.length + 1)))
        ((Cursor.ofText b).fault.map (Error.shift (a.length + lineBreak.length + 1))) := by
    rw [ofText, hcursor]
    rfl
  have hterminator : Token.EndsStatement ⟨.terminator, ";", a.length + lineBreak.length⟩ := rfl
  have hgoOn : ((ofText a parameters).atEnd server).goOn
      ⟨(Cursor.ofText b).tokens.map (Token.shift (a.length + lineBreak.length + 1)),
        (Cursor.ofText b).fault.map (Error.shift (a.length + lineBreak.length + 1)), ";"⟩ =
      ⟨⟨(Cursor.ofText b).tokens.map (Token.shift (a.length + lineBreak.length + 1)),
        (Cursor.ofText b).fault.map (Error.shift (a.length + lineBreak.length + 1)), ";"⟩,
        parameters, rowCount, false⟩ := by
    rw [goOn, parameters_atEnd]
    rfl
  rw [Server.execute, hwhole, run_followedBy hterminator rfl hok, hgoOn,
    run_shift _ _ _ _ (Cursor.ofText b).lastLiteral]
  rfl

/-- The second text sees the rows and the row count of the first, and fails 50 characters further on
than alone. -/
theorem execute_append_of_unknown_character :
    let server := Server.create {}
    let a := "CREATE TABLE t (a int); INSERT t VALUES (1), (2)"
    let b := "SELECT @@ROWCOUNT SELECT * FROM t ?"
    let first := server.execute a Bindings.none
    let second := (ofTextAfter 2 b Bindings.none).run first.server
    first.failure = none ∧ second.failure = some (.unexpectedCharacter '?' 34) ∧
      server.execute (a ++ "\n" ++ ";" ++ b) Bindings.none =
        ⟨first.outcomes ++ second.outcomes, some (.unexpectedCharacter '?' 84), second.server⟩ := by
  intro server a b first second
  have htokens : (Lexer.ofText a).tokens = ((Lexer.ofText a).tokens.1, none) :=
    Prod.ext rfl (by decide +kernel)
  have hfirst : first.failure = none := by decide +kernel
  have hbreak : ∀ c ∈ "\n".toList, Lexer.isLineBreak c = true := by
    intro c hc
    rw [List.mem_singleton.mp hc]
    rfl
  have hcount : ((ofText a Bindings.none).atEnd server).rowCount = 2 := by decide +kernel
  have hsecond : second.failure = some (.unexpectedCharacter '?' 34) := by decide +kernel
  have hfailure : second.failure.map (Error.shift (a.length + "\n".length + 1)) =
      some (.unexpectedCharacter '?' 84) := by
    rw [hsecond]
    decide +kernel
  have hwhole := execute_append htokens hfirst (by decide) hbreak b
  dsimp only at hwhole
  rw [hcount] at hwhole
  exact ⟨hfirst, hsecond, hwhole.trans (congrArg (Run.mk _ · _) hfailure)⟩

end Execution
end TransactSql
