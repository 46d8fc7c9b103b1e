/-
TransactSql.Proofs.Parse.Peeking — what looking ahead leaves behind.

A request peeks if it looks at tokens and reads none. Where it is
answered, it leaves the cursor as it is. But behind the tokens there may
be a lexical fault, and a request that looks so far reports the fault and
uses it up: afterwards the tokens simply end (`Parse.run_peek`). So a
peek makes a difference to what is asked later exactly if it reports the
fault, and the difference is that the fault is gone.

The fault is not lost in any other way. A request leaves it alone or
reports it (`p.KeepsFault`), and whatever is asked of a cursor, its fault
is still there or is among the answers (`Cursor.fault_after`).
-/
import TransactSql.Proofs.Parse.Lookahead

namespace TransactSql

variable {α β : Type}

/-- The request looks at tokens and reads none. -/
def CursorRequest.IsPeek : CursorRequest → Prop
  | .peek | .peekNth _ | .peekIs _ | .peekKeyword _ => True
  | _ => False

/-- The request asks for a token, to look at it or to read it. -/
def CursorRequest.AsksForToken : CursorRequest → Prop
  | .next | .expectNext | .peek | .peekNth _ => True
  | _ => False

namespace Cursor

/-- The same tokens, with nothing but the end behind them. -/
def withoutFault (c : Cursor) : Cursor := { c with fault := none }

/-! ## The fault of a cursor -/

/-- What has come of a request: the fault of the cursor is still there, or it is reported and
gone. -/
def FaultKept (c : Cursor) : Except Error α × Cursor → Prop
  | (.ok _, c') => c'.fault = c.fault
  | (.error e, c') => c'.fault = c.fault ∨ c.fault = some e ∧ c'.fault = none

theorem FaultKept.of_eq {c c₁ : Cursor} {run : Except Error α × Cursor} (h : c₁.FaultKept run)
    (hfault : c₁.fault = c.fault) : c.FaultKept run := by
  unfold FaultKept at h ⊢
  rwa [hfault] at h

end Cursor

namespace Parse

/-- The reader leaves the fault behind the tokens alone, or reports it and uses it up. -/
def KeepsFault (p : Parse α) : Prop := ∀ c : Cursor, c.FaultKept (p.run c)

/-! ## Building readers -/

theorem run_map (f : α → β) (p : Parse α) (c : Cursor) :
    (f <$> p).run c =
      match p.run c with
      | (.ok a, c') => (.ok (f a), c')
      | (.error e, c') => (.error e, c') := rfl

theorem keepsFault_pure (a : α) : (pure a : Parse α).KeepsFault := fun _ => rfl

theorem keepsFault_fail (e : Error) : (fail e : Parse α).KeepsFault := fun _ => .inl rfl

theorem KeepsFault.bind {p : Parse α} {f : α → Parse β} (hp : p.KeepsFault)
    (hf : ∀ a, (f a).KeepsFault) : (p >>= f).KeepsFault := by
  intro c
  have hfirst := hp c
  rw [run_bind]
  rcases hrun : p.run c with ⟨e | a, c₁⟩ <;> rw [hrun] at hfirst
  · exact hfirst
  · exact (hf a c₁).of_eq hfirst

theorem KeepsFault.map {p : Parse α} (hp : p.KeepsFault) (f : α → β) : (f <$> p).KeepsFault :=
  hp.bind fun a => keepsFault_pure (f a)

theorem keepsFault_ite {b : Bool} {p q : Parse α} (hp : p.KeepsFault) (hq : q.KeepsFault) :
    (if b then p else q).KeepsFault := by
  cases b
  · exact hq
  · exact hp

theorem keepsFault_separatedNumbered {separator : Parse Bool} {item : Nat → Parse α}
    (hseparator : separator.KeepsFault) (hitem : ∀ place, (item place).KeepsFault) :
    (separatedNumbered separator item).KeepsFault := by
  intro c
  show c.FaultKept (runSeparated separator item 0 c)
  generalize 0 = place
  -- round by round, since each further one has fewer tokens before it
  induction hn : c.remaining using Nat.strongRecOn generalizing place c with
  | ind n ih =>
    have hround := ((hitem place).bind fun first =>
      hseparator.bind fun goesOn => keepsFault_pure (first, goesOn)) c
    rw [runSeparated_eq]
    change c.FaultKept ((round separator (item place)).run c) at hround
    rcases hrun : (round separator (item place)).run c with ⟨e | ⟨first, goesOn⟩, c₁⟩ <;>
      rw [hrun] at hround
    · exact hround
    dsimp only
    split
    · next hless =>
      have hmore := (ih c₁.remaining (hn ▸ hless.2) c₁ (place + 1) rfl).of_eq hround
      rcases hlater : runSeparated separator item (place + 1) c₁ with ⟨e | more, c₂⟩ <;>
        rw [hlater] at hmore <;> exact hmore
    · exact hround

/-! ## Requests -/

/-- A look ahead finds a token or the end, or it reports the fault and uses it up. Where the fault
is, it does not find the end. -/
theorem run_peekNth (n : Nat) (c : Cursor) :
    (∃ found, (peekNth n).run c = (.ok found, c) ∧ (found = none → c.fault = none)) ∨
      ∃ e, c.fault = some e ∧ (peekNth n).run c = (.error e, c.withoutFault) := by
  obtain ⟨tokens, fault, last⟩ := c
  simp only [peekNth, Cursor.peekNth, Cursor.withoutFault]
  cases tokens[n]? <;> cases fault <;> simp

theorem keepsFault_peekNth (n : Nat) : (peekNth n).KeepsFault := by
  intro c
  rcases run_peekNth n c with ⟨found, hrun, -⟩ | ⟨e, hfault, hrun⟩ <;> rw [hrun]
  · exact rfl
  · exact .inr ⟨hfault, rfl⟩

theorem keepsFault_next : next.KeepsFault := by
  rintro ⟨tokens, fault, last⟩
  cases tokens <;> cases fault <;> simp [Cursor.FaultKept, next, Cursor.next]

theorem keepsFault_expectNext : expectNext.KeepsFault := by
  refine keepsFault_next.bind fun found => ?_
  cases found with
  | none => exact fun _ => .inl rfl
  | some token => exact keepsFault_pure token

theorem keepsFault_peekIs (p : Token → Bool) : (peekIs p).KeepsFault :=
  (keepsFault_peekNth 0).bind fun _ => keepsFault_pure _

theorem keepsFault_nextIf (p : Token → Bool) : (nextIf p).KeepsFault :=
  (keepsFault_peekIs p).bind fun _ => keepsFault_ite keepsFault_next (keepsFault_pure none)

theorem keepsFault_consume (p : Token → Bool) : (consume p).KeepsFault :=
  (keepsFault_nextIf p).bind fun _ => keepsFault_pure _

theorem keepsFault_expect (p : Token → Bool) : (expect p).KeepsFault :=
  keepsFault_expectNext.bind fun token =>
    keepsFault_ite (keepsFault_pure token) (keepsFault_fail token.unexpected)

theorem keepsFault_expectText (text? : Token → Option String) : (expectText text?).KeepsFault := by
  refine keepsFault_expectNext.bind fun token => ?_
  split
  · exact keepsFault_pure _
  · exact keepsFault_fail token.unexpected

theorem keepsFault_qualifiedName : qualifiedName.KeepsFault :=
  (keepsFault_separatedNumbered (keepsFault_consume _) fun _ => keepsFault_expectText _).bind
    fun _ => keepsFault_pure _

theorem keepsFault_perform (request : CursorRequest) : (perform request).KeepsFault := by
  cases request with
  | next => exact keepsFault_next.map _
  | expectNext => exact keepsFault_expectNext.map _
  | peek => exact (keepsFault_peekNth 0).map _
  | peekNth n => exact (keepsFault_peekNth n).map _
  | peekIs p => exact (keepsFault_peekIs p).map _
  | peekKeyword keyword => exact (keepsFault_peekIs _).map _
  | nextIf p => exact (keepsFault_nextIf p).map _
  | consumeKeyword keyword => exact (keepsFault_consume _).map _
  | consumeKind kind => exact (keepsFault_consume _).map _
  | consumeAdjacent previous symbol => exact (keepsFault_consume _).map _
  | expectKeyword keyword => exact (keepsFault_expect _).map _
  | expectKind kind => exact (keepsFault_expect _).map _
  | expectIdentifier => exact (keepsFault_expectText _).map _
  | expectObjectName => exact keepsFault_qualifiedName.map _
  | expectAlias => exact (keepsFault_expectText _).map _
  | implicitAlias => exact ((keepsFault_nextIf _).bind fun _ => keepsFault_pure _).map _
  | unexpectedEnd => exact fun _ => rfl

/-- A peek is answered and changes nothing, or it reports the fault and uses it up. -/
theorem run_peek {request : CursorRequest} (hpeek : request.IsPeek) (c : Cursor) :
    (∃ answer, (perform request).run c = (.ok answer, c)) ∨
      ∃ e, c.fault = some e ∧ (perform request).run c = (.error e, c.withoutFault) := by
  have hlook (n : Nat) (read : Option Token → CursorAnswer) :
      (∃ answer, (read <$> peekNth n).run c = (.ok answer, c)) ∨
        ∃ e, c.fault = some e ∧ (read <$> peekNth n).run c = (.error e, c.withoutFault) := by
    rw [run_map]
    rcases run_peekNth n c with ⟨found, hrun, -⟩ | ⟨e, hfault, hrun⟩ <;> rw [hrun]
    · exact .inl ⟨read found, rfl⟩
    · exact .inr ⟨e, hfault, rfl⟩
  cases request with
  | peek => exact hlook 0 _
  | peekNth n => exact hlook n _
  | peekIs p =>
    rw [perform, peekIs, map_bind_pure]
    exact hlook 0 _
  | peekKeyword keyword =>
    rw [perform, peekKeyword, peekIs, map_bind_pure]
    exact hlook 0 _
  | _ => exact hpeek.elim

/-- While the fault is there, whoever asks for a token is given one or is told of the fault. -/
theorem run_of_fault {request : CursorRequest} (hasks : request.AsksForToken) {c : Cursor}
    {e : Error} (hfault : c.fault = some e) :
    (∃ token, ((perform request).run c).1 = .ok (.token (some token))) ∨
      ((perform request).run c).1 = .error e := by
  have hlook (n : Nat) : (∃ token, ((perform (.peekNth n)).run c).1 = .ok (.token (some token))) ∨
      ((perform (.peekNth n)).run c).1 = .error e := by
    rw [perform, run_map]
    rcases run_peekNth n c with ⟨found, hrun, hend⟩ | ⟨e', hfault', hrun⟩ <;> rw [hrun]
    · cases found with
      | none => cases hfault.symm.trans (hend rfl)
      | some token => exact .inl ⟨token, rfl⟩
    · cases hfault.symm.trans hfault'
      exact .inr rfl
  cases request with
  | peek => exact hlook 0
  | peekNth n => exact hlook n
  | next | expectNext =>
    obtain ⟨tokens, fault, last⟩ := c
    cases hfault
    cases tokens with
    | nil => exact .inr rfl
    | cons token rest => exact .inl ⟨token, rfl⟩
  | _ => exact hasks.elim

end Parse

/-! ## Request after request -/

namespace Cursor

/-- The cursor behind requests that are made one after the other. -/
def after (c : Cursor) : List CursorRequest → Cursor
  | [] => c
  | request :: later => ((Parse.perform request).run c).2.after later

/-- Whatever is asked of a cursor, its fault is still there or has been reported. -/
theorem fault_after (c : Cursor) (requests : List CursorRequest) :
    (c.after requests).fault = c.fault ∨
      ∃ e, c.fault = some e ∧ (c.after requests).fault = none ∧ .error e ∈ c.answers requests := by
  induction requests generalizing c with
  | nil => exact .inl rfl
  | cons request later ih =>
    have hfirst := Parse.keepsFault_perform request c
    unfold after answers
    rcases hrun : (Parse.perform request).run c with ⟨result, c'⟩
    rw [hrun] at hfirst
    have hsame (hfault : c'.fault = c.fault) : (c'.after later).fault = c.fault ∨
        ∃ e, c.fault = some e ∧ (c'.after later).fault = none ∧
          .error e ∈ result :: c'.answers later := by
      rw [← hfault]
      refine (ih c').imp_right ?_
      rintro ⟨e, hsome, hnone, hreported⟩
      exact ⟨e, hsome, hnone, List.mem_cons_of_mem _ hreported⟩
    rcases result with e | answer
    · rcases hfirst with hfault | ⟨hsome, hgone⟩
      · exact hsame hfault
      · have hnone : (c'.after later).fault = none := by
          rcases ih c' with hlater | ⟨_, -, hlater, -⟩
          · exact hlater.trans hgone
          · exact hlater
        exact .inr ⟨e, hsome, hnone, List.mem_cons_self⟩
    · exact hsame hfirst

end Cursor

namespace Lookahead

/-- The lookahead behind requests that are made one after the other. -/
def after (l : Lookahead) : List CursorRequest → Lookahead
  | [] => l
  | request :: later =>
    match (perform request).run l with
    | .ok _ l' => l'.after later
    | .error _ l' => l'.after later

theorem view_after (l : Lookahead) (requests : List CursorRequest) :
    (l.after requests).view = l.view.after requests := by
  induction requests generalizing l with
  | nil => rfl
  | cons request later ih =>
    have hfirst := imitates_perform request l
    unfold after Cursor.after
    rw [hfirst]
    cases (perform request).run l with
    | ok a l' => exact ih l'
    | error e l' => exact ih l'

theorem view_after_peek {request : CursorRequest} (hpeek : request.IsPeek) (l : Lookahead) :
    (∃ answer, l.answers [request] = [.ok answer] ∧ (l.after [request]).view = l.view) ∨
      ∃ e, l.view.fault = some e ∧ l.answers [request] = [.error e] ∧
        (l.after [request]).view = l.view.withoutFault := by
  rw [answers_view, view_after]
  unfold Cursor.answers Cursor.after
  rcases Parse.run_peek hpeek l.view with ⟨answer, hrun⟩ | ⟨e, hfault, hrun⟩ <;> rw [hrun]
  · exact .inl ⟨answer, rfl, rfl⟩
  · exact .inr ⟨e, hfault, rfl, rfl⟩

/-- A peek makes a difference to what is asked later exactly if it reports the fault. -/
theorem answers_behind_peek_iff {request : CursorRequest} (hpeek : request.IsPeek) (l : Lookahead) :
    (∀ later, (l.after [request]).answers later = l.answers later) ↔
      ∀ e, l.answers [request] ≠ [.error e] := by
  rcases view_after_peek hpeek l with ⟨answer, hanswer, hview⟩ | ⟨e, -, hanswer, hview⟩
  · refine iff_of_true (fun later => ?_) fun e he => ?_
    · rw [answers_view, answers_view, hview]
    · cases hanswer.symm.trans he
  · refine iff_of_false (fun hsame => ?_) fun hsilent => hsilent e hanswer
    -- asked again, the same request does not report the fault
    have hagain := (hsame [request]).trans hanswer
    rcases view_after_peek hpeek (l.after [request]) with ⟨answer, hanswer', -⟩ | ⟨e', hfault', -⟩
    · cases hanswer'.symm.trans hagain
    · rw [hview] at hfault'
      cases hfault'

/-- What the text has behind its tokens is still there, or has been reported. -/
theorem fault_after (text : String) (history : List CursorRequest) :
    ((ofText text).after history).view.fault = (Lexer.ofText text).tokens.2 ∨
      ∃ e, (Lexer.ofText text).tokens.2 = some e ∧
        ((ofText text).after history).view.fault = none ∧
        .error e ∈ (ofText text).answers history := by
  rw [view_after, answers_view]
  exact (Cursor.ofText text).fault_after history

/-- Of every state that a lookahead comes to, and every request that looks ahead there. The request
makes no difference to any later one exactly if it does not report the lexical fault. If it does,
this is the fault of the text, and the difference is that it is gone: what is asked later is
answered as if the text ended behind its last token. As long as no request has reported the fault,
none that asks for a token finds the end of the text in its place. -/
theorem answers_behind_peek (text : String) (history : List CursorRequest)
    {request : CursorRequest} (hpeek : request.IsPeek) :
    let l := (ofText text).after history
    let l' := l.after [request]
    ((∀ later, l'.answers later = l.answers later) ↔ ∀ e, l.answers [request] ≠ [.error e]) ∧
      (∀ e, l.answers [request] = [.error e] →
        (Lexer.ofText text).tokens.2 = some e ∧
          ∃ c : Cursor, c.fault = some e ∧ ∀ later,
            l.answers later = c.answers later ∧
              l'.answers later = c.withoutFault.answers later) ∧
      ∀ e, (Lexer.ofText text).tokens.2 = some e → .error e ∉ (ofText text).answers history →
        ∀ asked : CursorRequest, asked.AsksForToken →
          (∃ token, l.answers [asked] = [.ok (.token (some token))]) ∨
            l.answers [asked] = [.error e] := by
  intro l l'
  refine ⟨answers_behind_peek_iff hpeek l, fun e hreported => ?_, ?_⟩
  · rcases view_after_peek hpeek l with ⟨answer, hanswer, -⟩ | ⟨e', hfault, hanswer, hview⟩
    · cases hanswer.symm.trans hreported
    cases hanswer.symm.trans hreported
    refine ⟨?_, l.view, hfault, fun later => ⟨l.answers_view later, ?_⟩⟩
    · rcases fault_after text history with hsame | ⟨_, -, hgone, -⟩
      · exact hsame.symm.trans hfault
      · cases hfault.symm.trans hgone
    · rw [answers_view, hview]
  · intro e hfault hunreported asked hasks
    have hstill : l.view.fault = some e := by
      rcases fault_after text history with hsame | ⟨e', hfault', -, hreported⟩
      · exact hsame.trans hfault
      · cases hfault.symm.trans hfault'
        exact absurd hreported hunreported
    rw [answers_view]
    unfold Cursor.answers
    rcases Parse.run_of_fault hasks hstill with ⟨token, hanswer⟩ | hanswer <;> rw [hanswer]
    · exact .inl ⟨token, rfl⟩
    · exact .inr rfl

/-- A name, and behind it a character that begins no token. -/
theorem view_of_unknown_character :
    (ofText "a ?").view = ⟨[⟨.word, "a", 0⟩], some (.unexpectedCharacter '?' 2), ""⟩ := by
  have htokens : (Lexer.ofText "a ?").tokens =
      ([⟨.word, "a", 0⟩, ⟨.whitespace, " ", 1⟩], some (.unexpectedCharacter '?' 2)) := by
    decide +kernel
  rw [view_ofText, Cursor.ofText, htokens]
  rfl

/-- The name is looked at and the character is not. So the name is read next, and the character is
reported after it. -/
theorem answers_behind_peek_of_unknown_character :
    let l := (ofText "a ?").after []
    CursorRequest.peek.IsPeek ∧ (∀ e, l.answers [.peek] ≠ [.error e]) ∧
      (∀ later, (l.after [.peek]).answers later = l.answers later) ∧
      l.answers [.next, .next] = [.ok (.token (some ⟨.word, "a", 0⟩)),
        .error (.unexpectedCharacter '?' 2)] := by
  intro l
  have hpeek : CursorRequest.peek.IsPeek := trivial
  have hsilent : ∀ e, l.answers [.peek] ≠ [.error e] := by
    rw [answers_view, view_after, view_of_unknown_character]
    exact nofun
  refine ⟨hpeek, hsilent, (answers_behind_peek "a ?" [] hpeek).1.mpr hsilent, ?_⟩
  rw [answers_view, view_after, view_of_unknown_character]
  rfl

/-- One place further there is no token, and the character is reported there. When the name has been
read after that, the text seems to end. -/
theorem peekNth_uses_up_fault :
    let l := ofText "a ?"
    l.answers [.peekNth 1] = [.error (.unexpectedCharacter '?' 2)] ∧
      l.answers [.next, .next] = [.ok (.token (some ⟨.word, "a", 0⟩)),
        .error (.unexpectedCharacter '?' 2)] ∧
      (l.after [.peekNth 1]).answers [.next, .next] =
        [.ok (.token (some ⟨.word, "a", 0⟩)), .ok (.token none)] := by
  simp only [answers_view, view_after, view_of_unknown_character]
  exact ⟨rfl, rfl, rfl⟩

end Lookahead
end TransactSql
