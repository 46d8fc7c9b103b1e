/-
TransactSql.Proofs.Lexer.Tiling — the tokens of a text are the text.

Every token is a piece of the text, `Token.IsPieceOf`: it is not empty,
it stands within the text, and its literal is what stands there. The
tokens tile the text (`Tiles`): the first begins where the text does, and
each further one where the one before it ends. So their literals, one
behind the other, are the text up to the place where lexing ends, which
is the end of the text or the start of something that is no token.

A lexer is asked for one token after the other. `next_after` says what it
yields however often it is asked: the tokens, then the failure if there
is one, and then nothing any more. Between two calls it stands within the
text (`StandsIn`), because a token has a character at least (`scan_pos`)
and no more characters than are left (`scan_le`).
-/
import TransactSql.Proofs.Lexer.Kinds

namespace TransactSql

/-- The token is a piece of the text, at the place that it names. -/
structure Token.IsPieceOf (t : Token) (text : List Char) : Prop where
  nonempty : t.literal ≠ ""
  inside : t.stop ≤ text.length
  slice : t.literal.toList = (text.drop t.position).take t.literal.length

namespace Lexer

variable {text : List Char} {place stop : Nat} {ts : List Token}

/-! ## Tiles -/

/-- The tokens are pieces of the text, from a place on, each beginning where the one before it
ends, and the last one ends at another place. -/
inductive Tiles (text : List Char) : Nat → List Token → Nat → Prop
  | nil (place : Nat) : Tiles text place [] place
  | cons {t : Token} {later : List Token} {stop : Nat} (hpiece : t.IsPieceOf text)
      (hlater : Tiles text t.stop later stop) : Tiles text t.position (t :: later) stop

/-- There are not more tiles than characters. -/
theorem Tiles.length_le (h : Tiles text place ts stop) : place + ts.length ≤ stop := by
  induction h with
  | nil place => exact Nat.le_refl place
  | @cons t later stop hpiece _ ih =>
    have hpos : t.literal.length ≠ 0 := by
      simpa [← String.length_toList] using hpiece.nonempty
    rw [Token.stop] at ih
    rw [List.length_cons]
    omega

/-- The literals of the tiles are what stands in the text between the two places. -/
theorem Tiles.flatMap_literal (h : Tiles text place ts stop) :
    ts.flatMap (·.literal.toList) = (text.drop place).take (stop - place) := by
  induction h with
  | nil place => rw [Nat.sub_self, List.take_zero, List.flatMap_nil]
  | @cons t later stop hpiece hlater ih =>
    have hle := hlater.length_le
    have hlength : stop - t.position = t.literal.length + (stop - t.stop) := by
      rw [Token.stop] at hle ⊢
      omega
    rw [List.flatMap_cons, ih, hpiece.slice, hlength, List.take_add, List.drop_drop]
    rfl

/-! ## The tokens of a text -/

/-- What is at a place when no more tokens are read: the end of the text, or the start of
something that is no token and makes the lexer fail. -/
def EndsAt (text : List Char) (place : Nat) : Option Error → Prop
  | none => place = text.length
  | some e => ∃ c rest, text.drop place = c :: rest ∧ scan place c rest = .error e

/-- A token that is read behind some characters is a piece of the text. -/
theorem isPieceOf_token (before : List Char) (kind : TokenKind) (c : Char)
    (first rest : List Char) :
    Token.IsPieceOf ⟨kind, String.ofList (c :: first), before.length⟩
      (before ++ c :: (first ++ rest)) where
  nonempty h := by
    have hnil := congrArg String.toList h
    rw [String.toList_ofList] at hnil
    cases hnil
  inside := by
    simp only [Token.stop, String.length_ofList, List.length_append, List.length_cons]
    omega
  slice := by
    rw [String.toList_ofList, String.length_ofList, List.drop_left, ← List.cons_append,
      List.take_left]

/-- What is read behind some characters tiles the text from there on, up to where lexing ends, and
every token fits its characters. -/
theorem tiles_tokens (before rest : List Char) :
    ∃ stop ≤ (before ++ rest).length,
      Tiles (before ++ rest) before.length
        (⟨rest, before.length, false⟩ : Lexer).tokens.1 stop ∧
      EndsAt (before ++ rest) stop (⟨rest, before.length, false⟩ : Lexer).tokens.2 ∧
      ∀ t ∈ (⟨rest, before.length, false⟩ : Lexer).tokens.1, t.Fits := by
  induction hn : rest.length using Nat.strongRecOn generalizing before rest with
  | ind length ih =>
    rcases text_cases before.length rest with rfl | ⟨c, rest, e, rfl, hscan⟩ |
      ⟨c, first, rest, kind, rfl, hscan⟩
    · rw [tokens_nil, List.append_nil]
      exact ⟨before.length, Nat.le_refl _, .nil _, rfl, List.forall_mem_nil _⟩
    · rw [tokens_of_error hscan]
      refine ⟨before.length, ?_, .nil _, ⟨c, rest, List.drop_left, hscan⟩, List.forall_mem_nil _⟩
      rw [List.length_append]
      exact Nat.le_add_right _ _
    · have hless := hn ▸ length_lt_of_token c first rest
      have hwhole : before ++ c :: first ++ rest = before ++ c :: (first ++ rest) := by
        rw [List.append_assoc, List.cons_append]
      have hplace : (before ++ c :: first).length = before.length + first.length + 1 := by
        rw [List.length_append, List.length_cons, Nat.add_assoc]
      obtain ⟨stop, hinside, htiles, hends, hfits⟩ := ih rest.length hless (before ++ c :: first)
        rest rfl
      rw [hwhole, hplace] at htiles
      rw [hwhole] at hinside hends
      rw [hplace] at hends hfits
      rw [tokens_of_scan hscan]
      refine ⟨stop, hinside, ?_, hends, List.forall_mem_cons.mpr ⟨fits_of_split hscan, hfits⟩⟩
      refine .cons (t := ⟨kind, String.ofList (c :: first), before.length⟩)
        (isPieceOf_token before kind c first rest) ?_
      rw [Token.stop, String.length_ofList, List.length_cons, ← Nat.add_assoc]
      exact htiles

/-! ## Asking again and again -/

/-- The lexer after it has been asked so many times for what is next. -/
def after (l : Lexer) : (calls : Nat) → Lexer
  | 0 => l
  | calls + 1 => l.next.2.after calls

/-- Everything that the lexer yields: its tokens, and the failure behind them. -/
def yielded (l : Lexer) : List (Except Error Token) :=
  l.tokens.1.map .ok ++ l.tokens.2.toList.map .error

theorem next_of_failed {l : Lexer} (h : l.failed = true) : l.next = (none, l) := by
  rw [next, if_pos h]

/-- What a lexer yields next comes first, and what it yields after that comes behind. A lexer that
yields nothing stays as it is, and one that has failed yields nothing more. -/
theorem next_cases (l : Lexer) :
    (l.next = (none, l) ∧ l.yielded = []) ∨
      ∃ item l', l.next = (some item, l') ∧ l.yielded = item :: l'.yielded := by
  rcases hnext : l.next with ⟨_ | item, l'⟩
  · left
    have hsame : l' = l := by
      unfold next at hnext
      grind
    have htokens : l.tokens = ([], none) := by
      rw [tokens]
      split <;> rename_i heq <;> rw [hnext] at heq <;> cases heq
    rw [hsame, yielded, htokens]
    exact ⟨rfl, rfl⟩
  · right
    refine ⟨item, l', rfl, ?_⟩
    cases item with
    | error e =>
      have hfailed : l'.failed = true := by
        unfold next at hnext
        grind
      have htokens : l.tokens = ([], some e) := by
        rw [tokens]
        split <;> rename_i heq <;> rw [hnext] at heq <;> cases heq
        rfl
      have hlater : l'.tokens = ([], none) := by
        rw [tokens]
        split <;> rename_i heq <;> rw [next_of_failed hfailed] at heq <;> cases heq
      rw [yielded, yielded, htokens, hlater]
      rfl
    | ok t =>
      have htokens : l.tokens = (t :: l'.tokens.1, l'.tokens.2) := by
        rw [tokens]
        split <;> rename_i heq <;> rw [hnext] at heq <;> cases heq
        rfl
      rw [yielded, yielded, htokens]
      rfl

/-- However often a lexer is asked, it yields the next of its tokens, then its failure, and after
that nothing. -/
theorem next_after (l : Lexer) (calls : Nat) : (l.after calls).next.1 = l.yielded[calls]? := by
  induction calls generalizing l with
  | zero =>
    rcases next_cases l with ⟨hnext, hyielded⟩ | ⟨item, l', hnext, hyielded⟩ <;>
      simp [after, hnext, hyielded]
  | succ calls ih =>
    rw [after, ih]
    rcases next_cases l with ⟨hnext, hyielded⟩ | ⟨item, l', hnext, hyielded⟩ <;>
      simp [hnext, hyielded]

/-! ## Where the lexer stands -/

/-- The lexer stands at a place in the text, and has only failed if no token begins there. -/
structure StandsIn (text : List Char) (l : Lexer) : Prop where
  inside : l.position ≤ text.length
  rest_eq : l.rest = text.drop l.position
  scan_error : l.failed = true → ∃ c rest e, l.rest = c :: rest ∧ scan l.position c rest = .error e

/-- What is cut out where the lexer stands is a slice of the text, and it is not empty. -/
theorem StandsIn.slice {l : Lexer} {c : Char} {rest : List Char} {kind : TokenKind} {length : Nat}
    (h : StandsIn text l) (hrest : l.rest = c :: rest)
    (hscan : scan l.position c rest = .ok (kind, length)) :
    0 < length ∧ l.position + length ≤ text.length := by
  have hle := scan_le hscan
  rw [← hrest, h.rest_eq, List.length_drop] at hle
  have hinside := h.inside
  exact ⟨scan_pos hscan, by omega⟩

theorem StandsIn.next {l : Lexer} (h : StandsIn text l) : StandsIn text l.next.2 := by
  unfold Lexer.next
  split
  · exact h
  split
  · exact h
  next c rest hrest =>
    split
    · next e hscan => exact ⟨h.inside, h.rest_eq, fun _ => ⟨c, rest, e, hrest, hscan⟩⟩
    · next kind length hscan =>
      refine ⟨(h.slice hrest hscan).2, ?_, Bool.noConfusion⟩
      dsimp only
      rw [h.rest_eq, List.drop_drop]

theorem StandsIn.after {l : Lexer} (h : StandsIn text l) (calls : Nat) :
    StandsIn text (l.after calls) := by
  induction calls generalizing l with
  | zero => exact h
  | succ calls ih => exact ih h.next

theorem standsIn_after (text : String) (calls : Nat) :
    StandsIn text.toList ((ofText text).after calls) :=
  StandsIn.after ⟨Nat.zero_le _, rfl, Bool.noConfusion⟩ calls

/-! ## Nothing is lost -/

/-- Lexing loses nothing. The tokens tile the text from its start up to where lexing ends, so that
their literals together are the text up to there; that is the end of the text, or else the start
of what makes the lexer fail. There are not more tokens than characters, and what a token decodes is
written in it.

Asking again and again yields the tokens, then the failure, and then nothing. Whenever the lexer is
asked it stands within the text, before the characters that are there, and what it moves over to
read a token is not empty and does not reach beyond the end of the text. -/
theorem tokens_lossless (text : String) :
    ∃ stop ≤ text.length,
      Tiles text.toList 0 (ofText text).tokens.1 stop ∧
      String.join ((ofText text).tokens.1.map (·.literal)) = String.ofList (text.toList.take stop) ∧
      EndsAt text.toList stop (ofText text).tokens.2 ∧
      (ofText text).tokens.1.length ≤ text.length ∧
      (∀ t ∈ (ofText text).tokens.1, t.Fits) ∧
      ∀ calls, let l := (ofText text).after calls
        l.next.1 = (ofText text).yielded[calls]? ∧
        l.position ≤ text.length ∧ l.rest = text.toList.drop l.position ∧
        ∀ c rest kind length, l.rest = c :: rest → scan l.position c rest = .ok (kind, length) →
          0 < length ∧ l.position + length ≤ text.length := by
  obtain ⟨stop, hinside, htiles, hends, hfits⟩ := tiles_tokens [] text.toList
  have hliterals : (ofText text).tokens.1.flatMap (·.literal.toList) = text.toList.take stop :=
    htiles.flatMap_literal
  have hcount : 0 + (ofText text).tokens.1.length ≤ stop := htiles.length_le
  rw [List.nil_append, String.length_toList] at hinside
  refine ⟨stop, hinside, htiles, ?_, hends, ?_, hfits, fun calls => ?_⟩
  · rw [← String.toList_inj, String.toList_join, List.flatMap_map, hliterals, String.toList_ofList]
  · omega
  · have hstands := standsIn_after text calls
    rw [← String.length_toList]
    exact ⟨next_after _ calls, hstands.inside, hstands.rest_eq,
      fun _ _ _ _ hrest hscan => hstands.slice hrest hscan⟩

end Lexer
end TransactSql
