/-
TransactSql.Proofs.Lexer.Quoting — quoting is injective and reversible.

A text can be quoted in brackets, in quotation marks, and in quotation
marks behind a letter (`Quotes`). The closing mark is written twice where
it belongs to the text, and that is all that `Quotes.write` does to it. So
any text can be put into a command: the lexer finds it there as it was,
whatever follows, as long as that does not begin with the closing mark
(`tokens_write`).

There is no other way to write such a token. What the lexer reads as a
quotation is a text with its closing marks doubled (`take_quotation`), so
the literal of a quoted text or of a name in brackets is what `write`
makes of it.
-/
import TransactSql.Proofs.Lexer.Separators
import TransactSql.Proofs.Lexer.Writing

namespace TransactSql

/-- A way to quote a text. -/
inductive Quotes where
  | brackets
  | marks
  /-- Quotation marks behind an `N`, or behind an `n`. -/
  | national (capital : Bool)

namespace Quotes

/-- The mark behind the quoted text. -/
def closing : Quotes → Char
  | brackets => ']'
  | marks | national _ => '\''

/-- What is before the quoted text: a first character, and what else there is. -/
def opening : Quotes → Char × List Char
  | brackets => ('[', [])
  | marks => ('\'', [])
  | national true => ('N', ['\''])
  | national false => ('n', ['\''])

/-- The kind of the token that a text in these quotes is. -/
def kind : Quotes → String → TokenKind
  | brackets, text => .bracketed text
  | marks, text => .quoted text false
  | national _, text => .quoted text true

/-- A text in quotes. -/
def write : Quotes → String → String
  | brackets, text => bracketed text
  | marks, text => quoted text
  | national true, text => "N" ++ quoted text
  | national false, text => "n" ++ quoted text

variable (q : Quotes)

theorem toList_write (text : String) :
    (q.write text).toList =
      q.opening.1 :: (q.opening.2 ++ (doubled q.closing text.toList ++ [q.closing])) := by
  rcases q with _ | _ | _ | _ <;> simp [write, opening, closing, bracketed, quoted]

/-- The first character tells the quotes apart. -/
theorem eq_of_opening {q q' : Quotes} (h : q.opening.1 = q'.opening.1) : q = q' := by
  rcases q with _ | _ | _ | _ <;> rcases q' with _ | _ | _ | _ <;>
    first | rfl | exact absurd h (by decide)

/-- The kind tells the text. -/
theorem eq_of_kind {q q' : Quotes} {a b : String} (h : q.kind a = q'.kind b) : a = b := by
  cases q <;> cases q' <;> cases h <;> rfl

end Quotes

namespace Lexer

open Quotes

variable {c mark : Char} {first rest text : List Char} {kind : TokenKind} {position : Nat}

/-! ## Quotations -/

theorem doubled_injective {a b : List Char} (h : doubled mark a = doubled mark b) : a = b := by
  have hread : quotation mark (doubled mark a ++ [mark]) =
      quotation mark (doubled mark b ++ [mark]) := by rw [h]
  rw [quotation_doubled, quotation_doubled] at hread
  exact congrArg Quotation.text hread

/-- A quotation ends at the first closing mark that is not written twice, whatever follows it. -/
theorem quotation_doubled_append (mark : Char) (text : List Char) (h : rest.head? ≠ some mark) :
    quotation mark (doubled mark text ++ [mark] ++ rest) =
      ⟨text, some (doubled mark text ++ [mark]).length⟩ := by
  have hwhole := quotation_doubled mark text
  rw [← List.append_nil (doubled mark text ++ [mark])] at hwhole
  rw [quotation_cut (congrArg Quotation.length? hwhole) (by simp) h, hwhole, List.append_nil]

/-- The characters that a quotation takes are its text with the closing marks doubled, and a closing
mark. -/
theorem take_quotation {length : Nat} (h : (quotation mark text).length? = some length) :
    text.take length = doubled mark (quotation mark text).text ++ [mark] := by
  fun_induction quotation mark text generalizing length with
  | case1 => cases h
  | case2 => cases h; rfl
  | case3 => cases h
  | case4 later ih =>
    obtain ⟨m, hm, rfl⟩ := Option.map_eq_some_iff.mp h
    simp [Quotation.cons, doubled, ih hm]
  | case5 => cases h; rfl
  | case6 c d later hc ih =>
    obtain ⟨m, hm, rfl⟩ := Option.map_eq_some_iff.mp h
    simp [Quotation.cons, doubled, ih hm, hc]

/-! ## Tokens in quotes -/

theorem scan_opening (q : Quotes) (position : Nat) (text : List Char) :
    scan position q.opening.1 (q.opening.2 ++ text) =
      scanQuotation q.closing (q.opening.2.length + 1) q.kind text := by
  rcases q with _ | _ | _ | _ <;> rfl

/-- A text in quotes is the first token, before everything that does not begin with the closing
mark. What follows is read as what it is. -/
theorem tokens_write (q : Quotes) (text : String) {rest : String}
    (h : rest.toList.head? ≠ some q.closing) :
    (ofText (q.write text ++ rest)).tokens.1 = ⟨q.kind text, q.write text, 0⟩ ::
      (⟨rest.toList, (q.write text).length, false⟩ : Lexer).tokens.1 := by
  have hscan :
      scan 0 q.opening.1
          (q.opening.2 ++ (doubled q.closing text.toList ++ [q.closing]) ++ rest.toList) =
        .ok (q.kind text,
          (q.opening.2 ++ (doubled q.closing text.toList ++ [q.closing])).length + 1) := by
    rw [List.append_assoc, scan_opening, List.length_append, Nat.add_right_comm]
    simp only [scanQuotation, quotation_doubled_append q.closing text.toList h,
      String.ofList_toList]
  have htokens := tokens_of_scan hscan
  rw [← List.cons_append, ← toList_write, String.ofList_toList, ← String.toList_append] at htokens
  have hlength : 0 + (q.opening.2 ++ (doubled q.closing text.toList ++ [q.closing])).length + 1 =
      (q.write text).length := by
    rw [← String.length_toList, toList_write, List.length_cons, Nat.zero_add]
  rw [hlength] at htokens
  exact congrArg Prod.fst htokens

/-- Only with an opening mark does a token begin that is a text in quotes. -/
theorem opening_of_scan {length : Nat} (h : scan position c rest = .ok (kind, length))
    (hkind : ∃ (q : Quotes) (s : String), kind = q.kind s) :
    ∃ (q : Quotes) (text : List Char), c = q.opening.1 ∧ rest = q.opening.2 ++ text := by
  obtain ⟨q, s, rfl⟩ := hkind
  rcases sort_cases c with hspace | rfl | rfl | hdigit | rfl | rfl | rfl | hplain
  · rw [scan_space _ _ hspace] at h
    cases q <;> cases h
  · rcases rest with _ | ⟨d, rest⟩
    · cases h
    by_cases hd : d = '-'
    · subst hd
      rw [scan_lineComment] at h
      cases q <;> cases h
    · rw [scan_minus _ _ hd] at h
      cases q <;> cases h
  · by_cases hopen : rest.head? = some '*'
    · obtain ⟨rest, rfl⟩ := List.head?_eq_some_iff.mp hopen
      rw [scan_blockComment] at h
      split at h <;> cases q <;> cases h
    · rw [scan_slash _ _ hopen] at h
      cases q <;> cases h
  · rw [scan_digit _ _ hdigit] at h
    dsimp only [scanNumber] at h
    split at h <;> cases q <;> cases h
  · change scanVariable position rest = _ at h
    dsimp only [scanVariable] at h
    repeat' split at h
    all_goals cases q <;> cases h
  · exact ⟨.brackets, rest, rfl, rfl⟩
  · exact ⟨.marks, rest, rfl, rfl⟩
  cases hname : isNameStart c with
  | true =>
    by_cases hnational : (c = 'N' ∨ c = 'n') ∧ rest.head? = some '\''
    · obtain ⟨hletter, hquote⟩ := hnational
      obtain ⟨rest, rfl⟩ := List.head?_eq_some_iff.mp hquote
      rcases hletter with rfl | rfl
      · exact ⟨.national true, rest, rfl, rfl⟩
      · exact ⟨.national false, rest, rfl, rfl⟩
    · rw [scan_word _ _ hplain hname hnational] at h
      dsimp only [scanWord] at h
      split at h <;> cases q <;> cases h
  | false =>
    rw [scan_mark _ _ hplain hname] at h
    repeat' split at h
    all_goals cases q <;> cases h

/-- A token that is a text in quotes is written in quotes, of the same kind. -/
theorem exists_write_of_mem {text s : String} {t : Token} {q : Quotes}
    (ht : t ∈ (ofText text).tokens.1) (hkind : t.kind = q.kind s) :
    ∃ q' : Quotes, q'.kind s = q.kind s ∧ t.literal = q'.write s := by
  obtain ⟨place, c, first, rest, hliteral, hscan⟩ := exists_scan_of_mem ht
  obtain ⟨q', text, rfl, htext⟩ := opening_of_scan hscan ⟨q, s, hkind⟩
  rw [htext, scan_opening] at hscan
  dsimp only [scanQuotation] at hscan
  split at hscan
  · rename_i length hlength
    obtain ⟨hsame, hlast⟩ := Prod.mk.inj (Except.ok.inj hscan)
    have hfirst : first.length = q'.opening.2.length + length := by omega
    rw [hkind] at hsame
    obtain rfl := eq_of_kind hsame
    have hwritten : first = q'.opening.2 ++ text.take length :=
      calc
        first = (first ++ rest).take first.length := List.take_left.symm
        _ = (q'.opening.2 ++ text).take (q'.opening.2.length + length) := by rw [htext, hfirst]
        _ = q'.opening.2 ++ text.take length := List.take_length_add_append _
    refine ⟨q', hsame, ?_⟩
    rw [← String.toList_inj, hliteral, toList_write, String.toList_ofList, hwritten,
      take_quotation hlength]
  · cases hscan

/-- Quoting is injective and reversible. Any text, quoted in any way, is the first token of a
command that begins with it and does not go on with the closing mark: a token of the kind that the
quotes say, with this text and with nothing but what was written. Conversely, a name in brackets or
a quoted text that is found in a command is written in brackets or in quotation marks, with the
closing marks doubled, and behind an `N` or an `n` if it is a national one. -/
theorem quoting_reversible :
    (∀ (q : Quotes) (text rest : String), rest.toList.head? ≠ some q.closing →
      (ofText (q.write text ++ rest)).tokens.1.head? = some ⟨q.kind text, q.write text, 0⟩) ∧
    (∀ (q q' : Quotes) (a b : String), q.write a = q'.write b → q = q' ∧ a = b) ∧
    (∀ (text : String), ∀ t ∈ (ofText text).tokens.1, ∀ s,
      (t.kind = .bracketed s → t.literal = brackets.write s) ∧
      (t.kind = .quoted s false → t.literal = marks.write s) ∧
      (t.kind = .quoted s true → ∃ capital, t.literal = (national capital).write s)) := by
  refine ⟨fun q text rest h => ?_, fun q q' a b h => ?_, fun text t ht s => ⟨?_, ?_, ?_⟩⟩
  · rw [tokens_write q text h, List.head?_cons]
  · rw [← String.toList_inj, toList_write, toList_write] at h
    obtain ⟨hopening, hbehind⟩ := List.cons.inj h
    obtain rfl := eq_of_opening hopening
    have hdoubled := List.append_cancel_right (List.append_cancel_left hbehind)
    exact ⟨rfl, String.toList_inj.mp (doubled_injective hdoubled)⟩
  · intro hkind
    obtain ⟨q, hsame, hliteral⟩ := exists_write_of_mem (q := brackets) ht hkind
    cases q <;> cases hsame
    exact hliteral
  · intro hkind
    obtain ⟨q, hsame, hliteral⟩ := exists_write_of_mem (q := marks) ht hkind
    cases q <;> cases hsame
    exact hliteral
  · intro hkind
    obtain ⟨q, hsame, hliteral⟩ := exists_write_of_mem (q := national true) ht hkind
    cases q <;> cases hsame
    exact ⟨_, hliteral⟩

/-- A text with quotation marks at both ends and a bracket, behind an `n`, with a bracket behind it,
and a name of nothing but the closing mark. -/
theorem quoting_reversible_of_outer_marks :
    (national false).write "'it''s]'" = "n'''it''''s]'''" ∧
      "]".toList.head? ≠ some (national false).closing ∧
      (ofText ((national false).write "'it''s]'" ++ "]")).tokens.1.head? =
        some ⟨.quoted "'it''s]'" true, "n'''it''''s]'''", 0⟩ ∧
      ∃ t ∈ (ofText (brackets.write "]" ++ "'")).tokens.1,
        t.kind = .bracketed "]" ∧ t.literal = "[]]]" := by
  have hmark : "]".toList.head? ≠ some (national false).closing := by decide
  have hname : (ofText (brackets.write "]" ++ "'")).tokens.1.head? =
      some ⟨.bracketed "]", brackets.write "]", 0⟩ :=
    quoting_reversible.1 brackets "]" "'" (by decide)
  have hmem := List.mem_of_mem_head? hname
  exact ⟨rfl, hmark, quoting_reversible.1 (national false) _ _ hmark, _, hmem, rfl,
    (quoting_reversible.2.2 _ _ hmem _).1 rfl⟩

end Lexer
end TransactSql
