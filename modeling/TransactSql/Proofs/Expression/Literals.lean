/-
TransactSql.Proofs.Expression.Literals — tokens that stand for values.

A literal is a number, a quoted text or the word `NULL`. As an operand it
is read as an expression with its value. A parameter stands for a value
as well, but for one that the scope knows.
-/
import TransactSql.Proofs.Parse.Requests

namespace TransactSql

open Parse

/-- The value that the token stands for, if it is a literal. -/
def Token.literalValue? (t : Token) : Option Value :=
  match t.kind with
  | .number number => some number.toValue
  | .quoted text unicode => some (if unicode then .nvarchar text else .varchar text)
  | .keyword .NULL => some (.null .int)
  | _ => none

/-- The token stands for a value: it is a literal or a parameter. -/
def TokenKind.isValue : TokenKind → Bool
  | .number _ | .quoted _ _ | .keyword .NULL | .parameter _ => true
  | _ => false

theorem Token.isValue_of_literalValue? {u : Token} {v : Value} (h : u.literalValue? = some v) :
    u.kind.isValue = true := by
  unfold Token.literalValue? at h
  split at h
  · rename_i hkind
    rw [hkind]
    rfl
  · rename_i hkind
    rw [hkind]
    rfl
  · rename_i hkind
    rw [hkind]
    rfl
  · cases h

theorem Token.isValue_cases {t : Token} (h : t.kind.isValue = true) :
    (∃ number, t.kind = .number number) ∨ (∃ text unicode, t.kind = .quoted text unicode) ∨
      t.kind = .keyword .NULL ∨ ∃ name, t.kind = .parameter name := by
  unfold TokenKind.isValue at h
  split at h
  · exact .inl ⟨_, ‹_›⟩
  · exact .inr (.inl ⟨_, _, ‹_›⟩)
  · exact .inr (.inr (.inl ‹_›))
  · exact .inr (.inr (.inr ⟨_, ‹_›⟩))
  · cases h

namespace Expression

/-- A literal is read as an operand that has its value. -/
theorem run_readOperand_of_literalValue? (scope : Scope) (below : Readers) {u : Token} {v : Value}
    (h : u.literalValue? = some v) (rest : List Token) (fault : Option Error) (last : String) :
    (readOperand scope below).run ⟨u :: rest, fault, last⟩ =
      (.ok (.value v), ⟨rest, fault, u.literal⟩) := by
  unfold readOperand
  rw [run_expectNext_bind]
  unfold Token.literalValue? at h
  split at h
  · rename_i hkind
    rw [hkind, ← Option.some.inj h]
    rfl
  · rename_i hkind
    rw [hkind, ← Option.some.inj h]
    rfl
  · rename_i hkind
    rw [hkind, ← Option.some.inj h]
    rfl
  · cases h

end Expression
end TransactSql
