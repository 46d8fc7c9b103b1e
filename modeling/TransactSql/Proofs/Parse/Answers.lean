/-
TransactSql.Proofs.Parse.Answers — what is known of the answer of a reader.

`p.Yields P` says that every answer of `p` has the property `P`, from
whatever cursor it is read. There is one lemma for each way to build a
reader; the proof about a reader follows its definition and names the
property of every intermediate answer that matters later.

The lemmas on `run` at the start are the only place where the monad of
readers is opened.
-/
import TransactSql.Parse

namespace TransactSql.Parse

variable {α β γ : Type}

/-! ## Running composed readers -/

theorem ext {p q : Parse α} (h : ∀ c, p.run c = q.run c) : p = q := by
  cases p
  cases q
  congr
  exact funext h

theorem run_bind_ok {p : Parse α} {f : α → Parse β} {c c' : Cursor} {b : β} :
    (p >>= f).run c = (.ok b, c') ↔
      ∃ a c₁, p.run c = (.ok a, c₁) ∧ (f a).run c₁ = (.ok b, c') := by
  rw [run_bind]
  constructor
  · intro h
    split at h
    · exact ⟨_, _, ‹_›, h⟩
    · cases h
  · rintro ⟨a, c₁, hp, hf⟩
    rw [hp]
    exact hf

theorem run_ofExcept_ok {x : Except Error α} {c c' : Cursor} {a : α} :
    (ofExcept x).run c = (.ok a, c') ↔ x = .ok a ∧ c' = c := by
  constructor
  · intro h
    cases x <;> cases h
    exact ⟨rfl, rfl⟩
  · rintro ⟨rfl, rfl⟩
    rfl

theorem bind_assoc (p : Parse α) (f : α → Parse β) (g : β → Parse γ) :
    p >>= f >>= g = p >>= fun a => f a >>= g := by
  refine ext fun c => ?_
  simp only [run_bind]
  rcases p.run c with ⟨_ | a, c₁⟩ <;> rfl

theorem pure_bind (a : α) (f : α → Parse β) : pure a >>= f = f a := rfl

/-! ## Properties of answers -/

/-- Every answer of the reader has a property. -/
def Yields (p : Parse α) (P : α → Prop) : Prop :=
  ∀ c a c', p.run c = (.ok a, c') → P a

theorem yields_any (p : Parse α) : p.Yields fun _ => True :=
  fun _ _ _ _ => trivial

theorem yields_pure {a : α} {P : α → Prop} (h : P a) : (pure a : Parse α).Yields P := by
  intro c b c' hrun
  cases hrun
  exact h

theorem yields_fail (e : Error) (P : α → Prop) : (fail e : Parse α).Yields P := by
  intro c a c' hrun
  cases hrun

/-- What the first reader yields may be used for the second. -/
theorem Yields.bind {p : Parse α} {f : α → Parse β} {P : α → Prop} {Q : β → Prop}
    (hp : p.Yields P) (hf : ∀ a, P a → (f a).Yields Q) : (p >>= f).Yields Q := by
  intro c b c' hrun
  obtain ⟨a, c₁, hfirst, hsecond⟩ := run_bind_ok.mp hrun
  exact hf a (hp c a c₁ hfirst) c₁ b c' hsecond

/-- Nothing needs to be known of the answer of the first reader. -/
theorem yields_bind (p : Parse α) {f : α → Parse β} {Q : β → Prop} (hf : ∀ a, (f a).Yields Q) :
    (p >>= f).Yields Q :=
  p.yields_any.bind fun a _ => hf a

theorem yields_ite {P : α → Prop} {b : Bool} {p q : Parse α} (hp : p.Yields P) (hq : q.Yields P) :
    (if b then p else q).Yields P := by
  cases b
  · exact hq
  · exact hp

theorem yields_ofExcept {x : Except Error α} {P : α → Prop} (h : ∀ a, x = .ok a → P a) :
    (ofExcept x).Yields P := by
  cases x with
  | error e => exact yields_fail e P
  | ok a => exact yields_pure (h a rfl)

end TransactSql.Parse
