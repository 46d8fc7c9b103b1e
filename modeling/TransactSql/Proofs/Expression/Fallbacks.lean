/-
TransactSql.Proofs.Expression.Fallbacks — fallbacks that nothing takes.

Three functions on scalars say what to do with a scalar that is not one
of its type: two scalars of different kinds are ordered by their kinds, a
number that is held as a text has the size of its digits, and an operator
that two scalars do not have is refused. `Fallbacks` leaves open what is
answered there. The functions on scalars, values and expressions that end
in `With` take it as an argument; the functions themselves are those with
`Fallbacks.standard`.

For well-formed operands the answers make no difference, whatever they
are, so none of them is ever asked for. The reason is the same in all
cases: a conversion makes a scalar of its target (`Scalar.fits_convert`),
and scalars of one type are of one kind. An operator that is not in the
list of its type has been refused before (`supports_iff`).
-/
import TransactSql.Proofs.Expression.Leaves

namespace TransactSql

namespace Scalar

/-- Two scalars of one type. -/
inductive Alike : DataType → Scalar → Scalar → Prop
  | int (left right : Int32) : Alike .int (int left) (int right)
  | bigint (left right : Int64) : Alike .bigint (bigint left) (bigint right)
  | float (left right : Binary64) : Alike .float (float left) (float right)
  | varchar (left right : String) : Alike .varchar (text left) (text right)
  | nvarchar (left right : String) : Alike .nvarchar (text left) (text right)

variable {f : Fallbacks} {type : DataType} {op : ArithmeticOperator} {s left right : Scalar}

theorem alike_of_fits (hleft : left.fits type = true) (hright : right.fits type = true) :
    Alike type left right := by
  cases type <;> cases left <;> cases hleft <;> cases right <;> cases hright <;> constructor

theorem Alike.compareWith_eq (h : Alike type left right) :
    compareWith f left right = compare left right := by
  cases h <;> rfl

theorem byteLengthWith_eq (h : s.fits type = true) :
    byteLengthWith f type s = byteLength type s := by
  cases type <;> cases s <;> first | rfl | cases h

theorem Alike.applyWith_eq (h : Alike type left right) (hop : type.supports op = true) :
    applyWith f type op left right = apply type op left right := by
  cases h with
  | int | bigint => rfl
  | float | varchar | nvarchar => cases op <;> first | rfl | cases hop

theorem orOverflow_ne_incompatible {r : Option Scalar} {source target : DataType} :
    orOverflow type r ≠ .error (.incompatibleOperands source target op) := by
  cases r <;> nofun

theorem divided_ne_incompatible {p : Prop} [Decidable p] {r : Option Scalar}
    {source target : DataType} :
    (if p then .error .divideByZero else orOverflow type r) ≠
      .error (.incompatibleOperands source target op) := by
  split
  · nofun
  · exact orOverflow_ne_incompatible

/-- A type supports the operators that can be applied to its scalars, and no others. -/
theorem Alike.supports_iff (h : Alike type left right) (op : ArithmeticOperator) :
    type.supports op = false ↔
      apply type op left right = .error (.incompatibleOperands type type op) := by
  cases h with
  | int | bigint => exact ⟨nofun, fun h => absurd h divided_ne_incompatible⟩
  | float l r =>
    cases op with
    | add | subtract | multiply => exact ⟨nofun, fun h => absurd h orOverflow_ne_incompatible⟩
    | divide => exact ⟨nofun, fun h => absurd h divided_ne_incompatible⟩
    | modulo | bitAnd | bitOr | bitXor => exact ⟨fun _ => rfl, fun _ => rfl⟩
  | varchar | nvarchar =>
    cases op with
    | add => exact ⟨nofun, nofun⟩
    | _ => exact ⟨fun _ => rfl, fun _ => rfl⟩

end Scalar

/-! ## Values -/

namespace Value

variable {f : Fallbacks} {op : ArithmeticOperator} {v left right : Value}

theorem applyWith_eq : applyWith f op left right = apply op left right := by
  unfold apply applyWith
  cases DataType.common? left.type right.type with
  | none => rfl
  | some common =>
    cases left.scalar with
    | none => rfl
    | some s =>
      cases right.scalar with
      | none => rfl
      | some t =>
        dsimp only
        split
        · rename_i hop
          cases hl : Scalar.convert common left.type s with
          | error e => rfl
          | ok l =>
            cases hr : Scalar.convert common right.type t with
            | error e => rfl
            | ok r =>
              have halike := Scalar.alike_of_fits (Scalar.fits_convert hl) (Scalar.fits_convert hr)
              simp only [bind, Except.bind, halike.applyWith_eq (f := f) hop]
              rfl
        · rfl

theorem compareWith_eq : compareWith f left right = compare left right := by
  unfold compare compareWith
  cases left.scalar with
  | none => rfl
  | some s =>
    cases right.scalar with
    | none => rfl
    | some t =>
      dsimp only
      cases hl : Scalar.convert (DataType.comparison left.type right.type) left.type s with
      | error e => rfl
      | ok l =>
        cases hr : Scalar.convert (DataType.comparison left.type right.type) right.type t with
        | error e => rfl
        | ok r =>
          have halike := Scalar.alike_of_fits (Scalar.fits_convert hl) (Scalar.fits_convert hr)
          simp only [bind, Except.bind, halike.compareWith_eq (f := f)]
          rfl

theorem byteLengthWith?_eq (h : v.isWellFormed = true) :
    v.byteLengthWith? f = v.byteLength? := by
  unfold byteLength? byteLengthWith?
  cases hs : v.scalar with
  | none => rfl
  | some s =>
    rw [isWellFormed_of_some hs] at h
    exact congrArg some (Scalar.byteLengthWith_eq h)

end Value

theorem BuiltIn.applyWith_eq {f : Fallbacks} {v : Value} (h : v.isWellFormed = true)
    (function : BuiltIn) : function.applyWith f v = function.apply v := by
  cases function with
  | abs => rfl
  | datalength =>
    rw [apply, applyWith, applyWith, Value.dataLengthWith, Value.byteLengthWith?_eq h]
    rfl

/-! ## Expressions -/

namespace Expression

variable {f : Fallbacks} {row : Lookup} {e : Expression}

theorem evalWith_eq (h : e.Literals fun v => v.isWellFormed = true)
    (hrow : ∀ name v, row name = .ok v → v.isWellFormed = true) :
    e.evalWith f row = e.eval row := by
  induction e with
  | value | reference => rfl
  | named _ _ ih => exact ih (literals_named.mp h)
  | parenthesized _ ih => exact ih (literals_parenthesized.mp h)
  | negative _ ih => rw [evalWith, eval_negative, ih (literals_negative.mp h)]
  | binary op left right ihleft ihright =>
    obtain ⟨hleft, hright⟩ := literals_binary.mp h
    simp only [evalWith, eval_binary, ihleft hleft, ihright hright, Value.applyWith_eq]
  | call function argument ih =>
    have hliterals := literals_call.mp h
    rw [evalWith, eval_call, ih hliterals]
    cases hargument : argument.eval row with
    | error e => rfl
    | ok v =>
      have hv := isWellFormed_eval hliterals hrow hargument
      exact BuiltIn.applyWith_eq hv function

end Expression

/-- What is answered is well formed, if anything is. -/
def AnswersWellFormed (result : Except Error Value) : Prop :=
  ∀ v, result = .ok v → v.isWellFormed = true

/-- Values stay well formed, and no fallback is ever asked for. Of well-formed values, all that is
answered is well formed: by a conversion, an operator, a sign, a function, or an expression with
them as its literals and cells. And whatever the fallbacks answer, nothing comes out differently.
In particular, the operators that a type does not support are those that scalars of it do not
have. -/
theorem well_formed_without_fallbacks (f : Fallbacks) :
    ((∀ l r, Scalar.compareWith .standard l r = Scalar.compare l r) ∧
      (∀ type s, Scalar.byteLengthWith .standard type s = Scalar.byteLength type s) ∧
      (∀ type op l r, Scalar.applyWith .standard type op l r = Scalar.apply type op l r) ∧
      ∀ (e : Expression) (row : Lookup), e.evalWith .standard row = e.eval row) ∧
    (∀ a b : Value, a.isWellFormed = true → b.isWellFormed = true →
      (∀ target, AnswersWellFormed (a.convert target)) ∧
      (∀ op, AnswersWellFormed (a.apply op b)) ∧ AnswersWellFormed a.negate ∧
      (∀ function : BuiltIn, AnswersWellFormed (function.apply a)) ∧
      (∀ op, a.applyWith f op b = a.apply op b) ∧ a.compareWith f b = a.compare b ∧
      a.byteLengthWith? f = a.byteLength? ∧
      ∀ function : BuiltIn, function.applyWith f a = function.apply a) ∧
    (∀ (e : Expression) (row : Lookup), e.Literals (fun v => v.isWellFormed = true) →
      (∀ name v, row name = .ok v → v.isWellFormed = true) →
        AnswersWellFormed (e.eval row) ∧ e.evalWith f row = e.eval row) ∧
    ∀ (type : DataType) (op : ArithmeticOperator) (l r : Scalar), l.fits type = true →
      r.fits type = true → (type.supports op = false ↔
        Scalar.apply type op l r = .error (.incompatibleOperands type type op)) := by
  refine ⟨⟨fun _ _ => rfl, fun _ _ => rfl, fun _ _ _ _ => rfl, fun _ _ => rfl⟩,
    fun a b ha hb => ?_, fun e row he hrow => ?_,
    fun type op l r hl hr => (Scalar.alike_of_fits hl hr).supports_iff op⟩
  · exact ⟨fun target v hv => (Value.isWellFormed_convert hv ha).2,
      fun op v hv => Value.isWellFormed_apply hv, fun v hv => Value.isWellFormed_negate hv ha,
      fun function v hv => Value.isWellFormed_function hv, fun op => Value.applyWith_eq,
      Value.compareWith_eq, Value.byteLengthWith?_eq ha, BuiltIn.applyWith_eq ha⟩
  · exact ⟨fun v hv => Expression.isWellFormed_eval he hrow hv, Expression.evalWith_eq he hrow⟩

/-- The fallbacks would answer otherwise: a text has four bytes, it is converted before it is
compared with a number, and floating point numbers have no remainder. -/
theorem well_formed_without_fallbacks_of_texts :
    let f : Fallbacks := ⟨fun _ _ => .eq, fun _ => 0, fun _ _ _ _ => .ok (.int 0)⟩
    let row : Lookup := fun _ => .ok (.nvarchar "b")
    let e := Expression.call .datalength
      (.binary .add (.value (.varchar "a")) (.reference ["n"]))
    let x := Value.float (Binary64.ofInt 3)
    (Value.nvarchar "10").isWellFormed = true ∧ (Value.int 9).isWellFormed = true ∧
      e.Literals (fun v => v.isWellFormed = true) ∧
      (∀ name v, row name = .ok v → v.isWellFormed = true) ∧
      (Value.nvarchar "10").compareWith f (.int 9) = .ok (some .gt) ∧
      x.applyWith f .modulo x = .error (.incompatibleOperands .float .float .modulo) ∧
      e.evalWith f row = .ok (.int 4) := by
  intro f row e x
  have hliterals : e.Literals fun v => v.isWellFormed = true := by
    simp only [e, Expression.literals_call, Expression.literals_binary, Expression.literals_value,
      Expression.literals_reference, and_true]
    rfl
  have hrow : ∀ name v, row name = .ok v → v.isWellFormed = true := by
    intro name v hv
    cases hv
    rfl
  obtain ⟨-, hvalues, hexpressions, -⟩ := well_formed_without_fallbacks f
  obtain ⟨-, -, -, -, -, hcompare, -⟩ := hvalues (.nvarchar "10") (.int 9) rfl rfl
  obtain ⟨-, -, -, -, happly, -⟩ := hvalues x x rfl rfl
  refine ⟨rfl, rfl, hliterals, hrow, hcompare.trans ?_, (happly .modulo).trans rfl,
    (hexpressions e row hliterals hrow).2.trans ?_⟩
  · decide +kernel
  · decide +kernel

end TransactSql
