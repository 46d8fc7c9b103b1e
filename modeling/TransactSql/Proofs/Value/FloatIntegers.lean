/-
TransactSql.Proofs.Value.FloatIntegers — integers are made of floats.

A float becomes an integer by losing its fraction, and only if the type
has room for what is left. Everything else overflows: what is too large in
either direction, and the infinities. The words that denote no number are
apart, and all statements here exclude them.

A parameter that holds a float may be declared as an integer, and so may
the column that it is put into. On its way into a table a float is then
converted once or twice, but it loses no more than its fraction: the
second conversion finds an integer (`convert_of_parameter`).
-/
import TransactSql.Client.Parameter
import TransactSql.Proofs.Binary64.Denotation
import TransactSql.Proofs.Store.Inserting
import TransactSql.Proofs.Value.IntegerTexts

namespace TransactSql

namespace Scalar

variable {x : Binary64} {q : ℚ}

theorem wholePart?_of_number? (hx : x.number? = some q) : wholePart? x = some (truncation q) := by
  have hfinite := (Binary64.number?_eq_some_iff.mp hx).1
  have hnan : ¬x.isNaN = true := fun h =>
    Binary64.isFinite_iff.mp hfinite (Binary64.isNaN_iff.mp h).1
  rw [wholePart?, if_neg hnan, Binary64.finite?, if_pos hfinite, Option.map_some,
    Binary64.truncate_eq_of_number? hx]

theorem wholePart?_of_not_number? (hnan : x.isNaN = false) (hx : x.number? = none) :
    wholePart? x = none := by
  have hfinite : ¬x.isFinite = true := by simp [Binary64.isFinite_iff_number?, hx]
  rw [wholePart?, if_neg (by rw [hnan]; exact Bool.false_ne_true), Binary64.finite?, if_neg hfinite,
    Option.map_none]

end Scalar

namespace Value

variable {x : Binary64} {q : ℚ} {v cell : Value} {target : DataType} {i : Int}

/-! ## One conversion -/

theorem convert_float (htarget : target = .int ∨ target = .bigint) (x : Binary64) :
    (float x).convert target =
      match Scalar.wholePart? x with
      | none => .error (.arithmeticOverflow target)
      | some i => ofExact target i := by
  have hconvert : (float x).convert target =
      (Scalar.orOverflow target ((Scalar.wholePart? x).bind (Scalar.ofInteger? target))).bind
        fun s => .ok ⟨target, some s⟩ := by
    rcases htarget with rfl | rfl <;> rfl
  rw [hconvert]
  cases Scalar.wholePart? x with
  | none => rfl
  | some i =>
    simp only [Option.bind_some, ofExact]
    cases Scalar.orOverflow target (Scalar.ofInteger? target i) <;> rfl

/-- A float becomes its whole part, if it is a number and the type has room for that. Otherwise it
overflows. -/
theorem convert_float_cases (htarget : target = .int ∨ target = .bigint) (hnan : x.isNaN = false) :
    (∃ q, x.number? = some q ∧ target.Represents (truncation q) ∧
      (float x).Gives target (truncation q)) ∨
    (¬∃ q, x.number? = some q ∧ target.Represents (truncation q)) ∧
      (float x).convert target = .error (.arithmeticOverflow target) := by
  have hconvert := convert_float htarget x
  cases hx : x.number? with
  | none =>
    rw [Scalar.wholePart?_of_not_number? hnan hx] at hconvert
    exact .inr ⟨nofun, hconvert⟩
  | some q =>
    rw [Scalar.wholePart?_of_number? hx] at hconvert
    rcases ofExact_cases htarget (truncation q) with ⟨hfits, w, hw, hdenotes⟩ | ⟨hnot, hoverflow⟩
    · exact .inl ⟨q, rfl, hfits, w, hconvert.trans hw, hdenotes⟩
    · refine .inr ⟨fun ⟨q', hq', hfits⟩ => ?_, hconvert.trans hoverflow⟩
      obtain rfl := Option.some.inj hq'
      exact hnot hfits

theorem gives_float_iff (htarget : target = .int ∨ target = .bigint) (hnan : x.isNaN = false)
    (i : Int) :
    (float x).Gives target i ↔
      ∃ q, x.number? = some q ∧ truncation q = i ∧ target.Represents i := by
  rcases convert_float_cases htarget hnan with ⟨q, hq, hfits, hgives⟩ | ⟨hnone, hoverflow⟩
  · constructor
    · intro h
      obtain rfl := h.unique hgives
      exact ⟨q, hq, rfl, hfits⟩
    · rintro ⟨_, hq', rfl, -⟩
      obtain rfl := Option.some.inj (hq.symm.trans hq')
      exact hgives
  · constructor
    · rintro ⟨w, hw, -⟩
      cases hoverflow.symm.trans hw
    · rintro ⟨q, hq, rfl, hfits⟩
      exact absurd ⟨q, hq, hfits⟩ hnone

theorem convert_float_overflow_iff (htarget : target = .int ∨ target = .bigint)
    (hnan : x.isNaN = false) :
    (float x).convert target = .error (.arithmeticOverflow target) ↔
      ¬∃ q, x.number? = some q ∧ target.Represents (truncation q) := by
  rcases convert_float_cases htarget hnan with ⟨q, hq, hfits, w, hw, -⟩ | ⟨hnone, hoverflow⟩
  · refine ⟨fun h => ?_, fun h => absurd ⟨q, hq, hfits⟩ h⟩
    cases hw.symm.trans h
  · exact ⟨fun _ => hnone, fun _ => hoverflow⟩

/-! ## The way of a parameter into a table -/

/-- A parameter that holds a float is seen as the float itself or, if it is declared as an integer,
as its whole part. -/
theorem toValue_cases {p : Parameter} (hnan : x.isNaN = false) (hvalue : p.value = some (.float x))
    (htype : p.type.isNumeric = true) (h : p.toValue = .ok v) :
    v = float x ∨ ∃ q, x.number? = some q ∧ v.Denotes (truncation q) := by
  have hconvert : (float x).convert p.type = .ok v := by
    rw [Parameter.toValue, hvalue] at h
    exact h
  have hinteger (htarget : p.type = .int ∨ p.type = .bigint) :
      ∃ q, x.number? = some q ∧ v.Denotes (truncation q) := by
    rcases convert_float_cases htarget hnan with ⟨q, hq, -, w, hw, -, hdenotes⟩ | ⟨-, hoverflow⟩
    · obtain rfl := Except.ok.inj (hconvert.symm.trans hw)
      exact ⟨q, hq, hdenotes⟩
    · cases hoverflow.symm.trans hconvert
  cases hp : p.type with
  | int => exact .inr (hinteger (.inl hp))
  | bigint => exact .inr (hinteger (.inr hp))
  | float =>
    rw [hp] at hconvert
    exact .inl (Except.ok.inj hconvert).symm
  | varchar | nvarchar =>
    rw [hp] at htype
    cases htype

/-- What such a parameter becomes in an integer column is the whole part of the float. -/
theorem convert_of_parameter {p : Parameter} (hnan : x.isNaN = false)
    (hvalue : p.value = some (.float x)) (htype : p.type.isNumeric = true)
    (h : p.toValue = .ok v) (htarget : target = .int ∨ target = .bigint)
    (hcell : v.convert target = .ok cell) :
    ∃ q, x.number? = some q ∧ cell.type = target ∧ cell.Denotes (truncation q) := by
  rcases toValue_cases hnan hvalue htype h with rfl | ⟨q, hq, hdenotes⟩
  · rcases convert_float_cases htarget hnan with ⟨q, hq, -, w, hw, hdenotes⟩ | ⟨-, hoverflow⟩
    · obtain rfl := Except.ok.inj (hcell.symm.trans hw)
      exact ⟨q, hq, hdenotes⟩
    · cases hoverflow.symm.trans hcell
  · rw [hdenotes.convert_eq htarget] at hcell
    rcases ofExact_cases htarget (truncation q) with ⟨-, w, hw, hresult⟩ | ⟨-, hoverflow⟩
    · obtain rfl := Except.ok.inj (hcell.symm.trans hw)
      exact ⟨q, hq, hresult⟩
    · cases hoverflow.symm.trans hcell

/-- A float that is not one of the words for no number becomes an integer of a type exactly if it
denotes a number and the type has room for the whole part of it; the integer is that whole part.
Otherwise it overflows. So where a parameter that holds the float, and is not declared as a text, is
stored in a column of an integer type, what is stored is that whole part. -/
theorem integers_of_floats (hnan : x.isNaN = false) :
    (∀ target : DataType, target = .int ∨ target = .bigint →
      (∀ i, (float x).Gives target i ↔
        ∃ q, x.number? = some q ∧ truncation q = i ∧ target.Represents i) ∧
      ((float x).convert target = .error (.arithmeticOverflow target) ↔
        ¬∃ q, x.number? = some q ∧ target.Represents (truncation q))) ∧
    ∀ (p : Parameter) (v : Value), p.value = some (.float x) → p.type.isNumeric = true →
      p.toValue = .ok v →
      ∀ (t t' : Table) (names : Option (List String)) (rows : List Row) (count : Nat),
        t.Consistent → (Table.insert names rows).run t = .ok count t' →
        ∃ places added, t.TargetPlaces names places ∧ List.Forall₂ (t.Makes places) rows added ∧
          t' = { t with rows := t.rows ++ added } ∧
          ∀ line ∈ rows.zip added, ∀ place column, (place, v) ∈ places.zip line.1 →
            t.columns[place]? = some column → column.type = .int ∨ column.type = .bigint →
            ∃ q cell, x.number? = some q ∧ line.2[place]? = some cell ∧
              cell.type = column.type ∧ cell.Denotes (truncation q) := by
  refine ⟨fun target htarget => ⟨gives_float_iff htarget hnan,
    convert_float_overflow_iff htarget hnan⟩, ?_⟩
  intro p v hvalue htype hp t t' names rows count ht hinsert
  obtain ⟨places, added, hplaces, hstores, -, ht'⟩ := (Table.insert_eq_ok_iff ht).mp hinsert
  have hmakes := hstores.imp fun _ _ (h : t.Stores places _ _) => h.toMakes
  refine ⟨places, added, hplaces, hmakes, ht', ?_⟩
  intro line hline place column hgiven hcolumn hint
  have hmade : t.Makes places line.1 line.2 := List.forall₂_iff_zip.mp hmakes |>.2 hline
  obtain ⟨cell, hcell, hrow⟩ := hmade.target place v column hgiven hcolumn
  obtain ⟨q, hq, hdenotes⟩ := convert_of_parameter hnan hvalue htype hp hint hcell
  exact ⟨q, cell, hq, hrow, hdenotes⟩

/-- One half below the least int: without its fraction it is one, also in a table. -/
theorem integers_of_floats_of_least :
    let x : Binary64 := ⟨0xC1E0000000100000⟩
    let p : Parameter := .create "@x" (some (.float x)) none
    let t : Table := ⟨"T", [⟨"A", .int, true⟩], []⟩
    x.number? = some (-2147483648.5) ∧ (float x).Gives .int (-2147483648) ∧
      p.toValue = .ok (float x) ∧ t.Consistent ∧
      ∃ places added, t.TargetPlaces none places ∧
        List.Forall₂ (t.Makes places) [[float x]] added ∧ added = [[int (-2147483648)]] := by
  intro x p t
  have hnumber : x.number? = some (-2147483648.5) := by
    have hfields : x.signField = 1 ∧ x.exponentField = 1054 ∧ x.fractionField = 1048576 := by decide
    norm_num [Binary64.number?, hfields]
  have htruncation : truncation (-2147483648.5) = -2147483648 := by
    rw [truncation, if_pos (by norm_num), Int.ceil_eq_iff]
    norm_num
  have hcreate : Table.create "T" t.columns = .ok t := by decide +kernel
  have hconsistent : t.Consistent := .create hcreate
  have hinsert : (Table.insert none [[float x]]).run t =
      .ok 1 { t with rows := [[int (-2147483648)]] } := by decide +kernel
  obtain ⟨hconvert, hstored⟩ := integers_of_floats (x := x) (by decide)
  refine ⟨hnumber, ?_, rfl, hconsistent, ?_⟩
  · exact ((hconvert .int (.inl rfl)).1 _).mpr ⟨_, hnumber, htruncation, by decide⟩
  · obtain ⟨places, added, hplaces, hmakes, hrows, -⟩ :=
      hstored p (float x) rfl rfl rfl t _ _ _ _ hconsistent hinsert
    exact ⟨places, added, hplaces, hmakes, (congrArg Table.rows hrows).symm⟩

/-- The usual word for no number is converted all the same. -/
theorem integer_of_notANumber :
    Binary64.notANumber.number? = none ∧
      (float .notANumber).convert .int = .ok (int 0) ∧
      (float .notANumber).convert .bigint = .ok (bigint 0) := by
  refine ⟨?_, by decide, by decide⟩
  rw [Binary64.number?, if_pos (by decide)]

end Value
end TransactSql
