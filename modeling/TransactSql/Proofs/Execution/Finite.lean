/-
TransactSql.Proofs.Execution.Finite — floats stay finite.

A run keeps every property of values that its operations keep: if the
numbers of the text, the parameters and the stored cells have it, then so
have all cells that are answered and all that are stored in the end
(`Supplied.run`). A call is the step, and it leaves tokens of the same text
behind for the next one (`Supplied.next`). One text after the other is run
on the server that the one before has left (`Server.executeAll`).

Being finite is such a property. So a float that is not finite comes into
a server only from outside, as a parameter or as a number in a text that
is too large (`finite_of_finite_numbers`). Such a number is no failure
(`infinite_of_number`); a text or a result that is too large is.
-/
import TransactSql.Proofs.Execution.Turns
import TransactSql.Proofs.Lexer.Numbers
import TransactSql.Proofs.Statement.Origins
import TransactSql.Proofs.Value.FloatRange

namespace TransactSql

open Parse

namespace Execution

variable {tokens : Token → Prop} {values : Value → Prop} {e : Execution} {server : Server}

/-! ## Calls and runs -/

/-- What holds of an execution on a server on which all values have a property: the tokens that are
left supply values with it, the parameters have it, and so have all stored cells. -/
structure Supplied (tokens : Token → Prop) (values : Value → Prop) (e : Execution)
    (server : Server) : Prop where
  tokens : ∀ t ∈ e.cursor.tokens, tokens t
  parameters : ∀ entry ∈ e.parameters.toList, values entry.2
  sound : server.catalog.Sound
  cells : server.catalog.Cells values

/-- A call answers cells with the property and stores none without it; after an outcome, the next
call is supplied as well. -/
theorem Supplied.next (h : e.Supplied tokens values server) (hvalues : Value.Spreads values)
    (hnumbers : ∀ t number, tokens t → t.kind = .number number → values number.toValue) :
    (e.next server).server.catalog.Sound ∧ (e.next server).server.catalog.Cells values ∧
      ∀ outcome, (e.next server).item = some (.ok outcome) → outcome.Cells values ∧
        (e.next server).execution.Supplied tokens values (e.next server).server := by
  refine ⟨(tells_next h.sound e).1, ?_⟩
  fun_induction Execution.next e server with
  | case1 => exact ⟨h.cells, fun _ hanswer => by cases hanswer⟩
  | case2 => exact ⟨h.cells, fun _ hanswer => by cases hanswer⟩
  | case3 => exact ⟨h.cells, fun _ hanswer => by cases hanswer⟩
  | case4 e _ token cursor hnext _ ih =>
    exact ih ⟨(Cursor.forall_mem_of_next h.tokens hnext).2, h.parameters, h.sound, h.cells⟩
  | case5 => exact ⟨h.cells, fun _ hanswer => by cases hanswer⟩
  | case6 e _ token cursor hnext _ _ later hread ih =>
    have hrest := (Cursor.forall_mem_of_next h.tokens hnext).2
    have hlater := (Statement.stopsBefore_readOption.yieldsFrom _ _ _ hrest hread).2
    exact ih ⟨hlater, h.parameters, h.sound, h.cells⟩
  | case7 e _ token cursor hnext =>
    have hrest := (Cursor.forall_mem_of_next h.tokens hnext).2
    have hscope : (e.scope server).SuppliesFrom tokens values :=
      Scope.suppliesFrom_of_parameters hvalues hnumbers h.parameters
    rw [runStatement_eq]
    split
    · exact ⟨h.cells, fun _ hanswer => by cases hanswer⟩
    · next statement later hread =>
      obtain ⟨⟨hsupplied, hselects⟩, hlater⟩ :=
        Statement.yieldsFrom_origins hscope hvalues.toKept token _ _ _ hrest hread
      split
      · exact ⟨h.cells, fun _ hanswer => by cases hanswer⟩
      · next outcome catalog hrun =>
        obtain ⟨hcells, houtcome⟩ :=
          Statement.cells_run hvalues h.sound h.cells hsupplied hselects
            (Change.answer_eq_ok.mp hrun)
        have hsound := (Statement.tells_of_run h.sound hsupplied (Change.answer_eq_ok.mp hrun)).1
        refine ⟨hcells, fun answered hanswer => ?_⟩
        cases hanswer
        exact ⟨houtcome, hlater, h.parameters, hsound, hcells⟩

/-- All that a run answers, and all that is stored in the end, has the property. -/
theorem Supplied.run (h : e.Supplied tokens values server) (hvalues : Value.Spreads values)
    (hnumbers : ∀ t number, tokens t → t.kind = .number number → values number.toValue) :
    (∀ outcome ∈ (e.run server).outcomes, outcome.Cells values) ∧
      (e.run server).server.catalog.Sound ∧ (e.run server).server.catalog.Cells values := by
  fun_induction Execution.run e server with
  | case1 e server later after hnext =>
    have hcall := h.next hvalues hnumbers
    rw [hnext] at hcall
    exact ⟨List.forall_mem_nil _, hcall.1, hcall.2.1⟩
  | case2 e server failure later after hnext =>
    have hcall := h.next hvalues hnumbers
    rw [hnext] at hcall
    exact ⟨List.forall_mem_nil _, hcall.1, hcall.2.1⟩
  | case3 e server outcome later after hnext rest ih =>
    have hcall := h.next hvalues hnumbers
    rw [hnext] at hcall
    obtain ⟨houtcome, hlater⟩ := hcall.2.2 outcome rfl
    obtain ⟨houtcomes, hserver⟩ := ih hlater
    exact ⟨List.forall_mem_cons.mpr ⟨houtcome, houtcomes⟩, hserver⟩

end Execution

/-! ## One text after the other -/

/-- A command text and the parameters with which it is executed. -/
structure Batch where
  text : String
  parameters : Bindings

namespace Server

/-- Runs every text to its end, on the server that the texts before it have left. -/
def executeAll (server : Server) : List Batch → List Execution.Run
  | [] => []
  | batch :: rest =>
    let run := server.execute batch.text batch.parameters
    run :: run.server.executeAll rest

variable {tokens : Token → Prop} {values : Value → Prop} {server : Server} {batches : List Batch}

theorem cells_executeAll (hvalues : Value.Spreads values)
    (hnumbers : ∀ t number, tokens t → t.kind = .number number → values number.toValue)
    (htokens : ∀ batch ∈ batches, ∀ t ∈ (Lexer.ofText batch.text).tokens.1, tokens t)
    (hparameters : ∀ batch ∈ batches, ∀ entry ∈ batch.parameters.toList, values entry.2)
    (hsound : server.catalog.Sound) (hcells : server.catalog.Cells values) :
    ∀ run ∈ server.executeAll batches,
      (∀ outcome ∈ run.outcomes, outcome.Cells values) ∧ run.server.catalog.Cells values := by
  induction batches generalizing server with
  | nil => exact List.forall_mem_nil _
  | cons batch rest ih =>
    obtain ⟨hbatch, hrest⟩ := List.forall_mem_cons.mp htokens
    obtain ⟨hbindings, hrest'⟩ := List.forall_mem_cons.mp hparameters
    have hsupplied : (Execution.ofText batch.text batch.parameters).Supplied tokens values server :=
      ⟨fun t ht => hbatch t (List.mem_filter.mp ht).1, hbindings, hsound, hcells⟩
    obtain ⟨houtcomes, hsound', hcells'⟩ := hsupplied.run hvalues hnumbers
    exact List.forall_mem_cons.mpr
      ⟨⟨houtcomes, hcells'⟩, ih hrest hrest' hsound' hcells'⟩

end Server

/-! ## Finite floats -/

theorem Value.isFinite_spreads : Value.Spreads Value.IsFinite where
  toKept := isFinite_kept
  convert := isFinite_convert
  null := isFinite_null
  int _ := isFinite_some trivial
  varchar _ := isFinite_some trivial
  nvarchar _ := isFinite_some trivial

/-- The token is a number that is finite, or it is no number. -/
def Token.isFinite (t : Token) : Bool :=
  match t.kind with
  | .number (.float x) => x.isFinite
  | _ => true

theorem Token.isFinite_toValue {t : Token} {number : Number} (h : t.isFinite = true)
    (hkind : t.kind = .number number) : number.toValue.IsFinite := by
  rw [Token.isFinite, hkind] at h
  cases number with
  | float x => exact Value.isFinite_some h
  | _ => exact Value.isFinite_some trivial

open Binary64 (denotes? Overflows)

/-- Texts that are executed one after the other answer and store finite floats only, if their
parameters and the numbers in them are finite. A number in a text is finite unless it overflows,
and what overflows later is a failure: a text that is made a float, and the result of an
operator. -/
theorem finite_of_finite_numbers (configuration : Configuration) {batches : List Batch}
    (hnumbers : ∀ batch ∈ batches, ∀ t ∈ (Lexer.ofText batch.text).tokens.1, t.isFinite = true)
    (hparameters : ∀ batch ∈ batches, ∀ entry ∈ batch.parameters.toList, entry.2.IsFinite) :
    (∀ run ∈ (Server.create configuration).executeAll batches,
      (∀ outcome ∈ run.outcomes, outcome.Cells Value.IsFinite) ∧
      run.server.catalog.Cells Value.IsFinite) ∧
    (∀ (text : String) (t : Token) (x : Binary64), t ∈ (Lexer.ofText text).tokens.1 →
      t.kind = .number (.float x) →
      ∃ q, denotes? t.literal.toList = some q ∧ (x.isFinite = true ↔ ¬Overflows q)) ∧
    (∀ (type : DataType) (text : String) (q : ℚ), type.isText = true →
      denotes? (Unicode.trim text.toList) = some q →
      let v : Value := ⟨type, some (.text text)⟩
      (Overflows q ∧ v.convert .float = .error (.conversionFailed text type .float)) ∨
      (¬Overflows q ∧ ∃ z, z.isFinite = true ∧ v.convert .float = .ok (.float z))) ∧
    ∀ (op : ArithmeticOperator) (x y : Binary64) (p q r : ℚ), x.number? = some p →
      y.number? = some q → op.exact? p q = some r →
      (Overflows r ∧
        (Value.float x).apply op (Value.float y) = .error (.arithmeticOverflow .float)) ∨
      (¬Overflows r ∧
        ∃ z, z.isFinite = true ∧ (Value.float x).apply op (Value.float y) = .ok (.float z)) := by
  have htokens : ∀ (t : Token) (number : Number), t.isFinite = true → t.kind = .number number →
      number.toValue.IsFinite := fun _ _ => Token.isFinite_toValue
  refine ⟨?_, fun text t x => Lexer.float_of_token, fun type text q => Value.convert_decimal_cases,
    fun op x y p q r => Value.apply_float_cases⟩
  exact Server.cells_executeAll Value.isFinite_spreads htokens hnumbers hparameters
    Catalog.empty_sound (List.forall_mem_nil _)

/-- Two floats are stored, one of them the greatest. Adding them to themselves overflows, a text
that is too large is not stored, and what is computed from them in the end is finite. -/
theorem finite_of_finite_numbers_of_great :
    let p := Bindings.none.insert "p" (.float ⟨0x7fefffffffffffff⟩)
    let batches : List Batch := [⟨"CREATE TABLE t (a float)", .none⟩,
      ⟨"INSERT t VALUES (@p), (1.5); SELECT a + a FROM t", p⟩,
      ⟨"INSERT t VALUES ('1e400')", .none⟩,
      ⟨"SELECT a, -a, ABS(a), a / 3 FROM t", .none⟩]
    (∀ batch ∈ batches, ∀ t ∈ (Lexer.ofText batch.text).tokens.1, t.isFinite = true) ∧
      (∀ batch ∈ batches, ∀ entry ∈ batch.parameters.toList, entry.2.IsFinite) ∧
      ((Server.create {}).executeAll batches).map (fun run => (run.outcomes.length, run.failure)) =
        [(1, none), (1, some (.arithmeticOverflow .float)),
          (0, some (.conversionFailed "1e400" .varchar .float)), (1, none)] ∧
      ∀ run ∈ (Server.create {}).executeAll batches,
        (∀ outcome ∈ run.outcomes, outcome.Cells Value.IsFinite) ∧
        run.server.catalog.Cells Value.IsFinite := by
  intro p batches
  have hnumbers : ∀ batch ∈ batches, ∀ t ∈ (Lexer.ofText batch.text).tokens.1,
      t.isFinite = true := by decide +kernel
  have hparameters : ∀ batch ∈ batches, ∀ entry ∈ batch.parameters.toList, entry.2.IsFinite := by
    decide +kernel
  exact ⟨hnumbers, hparameters, by decide +kernel,
    (finite_of_finite_numbers {} hnumbers hparameters).1⟩

/-- A number in a text that is too large is read as an infinity, and it is answered. -/
theorem infinite_of_number :
    let batches : List Batch := [⟨"SELECT 1e400", .none⟩]
    (∀ batch ∈ batches, ∀ entry ∈ batch.parameters.toList, entry.2.IsFinite) ∧
      ∃ run ∈ (Server.create {}).executeAll batches, ∃ outcome ∈ run.outcomes,
        ¬outcome.Cells Value.IsFinite := by
  decide +kernel

end TransactSql
