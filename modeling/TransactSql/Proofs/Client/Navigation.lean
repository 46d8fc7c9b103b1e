/-
TransactSql.Proofs.Client.Navigation — a reader loses no row.

A `Navigator` is what a reader means: all of its row sets, the number of
the current one, and a position in it, which is before the first row, on a
row, or after the last one. Moving forward takes one row at a time. The
next set is begun at its start, however much of the one before was read.

A reader spreads this over four fields: the current set, the sets that are
still to come, the place of the row that is next and, if there is one, the
place of the row on which it stands. `Stands r n` says that they fit
together and put the reader where the navigator is; in particular the
reader is never on a row that its set does not have (`StandsAt.on`).
Whatever the two are asked for, they answer alike and stay in the same
place (`stands_perform`), so they do for any sequence of requests
(`runAll_alike`).

A client that reads each set to its end and goes on to the next one, as
long as there is one, is a loop over the reader (`visitAll`). It comes to
every row of every set, once and in order.
-/
import Mathlib.Data.List.Basic
import TransactSql.Client.Command

namespace TransactSql

/-- Something that a reader is asked for. -/
inductive ReaderRequest where
  | read
  | nextResult
  | fieldName (ordinal : Nat)
  | fieldOrdinal (name : String)
  | value (ordinal : Nat)
  | fieldCount
  | hasRows

/-- What a reader answers. -/
inductive ReaderAnswer where
  | truth (holds : Bool)
  | number (n : Nat)
  | name (result : Except Error String)
  | ordinal (result : Except Error Nat)
  | value (result : Except Error Value)

/-- Makes requests one after the other, and collects the answers. -/
def ReaderRequest.runAll {M : Type} (perform : M → ReaderRequest → ReaderAnswer × M) (m : M) :
    List ReaderRequest → List ReaderAnswer × M
  | [] => ([], m)
  | request :: later =>
    let now := perform m request
    let rest := runAll perform now.2 later
    (now.1 :: rest.1, rest.2)

/-! ## Navigators -/

/-- A position among the rows of a row set. -/
inductive Position where
  | before
  | on (i : Nat)
  | after

/-- The place of the row that is next. -/
def Position.next (rows : List Row) : Position → Nat
  | before => 0
  | on i => i + 1
  | after => rows.length

/-- Some row sets, one of which is the current one unless all have been left, and a position in
it. -/
structure Navigator where
  sets : List RowSet
  set : Nat
  position : Position

namespace Navigator

def startOf (sets : List RowSet) : Navigator := ⟨sets, 0, .before⟩

/-- The current row set. -/
def current (n : Navigator) : Option RowSet := n.sets[n.set]?

def columns (n : Navigator) : List String := (n.current.map (·.columns)).getD []

def rows (n : Navigator) : List Row := (n.current.map (·.rows)).getD []

/-- Moves forward by one row, and tells whether there is one. -/
def read (n : Navigator) : Bool × Navigator :=
  if n.position.next n.rows < n.rows.length then
    (true, { n with position := .on (n.position.next n.rows) })
  else (false, { n with position := .after })

/-- Moves to the start of the next row set, and tells whether there is one. -/
def nextResult (n : Navigator) : Bool × Navigator :=
  if n.set + 1 < n.sets.length then (true, ⟨n.sets, n.set + 1, .before⟩)
  else (false, ⟨n.sets, n.sets.length, .before⟩)

/-- The cell of a column in the current row. -/
def value (n : Navigator) (ordinal : Nat) : Except Error Value :=
  match n.position with
  | .before | .after => .error .noData
  | .on i =>
    match (n.rows.getD i [])[ordinal]? with
    | some cell => .ok cell
    | none => .error (.ordinalOutOfRange ordinal)

/-- The name of a column. -/
def fieldName (n : Navigator) (ordinal : Nat) : Except Error String :=
  match n.columns[ordinal]? with
  | some name => .ok name
  | none => .error (.ordinalOutOfRange ordinal)

/-- The place of a column. -/
def fieldOrdinal (n : Navigator) (name : String) : Except Error Nat :=
  match Collation.indexOf? n.columns name with
  | some ordinal => .ok ordinal
  | none => .error (.columnNotFound name)

/-- The answer to a request, and the navigator after it. -/
def perform (n : Navigator) : ReaderRequest → ReaderAnswer × Navigator
  | .read => (.truth n.read.1, n.read.2)
  | .nextResult => (.truth n.nextResult.1, n.nextResult.2)
  | .fieldName ordinal => (.name (n.fieldName ordinal), n)
  | .fieldOrdinal name => (.ordinal (n.fieldOrdinal name), n)
  | .value ordinal => (.value (n.value ordinal), n)
  | .fieldCount => (.number n.columns.length, n)
  | .hasRows => (.truth (n.rows.length != 0), n)

/-- Makes requests one after the other. -/
def runAll (n : Navigator) (requests : List ReaderRequest) : List ReaderAnswer × Navigator :=
  ReaderRequest.runAll perform n requests

end Navigator

namespace Reader

variable {r next : Reader} {n : Navigator} {set : RowSet} {rows : List Row} {p : Position}
  {nextRow : Nat} {row : Option Nat}

theorem read_of_none (h : r.current = none) : r.read = (false, r) := by
  rw [read, h]

theorem read_of_lt (h : r.current = some set) (hmore : r.nextRow < set.rows.length) :
    r.read = (true, { r with row := some r.nextRow, nextRow := r.nextRow + 1 }) := by
  simp only [read, h, if_pos hmore]

theorem read_of_le (h : r.current = some set) (hend : set.rows.length ≤ r.nextRow) :
    r.read = (false, { r with row := none }) := by
  simp only [read, h, if_neg (Nat.not_lt.mpr hend)]

/-! ## Readers in the place of navigators -/

/-- The answer to a request, and the reader after it. -/
def perform (r : Reader) : ReaderRequest → ReaderAnswer × Reader
  | .read => (.truth r.read.1, r.read.2)
  | .nextResult => (.truth r.nextResult.1, r.nextResult.2)
  | .fieldName ordinal => (.name (r.fieldName ordinal), r)
  | .fieldOrdinal name => (.ordinal (r.fieldOrdinal name), r)
  | .value ordinal => (.value (r.value ordinal), r)
  | .fieldCount => (.number r.fieldCount, r)
  | .hasRows => (.truth r.hasRows, r)

/-- Makes requests one after the other. -/
def runAll (r : Reader) (requests : List ReaderRequest) : List ReaderAnswer × Reader :=
  ReaderRequest.runAll perform r requests

/-- At a position among some rows, this is the place of the row that is next, and this one the
place of the row on which a reader stands. -/
inductive StandsAt (rows : List Row) : Position → Nat → Option Nat → Prop
  | before : StandsAt rows .before 0 none
  | on (i : Nat) (h : i < rows.length) : StandsAt rows (.on i) (i + 1) (some i)
  | after : StandsAt rows .after rows.length none

/-- The reader is in the place of the navigator. -/
structure Stands (r : Reader) (n : Navigator) : Prop where
  current : r.current = n.current
  pending : r.pending = n.sets.drop (n.set + 1)
  position : StandsAt n.rows n.position r.nextRow r.row

theorem stands_startOf (sets : List RowSet) (affected : Int32) :
    (startOf sets affected).Stands (.startOf sets) where
  current := List.head?_eq_getElem?
  pending := List.drop_one.symm
  position := .before

theorem StandsAt.nextRow_eq (h : StandsAt rows p nextRow row) : nextRow = p.next rows := by
  cases h <;> rfl

theorem StandsAt.nextRow_le (h : StandsAt rows p nextRow row) : nextRow ≤ rows.length := by
  cases h with
  | before => exact Nat.zero_le _
  | on i hi => exact hi
  | after => exact Nat.le_refl _

theorem StandsAt.after_of_le (h : StandsAt rows p nextRow row) (hend : rows.length ≤ nextRow) :
    StandsAt rows .after nextRow none := by
  rw [Nat.le_antisymm h.nextRow_le hend]
  exact .after

/-- Among no rows, a reader is on none of them, and the end is where the start is. -/
theorem StandsAt.after_of_nil (h : StandsAt rows p nextRow row) (hrows : rows = []) :
    StandsAt rows .after nextRow row := by
  subst hrows
  cases h with
  | before | after => exact .after
  | on i hi => exact absurd hi (Nat.not_lt_zero i)

theorem Stands.rows_of_none (h : r.Stands n) (hnone : r.current = none) : n.rows = [] := by
  rw [Navigator.rows, ← h.current, hnone]
  rfl

theorem Stands.rows_of_some (h : r.Stands n) (hset : r.current = some set) :
    n.rows = set.rows := by
  rw [Navigator.rows, ← h.current, hset]
  rfl

theorem Stands.read (h : r.Stands n) : r.read.1 = n.read.1 ∧ r.read.2.Stands n.read.2 := by
  rw [Navigator.read, ← h.position.nextRow_eq]
  cases hcurrent : r.current with
  | none =>
    have hrows := h.rows_of_none hcurrent
    have hend : ¬r.nextRow < n.rows.length := hrows ▸ Nat.not_lt_zero _
    rw [read_of_none hcurrent, if_neg hend]
    exact ⟨rfl, h.current, h.pending, h.position.after_of_nil hrows⟩
  | some set =>
    have hrows := h.rows_of_some hcurrent
    rcases Nat.lt_or_ge r.nextRow n.rows.length with hmore | hend
    · rw [read_of_lt hcurrent (hrows ▸ hmore), if_pos hmore]
      exact ⟨rfl, h.current, h.pending, .on _ hmore⟩
    · rw [read_of_le hcurrent (hrows ▸ hend), if_neg (Nat.not_lt.mpr hend)]
      exact ⟨rfl, h.current, h.pending, h.position.after_of_le hend⟩

theorem Stands.nextResult (h : r.Stands n) :
    r.nextResult.1 = n.nextResult.1 ∧ r.nextResult.2.Stands n.nextResult.2 := by
  have hpending := h.pending
  unfold Reader.nextResult Navigator.nextResult
  split
  next hmore =>
    have hhead : r.pending.head? = n.sets[n.set + 1]? := by rw [hpending, List.head?_drop]
    refine ⟨?_, hhead, ?_, .before⟩
    · rw [startOf, hhead]
      simpa using hmore
    · rw [startOf, hpending, List.tail_drop]
  next hlast =>
    have hnone : r.pending = [] := by
      rw [hpending, List.drop_eq_nil_iff]
      omega
    rw [hnone]
    exact ⟨rfl, (List.getElem?_eq_none (Nat.le_refl _)).symm,
      (List.drop_eq_nil_of_le (Nat.le_succ _)).symm, .before⟩

theorem Stands.columns (h : r.Stands n) : r.columns = n.columns := by
  rw [Reader.columns, Navigator.columns, h.current]

/-- The row on which a reader stands is there, and it is that of the navigator. -/
theorem Stands.currentRow?_eq (h : r.Stands n) :
    r.currentRow? = match n.position with
      | .before | .after => none
      | .on i => some (n.rows.getD i []) := by
  have hposition := h.position
  unfold currentRow?
  cases hcurrent : r.current with
  | none =>
    rw [h.rows_of_none hcurrent] at hposition
    generalize n.position = p, r.nextRow = nextRow, r.row = row at hposition
    cases hposition with
    | before | after => rfl
    | on i hi => exact absurd hi (Nat.not_lt_zero i)
  | some set =>
    rw [h.rows_of_some hcurrent] at hposition ⊢
    generalize n.position = p, r.nextRow = nextRow, r.row = row at hposition
    cases hposition with
    | before | after => rfl
    | on i hi => simp [hi]

theorem Stands.value (h : r.Stands n) (ordinal : Nat) : r.value ordinal = n.value ordinal := by
  rw [Reader.value, Navigator.value, h.currentRow?_eq]
  cases n.position <;> rfl

theorem Stands.fieldName (h : r.Stands n) (ordinal : Nat) :
    r.fieldName ordinal = n.fieldName ordinal := by
  have hcolumns := h.columns
  unfold Reader.fieldName Navigator.fieldName
  generalize r.columns = columns at hcolumns
  subst hcolumns
  rfl

theorem Stands.fieldOrdinal (h : r.Stands n) (name : String) :
    r.fieldOrdinal name = n.fieldOrdinal name := by
  have hcolumns := h.columns
  rw [Reader.fieldOrdinal, Navigator.fieldOrdinal, ← hcolumns, Reader.columns]
  cases r.current <;> rfl

theorem Stands.hasRows (h : r.Stands n) : r.hasRows = (n.rows.length != 0) := by
  rw [Reader.hasRows, Navigator.rows, h.current]
  cases n.current with
  | none => rfl
  | some set => cases hrows : set.rows <;> simp [hrows]

/-- Whatever is asked for, a reader and a navigator in the same place answer alike, and stay in the
same place. -/
theorem stands_perform (h : r.Stands n) (request : ReaderRequest) :
    (r.perform request).1 = (n.perform request).1 ∧
      (r.perform request).2.Stands (n.perform request).2 := by
  cases request with
  | read => exact ⟨congrArg ReaderAnswer.truth h.read.1, h.read.2⟩
  | nextResult => exact ⟨congrArg ReaderAnswer.truth h.nextResult.1, h.nextResult.2⟩
  | fieldName ordinal => exact ⟨congrArg ReaderAnswer.name (h.fieldName ordinal), h⟩
  | fieldOrdinal name => exact ⟨congrArg ReaderAnswer.ordinal (h.fieldOrdinal name), h⟩
  | value ordinal => exact ⟨congrArg ReaderAnswer.value (h.value ordinal), h⟩
  | fieldCount =>
    exact ⟨congrArg (fun names : List String => ReaderAnswer.number names.length) h.columns, h⟩
  | hasRows => exact ⟨congrArg ReaderAnswer.truth h.hasRows, h⟩

theorem runAll_alike (h : r.Stands n) (requests : List ReaderRequest) :
    (r.runAll requests).1 = (n.runAll requests).1 ∧
      (r.runAll requests).2.Stands (n.runAll requests).2 := by
  induction requests generalizing r n with
  | nil => exact ⟨rfl, h⟩
  | cons request later ih =>
    obtain ⟨hanswer, hplace⟩ := stands_perform h request
    obtain ⟨hanswers, hend⟩ := ih hplace
    exact ⟨congrArg₂ List.cons hanswer hanswers, hend⟩

/-! ## Reading everything -/

/-- The rows of the current set that are still to be read. -/
def unread (r : Reader) : List Row := ((r.current.map (·.rows)).getD []).drop r.nextRow

theorem unread_of_read (h : r.read = (true, next)) :
    ∃ row, next.currentRow? = some row ∧ r.unread = row :: next.unread := by
  cases hcurrent : r.current with
  | none => rw [read_of_none hcurrent] at h; cases h
  | some set =>
    rcases Nat.lt_or_ge r.nextRow set.rows.length with hmore | hend
    · rw [read_of_lt hcurrent hmore] at h
      cases h
      refine ⟨set.rows[r.nextRow], ?_, ?_⟩
      · simp only [currentRow?, hcurrent]
        exact List.getElem?_eq_getElem hmore
      · simp only [unread, hcurrent]
        exact List.drop_eq_getElem_cons hmore
    · rw [read_of_le hcurrent hend] at h
      cases h

theorem unread_of_not_read (h : r.read = (false, next)) : r.unread = [] := by
  cases hcurrent : r.current with
  | none => simp only [unread, hcurrent]; exact List.drop_nil
  | some set =>
    rcases Nat.lt_or_ge r.nextRow set.rows.length with hmore | hend
    · rw [read_of_lt hcurrent hmore] at h
      cases h
    · simp only [unread, hcurrent]
      exact List.drop_eq_nil_of_le hend

theorem pending_read (r : Reader) : r.read.2.pending = r.pending := by
  cases hcurrent : r.current with
  | none => rw [read_of_none hcurrent]
  | some set =>
    rcases Nat.lt_or_ge r.nextRow set.rows.length with hmore | hend
    · rw [read_of_lt hcurrent hmore]
    · rw [read_of_le hcurrent hend]

/-- Reads to the end of the current row set: the rows to which the reader comes, and the reader at
that end. -/
def readToEnd (r : Reader) : List Row × Reader :=
  match _h : r.read with
  | (true, next) =>
    let rest := readToEnd next
    (next.currentRow?.toList ++ rest.1, rest.2)
  | (false, next) => ([], next)
termination_by r.unread.length
decreasing_by
  obtain ⟨row, -, hunread⟩ := unread_of_read _h
  rw [hunread]
  exact Nat.lt_succ_self _

/-- Reading to the end, a reader comes to the rows that were still to be read, and leaves the sets
behind the current one. -/
theorem readToEnd_eq (r : Reader) :
    r.readToEnd.1 = r.unread ∧ r.readToEnd.2.pending = r.pending := by
  fun_induction readToEnd r with
  | case1 r next h rest ih =>
    obtain ⟨row, hrow, hunread⟩ := unread_of_read h
    have hpending : next.pending = r.pending := by rw [← pending_read r, h]
    rw [hrow, hunread, ih.1, ← hpending]
    exact ⟨rfl, ih.2⟩
  | case2 r next h =>
    have hpending : next.pending = r.pending := by rw [← pending_read r, h]
    exact ⟨(unread_of_not_read h).symm, hpending⟩

theorem pending_of_nextResult (h : r.nextResult = (true, next)) :
    ∃ set, r.pending = set :: next.pending ∧ next.unread = set.rows := by
  unfold Reader.nextResult at h
  cases hpending : r.pending with
  | nil => rw [hpending] at h; cases h
  | cons set rest =>
    rw [hpending] at h
    cases h
    exact ⟨set, rfl, rfl⟩

theorem pending_of_not_nextResult (h : r.nextResult = (false, next)) : r.pending = [] := by
  unfold Reader.nextResult at h
  cases hpending : r.pending with
  | nil => rfl
  | cons set rest => rw [hpending] at h; cases h

/-- Reads each row set to its end, as long as there is a next one: the rows of each set to which the
reader comes. -/
def visitAll (r : Reader) : List (List Row) :=
  match _h : r.readToEnd.2.nextResult with
  | (true, next) => r.readToEnd.1 :: visitAll next
  | (false, _) => [r.readToEnd.1]
termination_by r.pending.length
decreasing_by
  obtain ⟨set, hpending, -⟩ := pending_of_nextResult _h
  rw [← r.readToEnd_eq.2, hpending]
  exact Nat.lt_succ_self _

/-- The rows of the current set are followed by those of the sets behind it, each set from its
start. -/
theorem visitAll_eq (r : Reader) : r.visitAll = r.unread :: r.pending.map (·.rows) := by
  fun_induction visitAll r with
  | case1 r next h ih =>
    obtain ⟨set, hpending, hunread⟩ := pending_of_nextResult h
    rw [r.readToEnd_eq.2] at hpending
    rw [r.readToEnd_eq.1, ih, hpending, hunread]
    rfl
  | case2 r next h =>
    have hpending := pending_of_not_nextResult h
    rw [r.readToEnd_eq.2] at hpending
    rw [r.readToEnd_eq.1, hpending]
    rfl

theorem visitAll_startOf (sets : List RowSet) (affected : Int32) :
    (startOf sets affected).visitAll.flatten = sets.flatMap (·.rows) := by
  rw [visitAll_eq]
  cases sets <;> rfl

/-! ## The first value -/

/-- What a client finds that reads one row and asks for its first column: nothing if there is no
row. -/
def firstValue (r : Reader) : Except Error (Option Value) :=
  if r.read.1 then (r.read.2.value 0).map some else .ok none

theorem firstValue_startOf {sets : List RowSet} (affected : Int32)
    (hcolumns : ∀ set ∈ sets, ∀ row ∈ set.rows, row ≠ []) :
    (startOf sets affected).firstValue = .ok (sets.head?.bind RowSet.scalar?) := by
  cases sets with
  | nil => rfl
  | cons set rest =>
    cases hrows : set.rows with
    | nil => simp [firstValue, startOf, Reader.read, RowSet.scalar?, hrows]
    | cons row more =>
      have hrow : row ≠ [] := hcolumns set List.mem_cons_self row (hrows ▸ List.mem_cons_self)
      obtain ⟨cell, cells, rfl⟩ := List.exists_cons_of_ne_nil hrow
      simp [firstValue, startOf, Reader.read, Reader.value, currentRow?, RowSet.scalar?, hrows,
        Except.map]

end Reader

namespace Command

variable {command : Command} {s : Session} {call other : Call} {outcomes : List Outcome}

/-- The calls that execute a command differ only in the name under which they are refused. -/
theorem prepare_of_ok {prepared : Connection × Bindings} (h : command.prepare s call = .ok prepared)
    (other : Call) : command.prepare s other = .ok prepared := by
  unfold prepare at h ⊢
  cases hconnection : command.connection with
  | none => rw [hconnection] at h; cases h
  | some connection =>
    simp only [hconnection] at h ⊢
    split
    next hopen => rwa [if_pos hopen] at h
    next hclosed => rw [if_neg hclosed] at h; cases h

theorem execute_of_ok (h : (command.execute s call).1 = .ok outcomes) (other : Call) :
    command.execute s other = command.execute s call := by
  unfold execute at h ⊢
  cases hprepare : command.prepare s call with
  | error failure => rw [hprepare] at h; cases h
  | ok prepared => rw [prepare_of_ok hprepare other]

end Command

/-- A reader of some row sets answers any requests as the navigator of these sets does. Reading each
set to its end, as long as there is a next one, it comes to every row of every set, once and in
order. And where all rows have a column, executing a command for its first value leaves the same
tables behind as executing it for a reader, and gives what this reader gives if it is read once and
asked for the first column: nothing if there is no row. -/
theorem Reader.navigates (sets : List RowSet) (affected : Int32) :
    (∀ requests, ((startOf sets affected).runAll requests).1 =
      ((Navigator.startOf sets).runAll requests).1) ∧
    (startOf sets affected).visitAll.flatten = sets.flatMap (·.rows) ∧
    ∀ (command : Command) (s : Session) (outcomes : List Outcome),
      (command.execute s .executeReader).1 = .ok outcomes →
      (∀ set, .rowSet set ∈ outcomes → ∀ row ∈ set.rows, row ≠ []) →
      (command.executeReader s).1 = .ok (ofOutcomes outcomes) ∧
        (command.executeScalar s).1 = (ofOutcomes outcomes).firstValue ∧
        (command.executeScalar s).2 = (command.executeReader s).2 := by
  refine ⟨fun requests => (runAll_alike (stands_startOf sets affected) requests).1,
    visitAll_startOf sets affected, fun command s outcomes hexecute hcolumns => ?_⟩
  have hscalar := Command.execute_of_ok hexecute .executeScalar
  have hsets : ∀ set ∈ outcomes.filterMap Outcome.rowSet?, ∀ row ∈ set.rows, row ≠ [] := by
    intro set hset
    obtain ⟨outcome, hmem, hrowSet⟩ := List.mem_filterMap.mp hset
    cases outcome with
    | rowSet found =>
      cases hrowSet
      exact hcolumns _ hmem
    | nonQuery => cases hrowSet
  refine ⟨?_, ?_, ?_⟩
  · change (command.execute s .executeReader).1.map ofOutcomes = _
    rw [hexecute]
    rfl
  · change (command.execute s .executeScalar).1.map _ = _
    rw [hscalar, hexecute, ofOutcomes, firstValue_startOf _ hsets, List.head?_filterMap]
    rfl
  · change (command.execute s .executeScalar).2 = (command.execute s .executeReader).2
    rw [hscalar]

/-- Of two row sets the first one has two rows, and statements that have none come before it. -/
theorem Reader.navigates_of_two_sets :
    let connection : Connection := ⟨1, ⟨0, {}⟩⟩
    let s : Session := { Session.empty with opened := [connection] }
    let command := Command.onConnection
      "CREATE TABLE t (a int) INSERT t VALUES (1), (2) SELECT a FROM t SELECT 'x' AS b" connection
    let outcomes : List Outcome := [.nonQuery none, .nonQuery (some 2),
      .rowSet ⟨["a"], [[.int 1], [.int 2]]⟩, .rowSet ⟨["b"], [[.varchar "x"]]⟩]
    (command.execute s .executeReader).1 = .ok outcomes ∧
      (∀ set, .rowSet set ∈ outcomes → ∀ row ∈ set.rows, row ≠ []) ∧
      (command.executeReader s).1 = .ok (ofOutcomes outcomes) ∧
      (command.executeScalar s).1 = .ok (some (.int 1)) := by
  intro connection s command outcomes
  have hexecute : (command.execute s .executeReader).1 = .ok outcomes := by decide +kernel
  have hcolumns : ∀ set, .rowSet set ∈ outcomes → ∀ row ∈ set.rows, row ≠ [] := by
    simp [outcomes]
  obtain ⟨hreader, hscalar, -⟩ := (navigates [] 0).2.2 command s outcomes hexecute hcolumns
  exact ⟨hexecute, hcolumns, hreader, hscalar.trans (by decide)⟩

end TransactSql
