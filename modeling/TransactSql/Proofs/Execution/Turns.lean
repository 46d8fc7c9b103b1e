/-
TransactSql.Proofs.Execution.Turns — executions that take turns.

A `Site` is a server with command texts on their way on it. They may be
started at any time, and called in any order, each for one outcome after
the other. What is true of the server after every such run is proved by
induction on what has happened:

* its catalog is consistent, if the parameters of the texts are
  well-formed (`Site.Consistent.run`);
* its catalog is sound in any case (`Site.sound_run`), and so one more
  call changes what its answer says, and nothing else (`tells_next`).
  Above all, a statement that fails changes nothing.

Both rest on `next_cases`, which says all that one call can do. There it
is used that all that can fail in a statement comes before what changes a
table (`Statement.atomic_perform`).
-/
import TransactSql.Proofs.Execution.Calls
import TransactSql.Proofs.Statement.Effects

namespace TransactSql

namespace Execution

open Parse

/-! ## One call -/

/-- A call keeps the catalog sound, and its outcome tells what has become of it. -/
theorem tells_next {server : Server} (h : server.catalog.Sound) (e : Execution) :
    (e.next server).server.catalog.Sound ∧
      (((e.next server).server = server ∧ ∀ outcome, (e.next server).item ≠ some (.ok outcome)) ∨
        ∃ outcome, (e.next server).item = some (.ok outcome) ∧
          outcome.Tells server.catalog (e.next server).server.catalog) := by
  rcases e.next_cases server with hsame | ⟨scope, token, cursor, later, statement, outcome, catalog,
    -, hread, hrun, hitem, hserver⟩
  · exact ⟨by rw [hsame.1]; exact h, .inl hsame⟩
  · have hstatement := Statement.yields_read (yields_any _) token _ _ _ hread
    obtain ⟨hsound, htells⟩ := Statement.tells_of_run h hstatement hrun
    rw [hserver]
    exact ⟨hsound, .inr ⟨outcome, hitem, htells⟩⟩

/-- A call with well-formed parameters keeps the tables consistent. -/
theorem consistent_next {server : Server} (h : server.catalog.Sound)
    (htables : ∀ entry ∈ server.catalog.tables.toList, entry.2.Consistent) {e : Execution}
    (hparameters : ∀ entry ∈ e.parameters.toList, entry.2.isWellFormed = true) :
    ∀ entry ∈ (e.next server).server.catalog.tables.toList, entry.2.Consistent := by
  rcases e.next_cases server with hsame | ⟨scope, token, cursor, later, statement, outcome, catalog,
    hscope, hread, hrun, -, hserver⟩
  · rw [hsame.1]
    exact htables
  · have hstatement := Statement.yields_wellFormed (hscope ▸ hparameters) token _ _ _ hread
    rw [hserver]
    exact Statement.consistent_of_run h htables hstatement hrun

end Execution

/-! ## Many executions -/

/-- A server, and the command texts that have been started on it. -/
structure Site where
  server : Server
  executions : List Execution

namespace Site

/-- What can happen at a site. -/
inductive Event where
  /-- A command text is started. -/
  | start (text : String) (parameters : Bindings)
  /-- The execution that was started at this place is called for its next outcome. -/
  | next (place : Nat)

/-- A new server. -/
def create (configuration : Configuration) : Site := ⟨Server.create configuration, []⟩

def step (site : Site) : Event → Site
  | .start text parameters =>
    { site with executions := site.executions ++ [Execution.ofText text parameters] }
  | .next place =>
    match site.executions[place]? with
    | none => site
    | some e =>
      let step := e.next site.server
      ⟨step.server, site.executions.set place step.execution⟩

/-- The site after some events, one after the other. -/
def run (site : Site) (events : List Event) : Site := events.foldl step site

/-- If a command text is started, its parameters have well-formed values. -/
def Event.WellFormed : Event → Prop
  | .start _ parameters => ∀ entry ∈ parameters.toList, entry.2.isWellFormed = true
  | .next _ => True

instance decidableWellFormed : (event : Event) → Decidable event.WellFormed
  | .start _ parameters =>
    inferInstanceAs (Decidable (∀ entry ∈ parameters.toList, entry.2.isWellFormed = true))
  | .next _ => inferInstanceAs (Decidable True)

variable {site : Site}

theorem sound_step (h : site.server.catalog.Sound) (event : Event) :
    (site.step event).server.catalog.Sound := by
  cases event with
  | start text parameters => exact h
  | next place =>
    unfold step
    dsimp only
    split
    · exact h
    · exact (Execution.tells_next h _).1

theorem sound_run (h : site.server.catalog.Sound) (events : List Event) :
    (site.run events).server.catalog.Sound := by
  induction events generalizing site with
  | nil => exact h
  | cons event events ih => exact ih (sound_step h event)

/-- What holds of a site on which only well-formed parameters are used. -/
structure Consistent (site : Site) : Prop where
  sound : site.server.catalog.Sound
  tables : ∀ entry ∈ site.server.catalog.tables.toList, entry.2.Consistent
  parameters : ∀ e ∈ site.executions, ∀ entry ∈ e.parameters.toList, entry.2.isWellFormed = true

theorem Consistent.create (configuration : Configuration) : (create configuration).Consistent :=
  ⟨Catalog.empty_sound, List.forall_mem_nil _, List.forall_mem_nil _⟩

theorem Consistent.catalog (h : site.Consistent) : site.server.catalog.Consistent :=
  h.sound.consistent h.tables

theorem Consistent.step (h : site.Consistent) {event : Event} (hevent : event.WellFormed) :
    (site.step event).Consistent := by
  refine ⟨sound_step h.sound event, ?_, ?_⟩
  · cases event with
    | start text parameters => exact h.tables
    | next place =>
      unfold Site.step
      dsimp only
      split
      · exact h.tables
      · rename_i e he
        exact Execution.consistent_next h.sound h.tables (h.parameters e (List.mem_of_getElem? he))
  · cases event with
    | start text parameters =>
      intro e he
      rcases List.mem_append.mp he with he | he
      · exact h.parameters e he
      · rw [List.mem_singleton.mp he]
        exact hevent
    | next place =>
      unfold Site.step
      dsimp only
      split
      · exact h.parameters
      · rename_i e he
        intro later hlater
        rcases List.mem_or_eq_of_mem_set hlater with hlater | rfl
        · exact h.parameters later hlater
        · rw [e.parameters_next]
          exact h.parameters e (List.mem_of_getElem? he)

theorem Consistent.run (h : site.Consistent) {events : List Event}
    (hevents : ∀ event ∈ events, event.WellFormed) : (site.run events).Consistent := by
  induction events generalizing site with
  | nil => exact h
  | cons event events ih =>
    obtain ⟨hevent, hrest⟩ := List.forall_mem_cons.mp hevents
    exact ih (h.step hevent) hrest

/-! ## What is true of every server -/

/-- Whatever is executed on a server, and in whatever order, its catalog is consistent. -/
theorem consistent_run (configuration : Configuration) {events : List Event}
    (h : ∀ event ∈ events, event.WellFormed) :
    ((create configuration).run events).server.catalog.Consistent := by
  have hcreate : (create configuration).Consistent :=
    ⟨Catalog.empty_sound, List.forall_mem_nil _, List.forall_mem_nil _⟩
  have hrun := hcreate.run h
  exact hrun.sound.consistent hrun.tables

/-- Two command texts take turns: a table is created, a row is inserted, and the first one is
called again. -/
theorem consistent_run_of_two :
    let p := Bindings.none.insert "p" (Value.int 1)
    ((create {}).run [.start "CREATE TABLE t (a nvarchar NOT NULL)" Bindings.none,
      .start "INSERT t VALUES (@p)" p, .next 0, .next 1, .next 0]).server.catalog.Consistent := by
  intro p
  have hp : ∀ entry ∈ p.toList, entry.2.isWellFormed = true := by decide +kernel
  have hnone : ∀ entry ∈ Bindings.none.toList, entry.2.isWellFormed = true := by
    intro entry hentry
    cases hentry
  refine consistent_run {} ?_
  intro event hevent
  simp only [List.mem_cons, List.not_mem_nil, or_false] at hevent
  rcases hevent with rfl | rfl | rfl | rfl | rfl
  · exact hnone
  · exact hp
  · trivial
  · trivial
  · trivial

/-- A call changes the catalog only as its answer says. No answer, a failure and rows leave it
unchanged; -1 stands for a new table, and any other number is that of the rows, one or more, that
have been appended to one table, or the largest number if there are more of them. -/
theorem next_changes_as_reported (configuration : Configuration) (events : List Event)
    (e : Execution) :
    let before := ((create configuration).run events).server
    let answer := e.next before
    (answer.item = none → answer.server.catalog = before.catalog) ∧
      (∀ failure, answer.item = some (.error failure) → answer.server.catalog = before.catalog) ∧
      (∀ set, answer.item = some (.ok (.rowSet set)) → answer.server.catalog = before.catalog) ∧
      ∀ changed, answer.item = some (.ok (.nonQuery changed)) →
        (Outcome.reported changed = -1 → before.catalog.AddsTable answer.server.catalog) ∧
        (Outcome.reported changed ≠ -1 → 1 ≤ (Outcome.reported changed).toInt ∧
          ∃ count : Nat, before.catalog.AppendsRows count answer.server.catalog ∧
            (Outcome.reported changed).toInt = min (count : Int) 2147483647) := by
  intro before answer
  have hsound : before.catalog.Sound := sound_run Catalog.empty_sound events
  obtain ⟨-, ⟨hsame, hnone⟩ | ⟨outcome, hitem, htells⟩⟩ := Execution.tells_next hsound e
  · have hcatalog : answer.server.catalog = before.catalog := congrArg Server.catalog hsame
    exact ⟨fun _ => hcatalog, fun _ _ => hcatalog, fun _ _ => hcatalog,
      fun changed hchanged => absurd hchanged (hnone _)⟩
  · have hanswer : ∀ {other}, answer.item = some (.ok other) → other = outcome := fun hother =>
      (Except.ok.inj (Option.some.inj (hitem.symm.trans hother))).symm
    refine ⟨fun h => ?_, fun failure h => ?_, fun set h => ?_, fun changed h => ?_⟩
    · cases hitem.symm.trans h
    · cases hitem.symm.trans h
    · obtain rfl := hanswer h
      exact htells
    · obtain rfl := hanswer h
      exact htells.reported

end Site
end TransactSql
