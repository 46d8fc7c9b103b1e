/-
TransactSql.Proofs.Execution.Independence — executions on different
tables do not see each other.

A `Pair` is two executions on one server, which are called in turns. If
the names that each passes to the catalog when it runs alone are
different, each answers, call by call, what it answers alone, and in the
end the tables are those of running one after the other
(`items_eq_alone`).

The proof keeps, for each of the two, the server on which it would run
alone. `Apart` says that this server and the common one have the same
tables under the names that are its own. One turn keeps that
(`Apart.step`): it changes both servers alike where the names are its
own, and leaves all other names alone.
-/
import TransactSql.Proofs.Execution.Fetching
import TransactSql.Proofs.Execution.Turns

namespace TransactSql

open Collation

/-! ## One execution on two servers -/

namespace Execution

variable {names : String → Prop} {e : Execution} {server alone : Server}

/-- The servers are of the same configuration, and have the same tables under some names. -/
structure Resembles (names : String → Prop) (server alone : Server) : Prop where
  configuration : server.configuration = alone.configuration
  sound : server.catalog.Sound
  aloneSound : alone.catalog.Sound
  agree : server.catalog.AgreeOn names alone.catalog

/-- Nothing is changed but the tables of some names. -/
structure ChangesOnly (names : String → Prop) (before after : Server) : Prop where
  configuration : after.configuration = before.configuration
  agree : after.catalog.AgreeOn (fun a => ¬names a) before.catalog

theorem changesOnly_refl (server : Server) : ChangesOnly names server server :=
  ⟨rfl, fun _ _ => rfl⟩

theorem ChangesOnly.trans {a b c : Server} (h : ChangesOnly names a b)
    (h' : ChangesOnly names b c) : ChangesOnly names a c :=
  ⟨h'.configuration.trans h.configuration, h'.agree.trans h.agree⟩

/-- A call that uses only some names does the same on servers that resemble each other. -/
theorem next_resembles (hnames : IgnoresSpelling names) (h : Resembles names server alone)
    (huses : ∀ a ∈ (e.fetch alone.configuration.version).tables, names a) :
    (e.next server).item = (e.next alone).item ∧
      (e.next server).execution = (e.next alone).execution ∧
      Resembles names (e.next server).server (e.next alone).server ∧
      ChangesOnly names server (e.next server).server ∧
      ChangesOnly names alone (e.next alone).server := by
  have hsound := (tells_next h.sound e).1
  have haloneSound := (tells_next h.aloneSound e).1
  have hversion : server.configuration.version = alone.configuration.version := by
    rw [h.configuration]
  rw [next_eq_perform] at hsound haloneSound
  rw [next_eq_perform e server, next_eq_perform e alone]
  rw [hversion] at hsound ⊢
  cases hfetch : e.fetch alone.configuration.version with
  | answer item later => exact ⟨rfl, rfl, h, changesOnly_refl _, changesOnly_refl _⟩
  | ready statement later =>
    rw [hfetch] at huses hsound haloneSound
    have hrun := Statement.perform_agreeOn hnames h.sound h.aloneSound h.agree huses
    simp only [Fetched.perform] at hsound haloneSound ⊢
    generalize statement.perform.answer server.catalog = here at hrun hsound
    generalize statement.perform.answer alone.catalog = there at hrun haloneSound
    cases hrun with
    | failure failure => exact ⟨rfl, rfl, h, changesOnly_refl _, changesOnly_refl _⟩
    | outcome outcome inside left right =>
      exact ⟨rfl, rfl, ⟨h.configuration, hsound, haloneSound, inside⟩, ⟨rfl, left⟩, ⟨rfl, right⟩⟩

/-- So does a run to the end. -/
theorem run_resembles (hnames : IgnoresSpelling names) (h : Resembles names server alone)
    (huses : ∀ a ∈ e.names alone, names a) :
    Resembles names (e.run server).server (e.run alone).server ∧
      ChangesOnly names server (e.run server).server ∧
      ChangesOnly names alone (e.run alone).server := by
  induction hn : e.cursor.remaining using Nat.strongRecOn generalizing e server alone with
  | ind n ih =>
    obtain ⟨hfirst, hrest⟩ := List.forall_mem_append.mp (e.names_eq alone ▸ huses)
    obtain ⟨hitem, hlater, hresembles, hserver, halone⟩ := next_resembles hnames h hfirst
    rw [← server_run_next e server, ← server_run_next e alone, hlater]
    by_cases hok : ∃ outcome, (e.next alone).item = some (.ok outcome)
    · obtain ⟨outcome, hok⟩ := hok
      have hnext : e.next alone =
          ⟨some (.ok outcome), (e.next alone).execution, (e.next alone).server⟩ := by
        rw [← hok]
      have hless : (e.next alone).execution.cursor.remaining < n := hn ▸ remaining_next_lt hnext
      obtain ⟨hend, hserver', halone'⟩ := ih _ hless hresembles hrest rfl
      exact ⟨hend, hserver.trans hserver', halone.trans halone'⟩
    · have hfinished := (ended_of_no_outcome (not_exists.mp hok)).1
      rw [server_run_of_finished hfinished, server_run_of_finished hfinished]
      exact ⟨hresembles, hserver, halone⟩

end Execution

/-! ## Two executions in turns -/

/-- One of two executions. -/
inductive Side where
  | first
  | second
deriving DecidableEq

/-- Two executions on one server. -/
structure Pair where
  executions : Side → Execution
  server : Server

namespace Pair

/-- The next call is of the one or of the other. -/
def step (p : Pair) (side : Side) : Option (Except Error Outcome) × Pair :=
  let step := (p.executions side).next p.server
  let executions other := if other = side then step.execution else p.executions other
  (step.item, ⟨executions, step.server⟩)

/-- The pair after some calls. -/
def run (p : Pair) (turns : List Side) : Pair :=
  turns.foldl (fun p side => (p.step side).2) p

/-- What one of the two answers in the course of some calls. -/
def items (p : Pair) (side : Side) : List Side → List (Option (Except Error Outcome))
  | [] => []
  | turn :: turns =>
    let later := (p.step turn).2.items side turns
    if turn = side then (p.step turn).1 :: later else later

/-- One of the two has nothing more to answer. -/
def Exhausted (p : Pair) (side : Side) : Prop :=
  ((p.executions side).next p.server).item = none

variable {names : Side → String → Prop} {alone : Side → Server} {p : Pair}

/-- Each of the two has its own names, and for each there is a server on which it runs alone: the
common one has the same tables under these names. -/
structure Apart (names : Side → String → Prop) (alone : Side → Server) (p : Pair) : Prop where
  spelling : ∀ side, IgnoresSpelling (names side)
  apart : ∀ side other, side ≠ other → ∀ a, names side a → ¬names other a
  resembles : ∀ side, Execution.Resembles (names side) p.server (alone side)
  uses : ∀ side, ∀ a ∈ (p.executions side).names (alone side), names side a

/-- One turn does on the common server what it does where the execution runs alone. -/
theorem Apart.step (h : Apart names alone p) (side : Side) :
    let own := (p.executions side).next (alone side)
    (p.step side).1 = own.item ∧ (p.step side).2.executions side = own.execution ∧
      Apart names (fun other => if other = side then own.server else alone other)
        (p.step side).2 ∧
      Execution.ChangesOnly (names side) p.server (p.step side).2.server := by
  intro own
  obtain ⟨hfirst, hrest⟩ := List.forall_mem_append.mp
    ((p.executions side).names_eq (alone side) ▸ h.uses side)
  obtain ⟨hitem, hexecution, hresembles, hserver, -⟩ :=
    Execution.next_resembles (h.spelling side) (h.resembles side) hfirst
  have hlater : (p.step side).2.executions side = own.execution := by
    rw [← show _ = own.execution from hexecution]
    exact if_pos rfl
  refine ⟨hitem, hlater, ⟨h.spelling, h.apart, fun other => ?_, fun other => ?_⟩, hserver⟩
  · by_cases hother : other = side
    · rw [if_pos hother, hother]
      exact hresembles
    · rw [if_neg hother]
      have hbefore := h.resembles other
      -- the names of the other one are none of those that have changed
      have hunchanged := hserver.agree.mono fun a ha => h.apart other side hother a ha
      exact ⟨hserver.configuration.trans hbefore.configuration, hresembles.sound,
        hbefore.aloneSound, hunchanged.trans hbefore.agree⟩
  · by_cases hother : other = side
    · subst hother
      rw [hlater, if_pos rfl]
      exact hrest
    · have hsame : (p.step side).2.executions other = p.executions other := if_neg hother
      rw [if_neg hother, hsame]
      exact h.uses other

/-- In any number of turns each of the two answers what it answers alone, and it is on its way to
the same end. Tables that belong to neither stay as they are. -/
theorem Apart.run (h : Apart names alone p) (turns : List Side) :
    (∀ side, p.items side turns =
      ((p.executions side).calls (alone side) (turns.count side)).1) ∧
    ∃ alone', Apart names alone' (p.run turns) ∧
      (∀ side, (((p.run turns).executions side).run (alone' side)).server =
        ((p.executions side).run (alone side)).server) ∧
      (p.run turns).server.catalog.AgreeOn (fun a => ∀ side, ¬names side a) p.server.catalog := by
  induction turns generalizing p alone with
  | nil => exact ⟨fun _ => rfl, alone, h, fun _ => rfl, fun _ _ => rfl⟩
  | cons turn turns ih =>
    obtain ⟨hitem, hexecution, hstep, hchanges⟩ := h.step turn
    obtain ⟨hitems, alone', hapart, hend, hothers⟩ := ih hstep
    have hsame : ∀ side, side ≠ turn → (p.step turn).2.executions side = p.executions side :=
      fun side hside => if_neg hside
    refine ⟨fun side => ?_, alone', hapart, fun side => ?_, ?_⟩
    · rw [Pair.items, hitems side]
      by_cases hside : side = turn
      · subst hside
        rw [if_pos rfl, if_pos rfl, hitem, hexecution, List.count_cons_self]
        rfl
      · rw [if_neg (Ne.symm hside), if_neg hside, hsame side hside,
          List.count_cons_of_ne (Ne.symm hside)]
    · refine (hend side).trans ?_
      by_cases hside : side = turn
      · subst hside
        rw [if_pos rfl, hexecution, Execution.server_run_next]
      · rw [if_neg hside, hsame side hside]
    · exact hothers.trans (hchanges.agree.mono fun a ha => ha turn)

/-- The two executions on a server. -/
def of (first second : Execution) (server : Server) : Pair where
  executions
    | .first => first
    | .second => second
  server := server

/-- The names that one of the two passes to the catalog when it runs alone, in all spellings. -/
def aloneNames (p : Pair) (side : Side) (a : String) : Prop :=
  ∃ b ∈ (p.executions side).names p.server, sameName b a = true

theorem apart_of_disjoint (hsound : p.server.catalog.Sound)
    (h : ∀ a ∈ (p.executions .first).names p.server,
      ∀ b ∈ (p.executions .second).names p.server, sameName a b = false) :
    Apart p.aloneNames (fun _ => p.server) p where
  spelling side := by
    rintro a b ⟨c, hc, hsame⟩ hab
    exact ⟨c, hc, caseInsensitive_lawful.trans hsame hab⟩
  apart side other hne := by
    have hdisjoint : ∀ a, p.aloneNames .first a → ¬p.aloneNames .second a := by
      rintro a ⟨b, hb, hba⟩ ⟨c, hc, hca⟩
      have hbc : sameName b c = true :=
        caseInsensitive_lawful.trans hba (caseInsensitive_lawful.symm hca)
      rw [h b hb c hc] at hbc
      cases hbc
    intro a ha hb
    cases side <;> cases other
    · exact hne rfl
    · exact hdisjoint a ha hb
    · exact hdisjoint a hb ha
    · exact hne rfl
  resembles side := ⟨rfl, hsound, hsound, fun _ _ => rfl⟩
  uses side a ha := ⟨a, ha, sameName_refl a⟩

/-- One that has nothing more to answer has come to the end of its run alone. -/
theorem Apart.eq_of_exhausted (h : Apart names alone p) {side : Side} (hside : p.Exhausted side) :
    ((p.executions side).run (alone side)).server = alone side := by
  obtain ⟨hfirst, -⟩ := List.forall_mem_append.mp
    ((p.executions side).names_eq (alone side) ▸ h.uses side)
  have hitem := (Execution.next_resembles (h.spelling side) (h.resembles side) hfirst).1
  exact Execution.server_run_of_exhausted (hitem.symm.trans hside)

/-- When both have come to their ends, the tables are those of running one after the other. -/
theorem Apart.perm_of_exhausted (h : Apart names (fun _ => p.server) p) {turns : List Side}
    (hends : ∀ side, (p.run turns).Exhausted side) :
    let middle := ((p.executions .first).run p.server).server
    let last := ((p.executions .second).run middle).server
    (p.run turns).server.catalog.tables.toList.Perm last.catalog.tables.toList := by
  intro middle last
  obtain ⟨-, alone', hapart, hend, hothers⟩ := h.run turns
  have hagree : ∀ side, (p.run turns).server.catalog.AgreeOn (names side)
      ((p.executions side).run p.server).server.catalog := by
    intro side
    rw [← hend side, hapart.eq_of_exhausted (hends side)]
    exact (hapart.resembles side).agree
  -- the first one, and then the second one on what the first leaves
  obtain ⟨hfirst, hfirstChanges, -⟩ := Execution.run_resembles (h.spelling .first)
    (h.resembles .first) (h.uses .first)
  have hunchanged := hfirstChanges.agree.mono fun a => h.apart .second .first (by decide) a
  have hmiddle : Execution.Resembles (names .second) middle p.server :=
    ⟨hfirstChanges.configuration, hfirst.sound, (h.resembles .second).sound, hunchanged⟩
  obtain ⟨hsecond, hsecondChanges, -⟩ := Execution.run_resembles (h.spelling .second) hmiddle
    (h.uses .second)
  refine Catalog.perm_of_get?_eq (hapart.resembles .first).sound hsecond.sound fun name => ?_
  by_cases hname : names .first name
  · have hnot := h.apart .first .second (by decide) name hname
    rw [hagree .first name hname, hsecondChanges.agree name hnot]
  · by_cases hname' : names .second name
    · rw [hagree .second name hname', hsecond.agree name hname']
    · rw [hsecondChanges.agree name hname', hfirstChanges.agree name hname]
      exact hothers name fun side => by cases side <;> assumption

end Pair

namespace Site

/-- Two executions whose names are different, when each runs alone, do not see each other. In
whatever order they are called, each answers, call by call, what it answers alone; and when neither
has anything more to answer, the tables are those of running the first to its end and then the
second. -/
theorem answers_as_alone (configuration : Configuration) (events : List Event)
    (first second : Execution)
    (h : ∀ a ∈ first.names ((create configuration).run events).server,
      ∀ b ∈ second.names ((create configuration).run events).server, sameName a b = false)
    (turns : List Side) :
    let server := ((create configuration).run events).server
    let p := Pair.of first second server
    p.items .first turns = (first.calls server (turns.count .first)).1 ∧
      p.items .second turns = (second.calls server (turns.count .second)).1 ∧
      ((∀ side, (p.run turns).Exhausted side) →
        (p.run turns).server.catalog.tables.toList.Perm
          (second.run (first.run server).server).server.catalog.tables.toList) := by
  intro server p
  have hsound : server.catalog.Sound := sound_run Catalog.empty_sound events
  have hapart : Pair.Apart p.aloneNames (fun _ => server) p := Pair.apart_of_disjoint hsound h
  obtain ⟨hitems, -⟩ := hapart.run turns
  exact ⟨hitems .first, hitems .second, hapart.perm_of_exhausted⟩

/-- Both create a table of their own and insert into it, turn by turn; the second one fails at its
third statement. -/
theorem answers_as_alone_of_two :
    let server := ((create {}).run [.start "CREATE TABLE u (a int)" Bindings.none, .next 0]).server
    let first := Execution.ofText
      "CREATE TABLE t (a int) INSERT T VALUES (1) SELECT a FROM t" Bindings.none
    let second := Execution.ofText
      "INSERT u VALUES (2); CREATE TABLE [select] (b float) INSERT [Select] VALUES ('x')"
      Bindings.none
    let turns := [.second, .first, .first, .second, .first, .second, .second, .first]
    let p := Pair.of first second server
    p.items .first turns = (first.calls server (turns.count .first)).1 ∧
      p.items .second turns = (second.calls server (turns.count .second)).1 ∧
      (∀ side, (p.run turns).Exhausted side) ∧
      (p.run turns).server.catalog.tables.toList.Perm
        (second.run (first.run server).server).server.catalog.tables.toList := by
  intro server first second turns p
  obtain ⟨hfirst, hsecond, htables⟩ := answers_as_alone {}
    [.start "CREATE TABLE u (a int)" Bindings.none, .next 0] first second (by decide +kernel) turns
  have hends : ∀ side, (p.run turns).Exhausted side := by
    intro side
    unfold Pair.Exhausted
    cases side <;> decide +kernel
  exact ⟨hfirst, hsecond, hends, htables hends⟩

end Site
end TransactSql
