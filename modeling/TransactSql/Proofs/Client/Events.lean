/-
TransactSql.Proofs.Client.Events — what clients do, and what is told of it.

`Clients` are the handles of servers, connections, transactions and
commands that programs hold, with the session that they share. A handle
can be copied, and no handle is given up; an object that is changed
through one of its handles is changed for all of them. An `Event` is a
call of an operation on a handle, and `step` says what is answered to it
and what becomes of it.

A `log` of events keeps what each does to a connection or a transaction,
through whatever handle, and what is answered. Three things are read off
a log: which transactions were begun on which connections (`begun`), how
a connection was opened and closed (`switches`), and what was answered
when a transaction was committed or rolled back (`completions`). All that
an event changes follows from what the log keeps of it (`step_effect`).
-/
import TransactSql.Client.Command

namespace TransactSql

/-- The handles that clients hold, and the session that they share. Handles of one object are
equal. -/
structure Clients where
  session : Session
  servers : List ServerHandle
  connections : List Connection
  transactions : List Transaction
  commands : List Command

namespace Clients

/-! ## Events -/

/-- An operation on handles, which are given by their places among those of their kind. -/
inductive Event where
  | newServer (configuration : Configuration)
  | cloneServer (server : Nat)
  | newConnection (server : Nat)
  | cloneConnection (connection : Nat)
  | openConnection (connection : Nat)
  | closeConnection (connection : Nat)
  | newCommand (text : String)
  /-- A command is made for a connection. -/
  | createCommand (connection : Nat) (text : String)
  | cloneCommand (command : Nat)
  /-- The text of a command and its parameters are exchanged. -/
  | editCommand (command : Nat) (text : String) (parameters : Parameters)
  | setConnection (command : Nat) (connection : Option Nat)
  | setTransaction (command : Nat) (transaction : Option Nat)
  | beginTransaction (connection : Nat)
  | cloneTransaction (transaction : Nat)
  | commit (transaction : Nat)
  | rollback (transaction : Nat)
  | executeNonQuery (command : Nat)
  | executeReader (command : Nat)
  | executeScalar (command : Nat)

/-- What a client is told. -/
inductive Answer where
  | done
  | failed (failure : Error)
  /-- The number of rows that a command has changed. -/
  | changed (count : Int32)
  | value (value : Option Value)
  | reader (reader : Reader)

def Answer.ofResult {α : Type} (answer : α → Answer) : Except Error α → Answer
  | .ok result => answer result
  | .error failure => .failed failure

/-- What a call tells of the outcomes of a text. -/
def Answer.ofOutcomes (call : Call) (outcomes : List Outcome) : Answer :=
  match call with
  | .executeNonQuery => .changed (Outcome.reported (Outcome.totalChanged outcomes))
  | .executeReader => .reader (Reader.ofOutcomes outcomes)
  | .executeScalar => .value ((outcomes.findSome? Outcome.rowSet?).bind RowSet.scalar?)
  | .beginTransaction => .done

/-- No handles in a session in which nothing has been made. -/
def empty : Clients := ⟨Session.empty, [], [], [], []⟩

/-- The handle, if it is one or nothing is asked for. -/
def optional {α : Type} (handles : List α) : Option Nat → Option (Option α)
  | none => some .none
  | some place => handles[place]?.map some

/-- Ends a transaction. -/
def complete (w : Clients) (transaction : Transaction) : Answer × Clients :=
  match w.session.complete transaction with
  | .ok session => (.done, { w with session := session })
  | .error failure => (.failed failure, w)

/-- What an event answers, and the clients after it. A handle that does not exist does nothing. -/
def step (w : Clients) (event : Event) : Answer × Clients :=
  match event with
  | .newServer configuration =>
    let (server, session) := w.session.newServer configuration
    (.done, { w with session := session, servers := w.servers ++ [server] })
  | .cloneServer i => (.done, { w with servers := w.servers ++ w.servers[i]?.toList })
  | .newConnection i =>
    match w.servers[i]? with
    | some server =>
      let (connection, session) := w.session.newConnection server
      (.done, { w with session := session, connections := w.connections ++ [connection] })
    | none => (.done, w)
  | .cloneConnection i =>
    (.done, { w with connections := w.connections ++ w.connections[i]?.toList })
  | .openConnection i =>
    match w.connections[i]? with
    | some connection => (.done, { w with session := w.session.openConnection connection })
    | none => (.done, w)
  | .closeConnection i =>
    match w.connections[i]? with
    | some connection => (.done, { w with session := w.session.closeConnection connection })
    | none => (.done, w)
  | .newCommand text => (.done, { w with commands := w.commands ++ [Command.ofText text] })
  | .createCommand i text =>
    match w.connections[i]? with
    | some connection =>
      (.done, { w with commands := w.commands ++ [Command.onConnection text connection] })
    | none => (.done, w)
  | .cloneCommand i => (.done, { w with commands := w.commands ++ w.commands[i]?.toList })
  | .editCommand i text parameters =>
    match w.commands[i]? with
    | some command =>
      let command := { command with text := text, parameters := parameters }
      (.done, { w with commands := w.commands.set i command })
    | none => (.done, w)
  | .setConnection i connection =>
    match w.commands[i]?, optional w.connections connection with
    | some command, some connection =>
      (.done, { w with commands := w.commands.set i (command.setConnection connection) })
    | _, _ => (.done, w)
  | .setTransaction i transaction =>
    match w.commands[i]?, optional w.transactions transaction with
    | some command, some transaction =>
      match command.setTransaction w.session transaction with
      | .ok command => (.done, { w with commands := w.commands.set i command })
      | .error failure => (.failed failure, w)
    | _, _ => (.done, w)
  | .beginTransaction i =>
    match w.connections[i]? with
    | some connection =>
      match w.session.beginTransaction connection with
      | .ok (transaction, session) =>
        (.done, { w with session := session, transactions := w.transactions ++ [transaction] })
      | .error failure => (.failed failure, w)
    | none => (.done, w)
  | .cloneTransaction i =>
    (.done, { w with transactions := w.transactions ++ w.transactions[i]?.toList })
  | .commit i | .rollback i =>
    match w.transactions[i]? with
    | some transaction => w.complete transaction
    | none => (.done, w)
  | .executeNonQuery i =>
    match w.commands[i]? with
    | some command =>
      let (result, session) := command.executeNonQuery w.session
      (.ofResult .changed result, { w with session := session })
    | none => (.done, w)
  | .executeReader i =>
    match w.commands[i]? with
    | some command =>
      let (result, session) := command.executeReader w.session
      (.ofResult .reader result, { w with session := session })
    | none => (.done, w)
  | .executeScalar i =>
    match w.commands[i]? with
    | some command =>
      let (result, session) := command.executeScalar w.session
      (.ofResult .value result, { w with session := session })
    | none => (.done, w)

/-- The clients after some events. -/
def run (w : Clients) (events : List Event) : Clients :=
  events.foldl (fun w event => (w.step event).2) w

/-! ## What has happened -/

/-- What an event does to a connection or to a transaction. -/
inductive Effect where
  | opens (connection : Connection)
  | closes (connection : Connection)
  | begins (connection : Connection) (transaction : Transaction)
  /-- The transaction is committed or rolled back, or that is tried. -/
  | completes (transaction : Transaction)
  /-- Neither is touched. -/
  | other

/-- The effect of an event. It has none on what is not there, nor if no transaction begins. -/
def effect (w : Clients) : Event → Effect
  | .openConnection i => (w.connections[i]?.map Effect.opens).getD .other
  | .closeConnection i => (w.connections[i]?.map Effect.closes).getD .other
  | .beginTransaction i =>
    match w.connections[i]? with
    | some connection =>
      match w.session.beginTransaction connection with
      | .ok (transaction, _) => .begins connection transaction
      | .error _ => .other
    | none => .other
  | .commit i | .rollback i => (w.transactions[i]?.map Effect.completes).getD .other
  | _ => .other

/-- The effects of some events, with their answers. -/
abbrev Log := List (Effect × Answer)

def log (w : Clients) : List Event → Log
  | [] => []
  | event :: events => (w.effect event, (w.step event).1) :: log (w.step event).2 events

namespace Log

/-- The transactions that were begun, with their connections. -/
def begun (log : Log) : List (Connection × Transaction) :=
  log.filterMap fun
    | (.begins connection transaction, _) => some (connection, transaction)
    | _ => none

/-- How a connection was opened (`true`) and closed (`false`). -/
def switches (log : Log) (connection : Connection) : List Bool :=
  log.filterMap fun
    | (.opens opened, _) => if opened = connection then some true else none
    | (.closes closed, _) => if closed = connection then some false else none
    | _ => none

/-- The connection was opened, and has not been closed since. -/
def IsOpen (log : Log) (connection : Connection) : Prop :=
  (log.switches connection).getLast? = some true

instance (log : Log) (connection : Connection) : Decidable (log.IsOpen connection) :=
  inferInstanceAs (Decidable (_ = _))

/-- The answers to the commits and the rollbacks of a transaction. -/
def completions (log : Log) (transaction : Transaction) : List Answer :=
  log.filterMap fun
    | (.completes completed, answer) => if completed = transaction then some answer else none
    | _ => none

end Log

/-! ## The session -/

end Clients

namespace Session

variable {s s' : Session} {connection other : Connection} {t u : Transaction}

theorem isOpen_openConnection :
    (s.openConnection connection).isOpen other = (other == connection || s.isOpen other) := by
  unfold openConnection
  split
  · rename_i hopen
    by_cases h : other = connection
    · subst h
      simp [hopen]
    · simp [h]
  · simp only [isOpen, List.contains_cons]

theorem nextId_openConnection : (s.openConnection connection).nextId = s.nextId := by
  unfold openConnection
  split <;> rfl

theorem completed_openConnection : (s.openConnection connection).completed = s.completed := by
  unfold openConnection
  split <;> rfl

theorem isOpen_closeConnection :
    (s.closeConnection connection).isOpen other = (other != connection && s.isOpen other) := by
  by_cases h : other = connection <;> simp [closeConnection, isOpen, h]

theorem beginTransaction_eq_ok (h : s.beginTransaction connection = .ok (t, s')) :
    t = ⟨s.nextId, connection⟩ ∧ s' = { s with nextId := s.nextId + 1 } := by
  unfold beginTransaction at h
  split at h <;> cases h
  exact ⟨rfl, rfl⟩

/-- A transaction is usable on no other connection than its own. -/
theorem connection_of_checkUsable (h : s.checkUsable t connection = .ok ()) :
    t.connection = connection := by
  unfold checkUsable at h
  split at h
  · cases h
  · rename_i hsame
    simp only [Bool.or_eq_true, decide_eq_true_eq, not_or, ne_eq, Decidable.not_not] at hsame
    exact hsame.2

theorem checkUsable_of_connection (h : t.connection = connection) :
    s.checkUsable t connection =
      if s.isCompleted t then .error .transactionMismatch else .ok () := by
  simp [checkUsable, h]

end Session

/-- An execution changes nothing in the session but the tables of a server. -/
theorem Command.execute_session (command : Command) (s : Session) (call : Call) :
    (command.execute s call).2 = s ∨
      ∃ server catalog, (command.execute s call).2 = s.withCatalog server catalog := by
  unfold execute
  split
  · exact .inl rfl
  · exact .inr ⟨_, _, rfl⟩

namespace Clients

variable (w : Clients) (event : Event)

/-! ## What an event changes -/

/-- What stays as it is while nothing is opened, closed, begun or ended. -/
structure Keeps (w w' : Clients) : Prop where
  opened : w'.session.opened = w.session.opened
  completed : w'.session.completed = w.session.completed
  nextId : w.session.nextId ≤ w'.session.nextId
  transactions : ∀ t ∈ w'.transactions, t ∈ w.transactions

theorem keeps_refl : w.Keeps w := ⟨rfl, rfl, Nat.le_refl _, fun _ => id⟩

theorem keeps_execute (command : Command) (call : Call) :
    w.Keeps { w with session := (command.execute w.session call).2 } := by
  rcases command.execute_session w.session call with h | ⟨server, catalog, h⟩
  · rw [h]
    exact keeps_refl w
  · rw [h]
    exact ⟨rfl, rfl, Nat.le_refl _, fun _ => id⟩

/-- A transaction is completed when it ends, and cannot end after that. -/
theorem complete_cases (t : Transaction) :
    (w.session.isCompleted t = false ∧
      w.complete t = (.done, { w with session.completed := t :: w.session.completed })) ∨
    (w.session.isCompleted t = true ∧ w.complete t = (.failed .transactionCompleted, w)) := by
  unfold complete Session.complete
  cases hcompleted : w.session.isCompleted t with
  | true => exact .inr ⟨rfl, rfl⟩
  | false => exact .inl ⟨rfl, rfl⟩

/-- All that an event does, by its effect. -/
theorem step_effect :
    match w.effect event with
    | .opens connection =>
      (w.step event).2 = { w with session := w.session.openConnection connection }
    | .closes connection =>
      (w.step event).2 = { w with session := w.session.closeConnection connection }
    | .begins connection t => ∃ session,
      w.session.beginTransaction connection = .ok (t, session) ∧
        (w.step event).2 = { w with session := session, transactions := w.transactions ++ [t] }
    | .completes t => w.step event = w.complete t
    | .other => w.Keeps (w.step event).2 := by
  cases event with
  | openConnection i | closeConnection i =>
    simp only [effect, step]
    cases w.connections[i]? with
    | none => exact keeps_refl w
    | some connection => rfl
  | beginTransaction i =>
    simp only [effect, step]
    cases w.connections[i]? with
    | none => exact keeps_refl w
    | some connection =>
      dsimp only
      cases hbegin : w.session.beginTransaction connection with
      | error failure => exact keeps_refl w
      | ok begun => exact ⟨_, hbegin, rfl⟩
  | commit i | rollback i =>
    simp only [effect, step]
    cases w.transactions[i]? with
    | none => exact keeps_refl w
    | some t => rfl
  | newServer => exact ⟨rfl, rfl, Nat.le_succ _, fun _ => id⟩
  | newConnection =>
    simp only [effect, step]
    split
    · exact ⟨rfl, rfl, Nat.le_succ _, fun _ => id⟩
    · exact keeps_refl w
  | cloneTransaction i =>
    refine ⟨rfl, rfl, Nat.le_refl _, fun t ht => ?_⟩
    rcases List.mem_append.mp ht with ht | ht
    · exact ht
    · exact List.mem_of_getElem? (Option.mem_toList.mp ht)
  | executeNonQuery | executeReader | executeScalar =>
    simp only [effect, step]
    split
    · exact keeps_execute w _ _
    · exact keeps_refl w
  | _ =>
    simp only [effect, step]
    repeat' split
    all_goals exact ⟨rfl, rfl, Nat.le_refl _, fun _ => id⟩

end Clients
end TransactSql
