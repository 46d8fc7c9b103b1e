/-
TransactSql.Client.Command — commands and how they are executed.

A command is a text with parameters. It is executed on its connection,
which has to be open; a transaction that it holds must be one of this
connection and not completed. The text is always run as a whole. The ways
to execute it differ in what they report: the number of changed rows, the
first value of the first row set, or all row sets.
-/
import TransactSql.Client.Parameter
import TransactSql.Client.Reader
import TransactSql.Client.Session

namespace TransactSql

/-- A text with parameters, for execution on a connection. -/
structure Command where
  text : String
  parameters : Parameters
  connection : Option Connection
  transaction : Option Transaction

namespace Command

/-- A command without a connection. -/
def ofText (text : String) : Command := ⟨text, [], none, none⟩

/-- Changes the connection. A transaction of another connection is dropped. -/
def setConnection (command : Command) (connection : Option Connection) : Command :=
  let transaction := match command.transaction, connection with
    | some transaction, some connection =>
      if transaction.connection = connection then some transaction else none
    | transaction, _ => transaction
  { command with connection := connection, transaction := transaction }

/-- A command for a connection. -/
def onConnection (text : String) (connection : Connection) : Command :=
  (ofText text).setConnection (some connection)

/-- Changes the transaction, which must be usable. Without a connection that means only that it is
not completed. -/
def setTransaction (command : Command) (s : Session) (transaction : Option Transaction) :
    Except Error Command :=
  match transaction, command.connection with
  | none, _ => .ok { command with transaction := none }
  | some transaction, some connection => do
    s.checkUsable transaction connection
    .ok { command with transaction := some transaction }
  | some transaction, none =>
    if s.isCompleted transaction then .error .transactionMismatch
    else .ok { command with transaction := some transaction }

/-! ## Execution -/

/-- The connection on which a call executes the command, and the values of its parameters. -/
def prepare (command : Command) (s : Session) (call : Call) :
    Except Error (Connection × Bindings) :=
  match command.connection with
  | none => .error (.connectionNotInitialized call)
  | some connection =>
    if s.isOpen connection then do
      match command.transaction with
      | some transaction => s.checkUsable transaction connection
      | none => .ok ()
      let bindings ← command.parameters.bindings
      .ok (connection, bindings)
    else .error (.connectionClosed call)

/-- Runs the text. The statements before a failure keep their effects. -/
def execute (command : Command) (s : Session) (call : Call) :
    Except Error (List Outcome) × Session :=
  match command.prepare s call with
  | .error failure => (.error failure, s)
  | .ok (connection, bindings) =>
    let run := (s.server connection.server).execute command.text bindings
    (run.result, s.withCatalog connection.server run.server.catalog)

/-- Executes the command for the number of changed rows; it is -1 if no statement has one. -/
def executeNonQuery (command : Command) (s : Session) : Except Error Int32 × Session :=
  let (outcomes, s) := command.execute s .executeNonQuery
  (outcomes.map fun outcomes => Outcome.reported (Outcome.totalChanged outcomes), s)

/-- Executes the command for the first value of the first row set. -/
def executeScalar (command : Command) (s : Session) : Except Error (Option Value) × Session :=
  let (outcomes, s) := command.execute s .executeScalar
  (outcomes.map fun outcomes => (outcomes.findSome? Outcome.rowSet?).bind RowSet.scalar?, s)

/-- Executes the command for all row sets. -/
def executeReader (command : Command) (s : Session) : Except Error Reader × Session :=
  let (outcomes, s) := command.execute s .executeReader
  (outcomes.map Reader.ofOutcomes, s)

end Command
end TransactSql
