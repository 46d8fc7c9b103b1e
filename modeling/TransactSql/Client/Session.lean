/-
TransactSql.Client.Session — servers, connections and transactions.

A `Session` is the state that clients share. Servers, connections and
transactions are made in it, each with a number of its own, and whoever
holds one holds the same one as all others. What can change is kept in
the session: which connections are open, which transactions are
completed, and which tables each server has.

Transactions undo nothing: committing one and rolling it back both only
complete it.
-/
import TransactSql.Execution

namespace TransactSql

/-- A server that clients connect to. -/
structure ServerHandle where
  id : Nat
  configuration : Configuration
deriving DecidableEq

/-- A connection to a server. -/
structure Connection where
  id : Nat
  server : ServerHandle
deriving DecidableEq

/-- A transaction that was begun on a connection. -/
structure Transaction where
  id : Nat
  connection : Connection
deriving DecidableEq

/-- The state that clients share. -/
structure Session where
  /-- The number of the next object that is made. -/
  nextId : Nat
  /-- The connections that are open. -/
  opened : List Connection
  /-- The transactions that are committed or rolled back. -/
  completed : List Transaction
  /-- The tables of the servers on which a command has been run. -/
  catalogs : List (ServerHandle × Catalog)

namespace Session

/-- The session in which nothing has been made. -/
def empty : Session := ⟨0, [], [], []⟩

/-! ## Servers -/

/-- Makes a server without tables. -/
def newServer (s : Session) (configuration : Configuration) : ServerHandle × Session :=
  (⟨s.nextId, configuration⟩, { s with nextId := s.nextId + 1 })

/-- The tables of a server. -/
def catalog (s : Session) (server : ServerHandle) : Catalog :=
  (s.catalogs.lookup server).getD Catalog.empty

/-- A server with its tables. -/
def server (s : Session) (server : ServerHandle) : Server :=
  ⟨server.configuration, s.catalog server⟩

/-- The session in which a server has other tables. -/
def withCatalog (s : Session) (server : ServerHandle) (catalog : Catalog) : Session :=
  { s with catalogs := (server, catalog) :: s.catalogs.filter fun entry => entry.1 ≠ server }

/-! ## Connections -/

/-- Makes a closed connection to a server. -/
def newConnection (s : Session) (server : ServerHandle) : Connection × Session :=
  (⟨s.nextId, server⟩, { s with nextId := s.nextId + 1 })

def isOpen (s : Session) (connection : Connection) : Bool :=
  s.opened.contains connection

def openConnection (s : Session) (connection : Connection) : Session :=
  if s.isOpen connection then s else { s with opened := connection :: s.opened }

def closeConnection (s : Session) (connection : Connection) : Session :=
  { s with opened := s.opened.filter (· ≠ connection) }

/-- The name of the state that a connection is in. -/
def stateName (s : Session) (connection : Connection) : String :=
  if s.isOpen connection then "Open" else "Closed"

/-! ## Transactions -/

/-- Begins a transaction on an open connection. -/
def beginTransaction (s : Session) (connection : Connection) :
    Except Error (Transaction × Session) :=
  if s.isOpen connection then .ok (⟨s.nextId, connection⟩, { s with nextId := s.nextId + 1 })
  else .error (.connectionClosed .beginTransaction)

def isCompleted (s : Session) (transaction : Transaction) : Bool :=
  s.completed.contains transaction

/-- Commits a transaction or rolls it back. -/
def complete (s : Session) (transaction : Transaction) : Except Error Session :=
  if s.isCompleted transaction then .error .transactionCompleted
  else .ok { s with completed := transaction :: s.completed }

/-- A transaction can be used on a connection until it is completed, if it was begun there. -/
def checkUsable (s : Session) (transaction : Transaction) (connection : Connection) :
    Except Error Unit :=
  if s.isCompleted transaction || transaction.connection ≠ connection then
    .error .transactionMismatch
  else .ok ()

end Session
end TransactSql
