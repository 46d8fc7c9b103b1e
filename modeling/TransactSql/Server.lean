/-
TransactSql.Server — a server and what it can be set to.

A server has the tables of its catalog and a version, which a statement
can ask for. It may or may not keep the system table in memory; that is
a setting without an effect on any result.
-/
import TransactSql.Catalog.Basic

namespace TransactSql

/-- What a server can be set to. -/
structure Configuration where
  version : String := "SQL Server Simulator"
  /-- The system table is kept once it has been used. -/
  retainsSystemCatalog : Bool := true
deriving DecidableEq

/-- A server with its tables. -/
structure Server where
  configuration : Configuration
  catalog : Catalog

namespace Server

/-- A server without tables. -/
def create (configuration : Configuration) : Server := ⟨configuration, Catalog.empty⟩

end Server
end TransactSql
