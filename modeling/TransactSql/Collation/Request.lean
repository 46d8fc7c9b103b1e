/-
TransactSql.Collation.Request — what maps are asked for.

A `MapRequest` asks one map for something: to change an entry, to find
one, or to tell how many there are. A map answers, and goes on as the
changed map.

A `MapOperation` is about several maps, which are numbered: one of them
is asked for something, a copy of one is made, or a map is made of some
entries. A new map is put behind the others. What maps do is given by how
one of them answers a request and by how one is made of entries, so that
the same operations can be run on any sort of map.
-/
import TransactSql.Collation.Map

namespace TransactSql

/-- Something that a map is asked for. -/
inductive MapRequest (α : Type) where
  | insert (key : String) (value : α)
  | erase (key : String)
  | get (key : String)
  | entry (key : String)
  | modify (key : String) (change : α → α)
  | contains (key : String)
  | size
  | isEmpty

/-- What a map answers. -/
inductive MapAnswer (α : Type) where
  /-- The value of a key as it was before the request, if the key had one. -/
  | value (found : Option α)
  /-- The entry of a key, if there is one. -/
  | entry (found : Option (String × α))
  | truth (holds : Bool)
  | number (n : Nat)
deriving DecidableEq

/-- What is done where there are several maps. -/
inductive MapOperation (α : Type) where
  | ask (place : Nat) (request : MapRequest α)
  | copy (place : Nat)
  | collect (entries : List (String × α))

namespace CollatedMap

variable {α : Type}

/-- The answer to a request, and the map after it. -/
def perform (m : CollatedMap α) : MapRequest α → MapAnswer α × CollatedMap α
  | .insert key value => (.value (m.get? key), m.insert key value)
  | .erase key => (.value (m.get? key), m.erase key)
  | .get key => (.value (m.get? key), m)
  | .entry key => (.entry (m.entry? key), m)
  | .modify key change => (.value (m.get? key), m.modify key change)
  | .contains key => (.truth (m.contains key), m)
  | .size => (.number m.size, m)
  | .isEmpty => (.truth m.isEmpty, m)

end CollatedMap

namespace MapOperation

variable {α M : Type} (perform : M → MapRequest α → MapAnswer α × M)
  (collect : List (String × α) → M)

/-- Runs an operation. Only a request is answered; where there is no map of that number, nothing
happens. -/
def run (maps : List M) (operation : MapOperation α) : Option (MapAnswer α) × List M :=
  match operation with
  | .ask place request =>
    match maps[place]? with
    | some m => (some (perform m request).1, maps.set place (perform m request).2)
    | none => (none, maps)
  | .copy place =>
    match maps[place]? with
    | some m => (none, maps ++ [m])
    | none => (none, maps)
  | .collect entries => (none, maps ++ [collect entries])

/-- Runs operations one after the other. -/
def runAll (maps : List M) : List (MapOperation α) → List (Option (MapAnswer α)) × List M
  | [] => ([], maps)
  | operation :: later =>
    let now := run perform collect maps operation
    let rest := runAll now.2 later
    (now.1 :: rest.1, rest.2)

end MapOperation

/-- Runs operations on maps under collations. A map that is made of entries ignores case. -/
def CollatedMap.runAll {α : Type} (maps : List (CollatedMap α))
    (operations : List (MapOperation α)) : List (Option (MapAnswer α)) × List (CollatedMap α) :=
  MapOperation.runAll perform (ofList Collation.caseInsensitive) maps operations

end TransactSql
