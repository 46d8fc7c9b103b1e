/-
TransactSql.Collation.Map — maps whose keys are names under a collation.

A `CollatedMap` finds a value under every spelling of its key that the
collation holds to be the same name. The first spelling is the one that
is kept: inserting under another spelling replaces only the value.

The entries are kept in buckets, one for each hash code in use, and a
look-up searches the one bucket that its key belongs to. No bucket is
empty. The order of `toList` is that of the buckets and means nothing.
The number of entries is kept beside the buckets, and each operation
that adds or removes an entry changes it.
-/
import TransactSql.Collation.Basic

namespace TransactSql

/-- A finite map from names to values. -/
structure CollatedMap (α : Type) where
  collation : Collation
  buckets : List (UInt64 × List (String × α))
  /-- The number of entries. -/
  count : Nat

namespace CollatedMap

variable {α : Type}

/-- The map without entries. -/
def empty (collation : Collation) : CollatedMap α := ⟨collation, [], 0⟩

/-- All entries, each under its first spelling. -/
def toList (m : CollatedMap α) : List (String × α) :=
  m.buckets.flatMap (·.2)

def size (m : CollatedMap α) : Nat := m.count

def isEmpty (m : CollatedMap α) : Bool := m.count == 0

/-- The entries whose keys have this hash code. -/
def bucket (m : CollatedMap α) (hash : UInt64) : List (String × α) :=
  (m.buckets.lookup hash).getD []

/-- The entry of a key, with the spelling that is kept. -/
def entry? (m : CollatedMap α) (key : String) : Option (String × α) :=
  (m.bucket (m.collation.hash key)).find? fun entry => m.collation.equals entry.1 key

def get? (m : CollatedMap α) (key : String) : Option α :=
  (m.entry? key).map (·.2)

def contains (m : CollatedMap α) (key : String) : Bool :=
  (m.entry? key).isSome

/-- The buckets with one of them replaced, or removed if nothing is left in it. -/
def withBucket (buckets : List (UInt64 × List (String × α))) (hash : UInt64)
    (entries : List (String × α)) : List (UInt64 × List (String × α)) :=
  match buckets with
  | [] => if entries.isEmpty then [] else [(hash, entries)]
  | first :: rest =>
    if first.1 == hash then if entries.isEmpty then rest else (hash, entries) :: rest
    else first :: withBucket rest hash entries

/-- Changes the bucket that a key belongs to. -/
def updateBucket (m : CollatedMap α) (key : String)
    (change : List (String × α) → List (String × α)) : CollatedMap α :=
  let hash := m.collation.hash key
  { m with buckets := withBucket m.buckets hash (change (m.bucket hash)) }

/-- Notes another number of entries. -/
def recount (m : CollatedMap α) (count : Nat) : CollatedMap α := { m with count := count }

/-- Changes the value of the first entry whose key is the given name. -/
def modifyEntry (collation : Collation) (key : String) (change : α → α) :
    List (String × α) → List (String × α)
  | [] => []
  | entry :: rest =>
    if collation.equals entry.1 key then (entry.1, change entry.2) :: rest
    else entry :: modifyEntry collation key change rest

/-- Changes the value of a key, if it has one. -/
def modify (m : CollatedMap α) (key : String) (change : α → α) : CollatedMap α :=
  m.updateBucket key (modifyEntry m.collation key change)

/-- Gives a key a value. A key that has one already keeps its spelling. -/
def insert (m : CollatedMap α) (key : String) (value : α) : CollatedMap α :=
  if m.contains key then m.modify key fun _ => value
  else (m.updateBucket key (· ++ [(key, value)])).recount (m.count + 1)

/-- Removes the entry of a key, if it has one. -/
def erase (m : CollatedMap α) (key : String) : CollatedMap α :=
  if m.contains key then
    (m.updateBucket key (·.eraseP fun entry => m.collation.equals entry.1 key)).recount
      (m.count - 1)
  else m

/-- The map of some entries, inserted in order. -/
def ofList (collation : Collation) (entries : List (String × α)) : CollatedMap α :=
  entries.foldl (fun m entry => m.insert entry.1 entry.2) (empty collation)

end CollatedMap
end TransactSql
