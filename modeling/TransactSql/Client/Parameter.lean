/-
TransactSql.Client.Parameter — the parameters of a command.

A parameter is named with or without an `@`, and its type is the declared
one or else that of its value; a NULL without a declared type is an
nvarchar. Parameters keep the order in which they were added. Adding one
replaces the parameter that is found under its name.
-/
import TransactSql.Scope

namespace TransactSql

/-- A parameter of a command. -/
structure Parameter where
  /-- The name without the `@` that it was given with. -/
  name : String
  value : Option Scalar
  declaredType : Option DataType
deriving DecidableEq

/-- The parameters of a command, in order. -/
abbrev Parameters := List Parameter

namespace Parameter

/-- A name without one `@` at its start. -/
def bareName (name : String) : String :=
  match name.toList with
  | '@' :: rest => String.ofList rest
  | _ => name

/-- A parameter of a given name. -/
def create (name : String) (value : Option Scalar) (declaredType : Option DataType) : Parameter :=
  ⟨bareName name, value, declaredType⟩

/-- The type of the parameter. -/
def type (p : Parameter) : DataType :=
  match p.declaredType, p.value with
  | some declared, _ => declared
  | none, some scalar => scalar.naturalType
  | none, none => .nvarchar

/-- The value that a command text sees, converted to the type of the parameter. -/
def toValue (p : Parameter) : Except Error Value :=
  match p.value with
  | none => .ok (.null p.type)
  | some scalar => (Value.ofScalar scalar).convert p.type

end Parameter

namespace Parameters

/-- The place of the parameter that is found under a name, with or without an `@`. -/
def position? (ps : Parameters) (name : String) : Option Nat :=
  ps.findIdx? fun p => Collation.sameName p.name (Parameter.bareName name)

/-- The parameter that is found under a name. -/
def get? (ps : Parameters) (name : String) : Option Parameter :=
  (ps.position? name).bind (ps[·]?)

/-- Adds a parameter, in place of the one that is found under its name. -/
def add (ps : Parameters) (p : Parameter) : Parameters :=
  match ps.position? p.name with
  | some place => ps.set place p
  | none => ps ++ [p]

/-- Changes the parameter that is found under a name. -/
def modify (ps : Parameters) (name : String) (change : Parameter → Parameter) : Parameters :=
  match ps.position? name with
  | some place => List.modify ps place change
  | none => ps

/-- Removes the parameter that is found under a name. -/
def remove (ps : Parameters) (name : String) : Parameters :=
  match ps.position? name with
  | some place => ps.eraseIdx place
  | none => ps

/-- The values of all parameters, as a command text sees them. -/
def bindings (ps : Parameters) : Except Error Bindings :=
  ps.foldlM (fun bound p => do
    let value ← p.toValue
    .ok (bound.insert p.name value)) Bindings.none

end Parameters
end TransactSql
