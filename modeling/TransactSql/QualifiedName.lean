/-
TransactSql.QualifiedName — names with qualifiers before them.

A table or a column may be written with any number of qualifiers, as in
`dbo.people`. Only the last part takes part in finding it.
-/
namespace TransactSql

/-- The parts of a name, in the order in which they are written. -/
abbrev QualifiedName := List String

namespace QualifiedName

/-- The part that names the object itself. -/
def last (name : QualifiedName) : String := name.getLast?.getD ""

/-- The whole name, with dots between its parts. -/
def toText (name : QualifiedName) : String := ".".intercalate name

end QualifiedName
end TransactSql
