/-
TransactSql.Collation.Basic — how names and texts compare.

A `Collation` orders texts, says which of them are the same name, and
gives each a hash code. `folding` builds one from any mapping of
characters to sequences of characters and any hash code of characters:
texts compare as their mapped characters do, one after the other.
`caseInsensitive` is the collation of all names and all stored texts here;
it maps characters to lower case. A hash code only says where a map looks
for a name, so which one is used is seen in no answer.
-/
import TransactSql.Unicode.Lowercase

namespace TransactSql

/-- An order of texts with an equality and a hash code that go with it. -/
structure Collation where
  name : String
  compare : String → String → Ordering
  equals : String → String → Bool
  hash : String → UInt64

namespace Collation

/-- All characters of a text are ASCII. -/
def isAscii (text : String) : Bool :=
  text.toList.all fun c => c.toNat < 128

/-- A text with its ASCII capitals made small. -/
def asciiLowercase (text : String) : List Char :=
  text.toList.map Char.toLower

/-- The characters that a text is compared by. -/
def foldText (fold : Char → List Char) (text : String) : List Char :=
  text.toList.flatMap fold

/-- The order of the folded characters. -/
def foldCompare (fold : Char → List Char) (left right : String) : Ordering :=
  Ord.compare (foldText fold left) (foldText fold right)

/-- The texts fold to the same characters. Two ASCII texts are compared without folding. -/
def foldEquals (fold : Char → List Char) (left right : String) : Bool :=
  if isAscii left && isAscii right then asciiLowercase left == asciiLowercase right
  else foldCompare fold left right == .eq

/-- The collation that compares texts by their folded characters, and takes the hash code of
these. -/
def folding (name : String) (fold : Char → List Char) (hash : List Char → UInt64) : Collation where
  name := name
  compare := foldCompare fold
  equals := foldEquals fold
  hash text := hash (foldText fold text)

/-- The odd number that hash codes are built from. -/
def hashFactor : UInt64 := 0xf1357aea2e62a9c5

/-- A hash code of characters: each is added, and the sum is multiplied by a fixed factor. -/
def hashCharacters (characters : List Char) : UInt64 :=
  characters.foldl (fun code c => (code + c.val.toUInt64) * hashFactor) 0

/-- The collation that ignores case. -/
def caseInsensitive : Collation :=
  folding "SQL_Latin1_General_CP1_CI_AS" Unicode.lowercase hashCharacters

/-- Two names are the same. -/
def sameName (left right : String) : Bool :=
  caseInsensitive.equals left right

/-- The place of the first of the names that is the same as the given one. -/
def indexOf? (names : List String) (name : String) : Option Nat :=
  names.findIdx? fun candidate => sameName candidate name

end Collation
end TransactSql
