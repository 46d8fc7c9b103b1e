/-
TransactSql.Unicode.Blank — blank characters and trimming.

A blank is one of the 25 characters with the Unicode property
White_Space; a zero width space is none. `trim` removes the blanks on
both sides of a text.
-/
namespace TransactSql.Unicode

/-- The character has the property White_Space. -/
def isBlank (c : Char) : Bool :=
  let code := c.toNat
  (9 ≤ code && code ≤ 13) || code == 0x20 || code == 0x85 || code == 0xa0 || code == 0x1680 ||
    (0x2000 ≤ code && code ≤ 0x200a) || code == 0x2028 || code == 0x2029 || code == 0x202f ||
    code == 0x205f || code == 0x3000

/-- A text without the blanks at its start and at its end. -/
def trim (text : List Char) : List Char :=
  ((text.dropWhile isBlank).reverse.dropWhile isBlank).reverse

end TransactSql.Unicode
