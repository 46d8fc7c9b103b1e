/-
TransactSql.Binary64.Reading — floating point numbers in decimal notation, read.

The text of a number is a sequence of digits with at most one decimal
point in it, at least one digit, and then perhaps an exponent: the letter
`e` in either case, an optional sign and digits. A sign may come first.
The words `inf`, `infinity` and `nan`, in any case, are read as well.
The number read is the one nearest to what the text denotes.
-/
import TransactSql.Numeral
import TransactSql.Binary64.Arithmetic

namespace TransactSql.Binary64

/-- Digits, and the power of ten by which the number that they write is multiplied. -/
structure Decimal where
  digits : List Char
  exponent : Int

namespace Decimal

/-- The digits after the leading zeros. -/
def significant (d : Decimal) : List Char :=
  d.digits.dropWhile (· == '0')

/-- The decimal point stands this many places to the right of the first significant digit, so the
number is less than ten to this power. -/
def scale (d : Decimal) : Int :=
  d.significant.length + d.exponent

/-- The magnitude nearest to the number. What is at least 10^309 is infinite, and what is less
than 10^-324 is nearest to zero; only between these is the power of ten computed. -/
def magnitude (d : Decimal) : Nat :=
  let value := Numeral.natValue d.significant
  if d.significant.isEmpty || d.scale < -323 then 0
  else if 309 < d.scale then infinityMagnitude
  else if 0 ≤ d.exponent then roundUnits (value * Nat.pow 10 d.exponent.toNat * unitsPerOne) 1
  else roundUnits (value * unitsPerOne) (Nat.pow 10 (-d.exponent).toNat)

/-- Reads the exponent after the digits: nothing at all, or the letter and an integer. -/
def readExponent? : List Char → Option Int
  | [] => some 0
  | c :: rest => if c == 'e' || c == 'E' then Numeral.readInt? rest else none

/-- Reads an unsigned decimal number. -/
def read? (text : List Char) : Option Decimal :=
  let whole := text.takeWhile Char.isDigit
  let rest := text.dropWhile Char.isDigit
  let fraction := match rest with
    | '.' :: more => more.takeWhile Char.isDigit
    | _ => []
  let rest := match rest with
    | '.' :: more => more.dropWhile Char.isDigit
    | _ => rest
  let digits := whole ++ fraction
  if digits.isEmpty then none
  else (readExponent? rest).map fun exponent => ⟨digits, exponent - fraction.length⟩

end Decimal

/-- The magnitude that an unsigned text denotes. -/
def readMagnitude? (text : List Char) : Option Nat :=
  let word := text.map Char.toLower
  if word = ['i', 'n', 'f'] || word = ['i', 'n', 'f', 'i', 'n', 'i', 't', 'y'] then
    some infinity.magnitude
  else if word = ['n', 'a', 'n'] then some notANumber.magnitude
  else (Decimal.read? text).map Decimal.magnitude

/-- Reads a number, a word for an infinity or the word for no number. -/
def read? : List Char → Option Binary64
  | '-' :: text => (readMagnitude? text).map (ofMagnitude true)
  | '+' :: text => (readMagnitude? text).map (ofMagnitude false)
  | text => (readMagnitude? text).map (ofMagnitude false)

end TransactSql.Binary64
