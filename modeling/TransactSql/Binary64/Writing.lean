/-
TransactSql.Binary64.Writing — floating point numbers in decimal notation, written.

A finite number is written with the fewest significant digits that read
back as the same number; among those it is the nearest, and of two
equally near ones the greater. The notation is always positional: zeros
fill the places up to the decimal point, and there is no exponent and no
point in a whole number.

`shortest` finds the digits. On the grid of numbers with a given count of
digits it looks at the two neighbours of the number; if any point of the
grid reads back as the number, one of these two does. So it takes the
first count, from one to seventeen, for which a neighbour reads back.
-/
import TransactSql.Numeral
import TransactSql.Binary64.Basic

namespace TransactSql.Binary64

/-! ## The digits -/

/-- A positive number of units, and twice the limits between which every number is rounded to it:
the middles between it and its neighbours. The limits themselves are rounded to it if its last
bit is zero. -/
structure Rounding where
  units : Nat
  twiceLow : Nat
  twiceHigh : Nat
  closed : Bool

/-- The numbers that are rounded to a positive magnitude. -/
def roundingOf (magnitude : Nat) : Rounding :=
  let units := unitsOfMagnitude magnitude
  { units
    twiceLow := unitsOfMagnitude (magnitude - 1) + units
    twiceHigh := units + unitsOfMagnitude (magnitude + 1)
    closed := magnitude % 2 == 0 }

namespace Rounding

/-- The number of units `twice / (2 * scale)` is rounded to this number. -/
def holds (r : Rounding) (twice scale : Nat) : Bool :=
  if r.closed then r.twiceLow * scale ≤ twice && twice ≤ r.twiceHigh * scale
  else r.twiceLow * scale < twice && twice < r.twiceHigh * scale

end Rounding

/-- Looks for a number with the given unit in the last place, `10 ^ exponent`, that is rounded to
this one. -/
def onGrid? (r : Rounding) (exponent : Int) : Option Nat :=
  let scale := Nat.pow 10 (-exponent).toNat
  let step := unitsPerOne * Nat.pow 10 exponent.toNat
  let below := r.units * scale / step
  let gap := r.units * scale % step
  let belowHolds := r.holds (2 * below * step) scale
  let aboveHolds := r.holds (2 * (below + 1) * step) scale
  if belowHolds && aboveHolds then some (if 2 * gap < step then below else below + 1)
  else if belowHolds then some below
  else if aboveHolds then some (below + 1)
  else none

/-- The exponent of the leading decimal digit of a positive number of units. A unit is more than
10^-340. -/
def leadingExponent (units : Nat) : Int :=
  let digits := Numeral.natDigits (units * Nat.pow 10 340 / unitsPerOne)
  (digits.length : Int) - 341

/-- The fewest digits, and the power of ten of the last one. Seventeen digits always suffice. -/
def shortest (magnitude : Nat) : Nat × Int :=
  let r := roundingOf magnitude
  let leading := leadingExponent r.units
  let found := (List.range 17).findSome? fun (more : Nat) =>
    let exponent := leading - (more : Int)
    (onGrid? r exponent).map fun digits => (digits, exponent)
  found.getD (0, 0)

/-! ## The notation -/

/-- A text without the zeros at its end. -/
def dropTrailingZeros (text : List Char) : List Char :=
  (text.reverse.dropWhile (· == '0')).reverse

/-- A whole number times a power of ten in positional notation. -/
def positional (digits : Nat) (exponent : Int) : List Char :=
  let text := Numeral.natDigits digits
  if 0 ≤ exponent then text ++ List.replicate exponent.toNat '0'
  else
    let places := (-exponent).toNat
    let padded := List.replicate (places + 1 - text.length) '0' ++ text
    let whole := padded.take (padded.length - places)
    let fraction := dropTrailingZeros (padded.drop (padded.length - places))
    if fraction.isEmpty then whole else whole ++ '.' :: fraction

/-- The text of a magnitude. -/
def magnitudeText (magnitude : Nat) : List Char :=
  if magnitude = 0 then ['0']
  else if magnitude = infinityMagnitude then ['i', 'n', 'f']
  else
    let (digits, exponent) := shortest magnitude
    positional digits exponent

/-- The text of a number. A word that denotes no number is written without its sign. -/
def text (x : Binary64) : List Char :=
  if x.isNaN then ['N', 'a', 'N']
  else if x.negative then '-' :: magnitudeText x.magnitude
  else magnitudeText x.magnitude

end TransactSql.Binary64
