/-
TransactSql.Binary64.Basic — 64-bit floating point numbers, by their bits.

A `Binary64` is a word of 64 bits: one for the sign, eleven for the
exponent and 52 for the fraction. Without its sign bit the word is the
*magnitude*, and magnitudes are ordered as the numbers that they denote.
Every finite number is a whole multiple of 2^-1074, the least positive
one; `units` says which multiple. So all arithmetic is on whole numbers
and no machine operation is trusted.

The order `compare` is total on the words: it tells a negative zero from
a positive one and puts the words that denote no number at the two ends.
-/
namespace TransactSql

/-- A binary floating point number of 64 bits. -/
structure Binary64 where
  bits : UInt64
deriving DecidableEq

namespace Binary64

/-- How many units make one. -/
def unitsPerOne : Nat := Nat.pow 2 1074

/-- The weight of the sign bit in a word. -/
def signWeight : Nat := Nat.pow 2 63

/-- The weight of the last bit of the exponent: so many magnitudes have one exponent. -/
def exponentStep : Nat := Nat.pow 2 52

/-- The magnitude of the infinities; every greater one denotes no number. -/
def infinityMagnitude : Nat := 2047 * exponentStep

/-- The sign bit is set. -/
def negative (x : Binary64) : Bool := signWeight ≤ x.bits.toNat

/-- The word without its sign bit. -/
def magnitude (x : Binary64) : Nat := x.bits.toNat % signWeight

/-- The word with a given sign and magnitude. -/
def ofMagnitude (negative : Bool) (magnitude : Nat) : Binary64 :=
  ⟨UInt64.ofNat ((if negative then signWeight else 0) + magnitude)⟩

def zero : Binary64 := ofMagnitude false 0

def infinity : Binary64 := ofMagnitude false infinityMagnitude

/-- The usual word that denotes no number. -/
def notANumber : Binary64 := ofMagnitude false (infinityMagnitude + exponentStep / 2)

def isFinite (x : Binary64) : Bool := x.magnitude < infinityMagnitude

/-- The word denotes neither a number nor an infinity. -/
def isNaN (x : Binary64) : Bool := infinityMagnitude < x.magnitude

/-- The number is a zero of either sign. -/
def isZero (x : Binary64) : Bool := x.magnitude == 0

/-- A finite number as it is; nothing for any other word. -/
def finite? (x : Binary64) : Option Binary64 :=
  if x.isFinite then some x else none

/-- The number of units that a magnitude denotes. -/
def unitsOfMagnitude (magnitude : Nat) : Nat :=
  let exponent := magnitude / exponentStep
  let fraction := magnitude % exponentStep
  if exponent = 0 then fraction else (exponentStep + fraction) * Nat.pow 2 (exponent - 1)

/-- A finite number in units. -/
def units (x : Binary64) : Int :=
  if x.negative then -(unitsOfMagnitude x.magnitude : Int) else unitsOfMagnitude x.magnitude

/-- The whole part of a finite number: the fraction is cut off. -/
def truncate (x : Binary64) : Int :=
  x.units.tdiv unitsPerOne

/-- The number with its sign changed. -/
def negate (x : Binary64) : Binary64 := ofMagnitude (!x.negative) x.magnitude

/-- The number with its sign removed. -/
def abs (x : Binary64) : Binary64 := ofMagnitude false x.magnitude

/-- The place of a word in the total order: negative words come first, the greatest magnitude
before all others, and the negative zero stands just below the positive one. -/
def orderKey (x : Binary64) : Int :=
  if x.negative then -(x.magnitude : Int) - 1 else x.magnitude

/-- The total order of the words. -/
def compare (x y : Binary64) : Ordering :=
  Ord.compare x.orderKey y.orderKey

end Binary64
end TransactSql
