/-
TransactSql.Binary64.Arithmetic — rounding and the four operations.

`roundUnits` takes a quotient of two whole numbers, in units of 2^-1074,
to the nearest magnitude; of two equally near ones it takes the one whose
last bit is zero, and what lies beyond the greatest finite number becomes
infinite. Each operation computes its exact result on whole numbers and
rounds once. The operations answer nothing where the result is not a
finite number.
-/
import TransactSql.Binary64.Basic

namespace TransactSql.Binary64

/-- A quotient rounded to the nearest whole number; a half goes to the even neighbour. -/
def divideToEven (numerator denominator : Nat) : Nat :=
  let quotient := numerator / denominator
  let remainder := numerator % denominator
  if 2 * remainder < denominator then quotient
  else if denominator < 2 * remainder then quotient + 1
  else quotient + quotient % 2

/-- The magnitude nearest to a quotient of units. The quotient keeps 53 binary digits; `excess`
counts the ones beyond them, and each moves the exponent up by one. -/
def roundUnits (numerator denominator : Nat) : Nat :=
  let excess := (numerator / denominator).log2 - 52
  let rounded := divideToEven numerator (denominator * Nat.pow 2 excess)
  min (excess * exponentStep + rounded) infinityMagnitude

/-- The number nearest to an integer. -/
def ofInt (i : Int) : Binary64 :=
  ofMagnitude (i < 0) (roundUnits (i.natAbs * unitsPerOne) 1)

/-- The sum of two finite numbers, if it is finite. A sum of nothing is a negative zero only if
both numbers are negative. -/
def add? (x y : Binary64) : Option Binary64 :=
  if x.isFinite && y.isFinite then
    let sum := x.units + y.units
    let negative := if sum = 0 then x.negative && y.negative else sum < 0
    (ofMagnitude negative (roundUnits sum.natAbs 1)).finite?
  else none

/-- The difference of two finite numbers, if it is finite. -/
def sub? (x y : Binary64) : Option Binary64 :=
  x.add? y.negate

/-- The product of two finite numbers, if it is finite. -/
def mul? (x y : Binary64) : Option Binary64 :=
  if x.isFinite && y.isFinite then
    let product := x.units.natAbs * y.units.natAbs
    (ofMagnitude (x.negative != y.negative) (roundUnits product unitsPerOne)).finite?
  else none

/-- The quotient of a finite number by a number other than zero, if it is finite. An infinite
divisor leaves a zero. -/
def div? (x y : Binary64) : Option Binary64 :=
  if x.isFinite && !y.isNaN && !y.isZero then
    let magnitude :=
      if y.isFinite then roundUnits (x.units.natAbs * unitsPerOne) y.units.natAbs else 0
    (ofMagnitude (x.negative != y.negative) magnitude).finite?
  else none

/-! ## Only finite results -/

theorem isFinite_of_finite? {x y : Binary64} (h : x.finite? = some y) : y.isFinite = true := by
  unfold finite? at h
  split at h
  · next finite => cases h; exact finite
  · cases h

theorem isFinite_of_add? {x y z : Binary64} (h : x.add? y = some z) : z.isFinite = true := by
  unfold add? at h
  split at h
  · exact isFinite_of_finite? h
  · cases h

theorem isFinite_of_mul? {x y z : Binary64} (h : x.mul? y = some z) : z.isFinite = true := by
  unfold mul? at h
  split at h
  · exact isFinite_of_finite? h
  · cases h

theorem isFinite_of_div? {x y z : Binary64} (h : x.div? y = some z) : z.isFinite = true := by
  unfold div? at h
  split at h
  · exact isFinite_of_finite? h
  · cases h

end TransactSql.Binary64
