import FieldQuery.Numeric.Binary64

/-!
# Rounding to floating-point numbers

The floating-point number nearest to a quotient of natural numbers; of two that are equally near,
the one with the even significand. Products and quotients of numbers are rounded exact results,
so each operation rounds once.
-/

set_option autoImplicit false

namespace FieldQuery.Numeric

/-- The integer nearest to a quotient; of two that are equally near, the even one. -/
def nearestInteger (numerator denominator : Nat) : Nat :=
  let floor := numerator / denominator
  let twiceRest := 2 * (numerator % denominator)
  if twiceRest < denominator then floor
  else if denominator < twiceRest then floor + 1
  else floor + floor % 2

/-- The greatest integer power of two that is not above a positive quotient, as its exponent. -/
def binaryOrder (numerator denominator : Nat) : Int :=
  let estimate : Int := (numerator.log2 : Int) - denominator.log2
  if denominator * twoTo estimate.toNat ≤ numerator * twoTo (-estimate).toNat then estimate
  else estimate - 1

namespace Binary64

def infinityMagnitude : Nat := 2047 * twoTo 52

/-- The positive number nearest to a quotient, infinite when the quotient is out of range. -/
def ofQuotient (numerator denominator : Nat) : Binary64 :=
  if numerator = 0 then ⟨0⟩
  else
    let lastPlace : Int := max (binaryOrder numerator denominator - 52) (-1074)
    let significand :=
      nearestInteger (numerator * twoTo (-lastPlace).toNat) (denominator * twoTo lastPlace.toNat)
    let magnitude := (lastPlace + 1074).toNat * twoTo 52 + significand
    ⟨UInt64.ofNat (min magnitude infinityMagnitude)⟩

def quotient (number : Binary64) : Nat × Nat :=
  (number.significand * twoTo number.exponent.toNat, twoTo (-number.exponent).toNat)

def times (left right : Binary64) : Binary64 :=
  ofQuotient (left.quotient.1 * right.quotient.1) (left.quotient.2 * right.quotient.2)

def dividedBy (left right : Binary64) : Binary64 :=
  ofQuotient (left.quotient.1 * right.quotient.2) (left.quotient.2 * right.quotient.1)

end Binary64

end FieldQuery.Numeric
