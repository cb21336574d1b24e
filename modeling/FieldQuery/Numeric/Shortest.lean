import FieldQuery.Numeric.Binary64

/-!
# Shortest decimals

The decimal with the fewest digits among those that read back as a given floating-point number;
of several the nearest to the number, and of two that are equally near the one whose last digit
is even.

A number is `significand * 2 ^ exponent`. The decimals that read back to it lie between the
midpoints to its neighbours, the midpoints included if the significand is even. On a grid of
powers of ten, a point of that interval exists only if one of the two grid points next to the
number is one, so two candidates are tried on each grid, from the coarsest grid to the finest.
-/

set_option autoImplicit false

namespace FieldQuery.Numeric

structure Decimal where
  digits : Nat
  exponent : Int
  deriving DecidableEq

namespace Shortest

/-- The candidate on the grid `10 ^ place` that reads back, if there is one. All lengths are
counted in a unit that makes both the grid and a quarter of the last place of the number whole. -/
def onGrid (significand : Nat) (exponent place : Int) : Option Nat :=
  let step := tenTo place.toNat * twoTo (2 - exponent).toNat
  let quarter := tenTo (-place).toNat * twoTo (exponent - 2).toNat
  let value := 4 * significand * quarter
  let lowerGap := if significand = twoTo 52 ∧ -1074 < exponent then quarter else 2 * quarter
  let lowest := value - lowerGap
  let highest := value + 2 * quarter
  let readsBack (point : Nat) : Bool :=
    if significand % 2 = 0 then decide (lowest ≤ point ∧ point ≤ highest)
    else decide (lowest < point ∧ point < highest)
  let below := value / step
  let above := below + 1
  match readsBack (below * step), readsBack (above * step) with
  | false, false => none
  | true, false => some below
  | false, true => some above
  | true, true =>
      let toBelow := value - below * step
      let toAbove := above * step - value
      if toBelow < toAbove then some below
      else if toAbove < toBelow then some above
      else some (below + below % 2)

/-- An exponent of ten not above that of the first digit, and at most two below it. -/
def orderEstimate (significand : Nat) (exponent : Int) : Int :=
  ((significand.log2 : Int) + exponent) * 30103 / 100000 - 1

def lessThanPower (significand : Nat) (exponent power : Int) : Bool :=
  decide (significand * twoTo exponent.toNat * tenTo (-power).toNat
    < twoTo (-exponent).toNat * tenTo power.toNat)

def order (significand : Nat) (exponent : Int) : Int :=
  let estimate := orderEstimate significand exponent
  if lessThanPower significand exponent (estimate + 1) then estimate
  else if lessThanPower significand exponent (estimate + 2) then estimate + 1
  else if lessThanPower significand exponent (estimate + 3) then estimate + 2
  else estimate + 3

def withoutTrailingZeros : Nat → Decimal → Decimal
  | 0, decimal => decimal
  | most + 1, decimal =>
      if decimal.digits % 10 = 0 then
        withoutTrailingZeros most ⟨decimal.digits / 10, decimal.exponent + 1⟩
      else decimal

end Shortest

/-- The shortest decimal of a positive number. Seventeen digits always suffice. -/
def shortestDecimal (number : Binary64) : Decimal :=
  let first := Shortest.order number.significand number.exponent
  let found := (List.range 17).findSome? fun (further : Nat) =>
    let place := first - (further : Int)
    (Shortest.onGrid number.significand number.exponent place).map fun digits =>
      (⟨digits, place⟩ : Decimal)
  Shortest.withoutTrailingZeros 17 (found.getD ⟨0, 0⟩)

end FieldQuery.Numeric
