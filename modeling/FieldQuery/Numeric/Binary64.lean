import FieldQuery.Numeric.Range

/-!
# Binary floating-point numbers

The 64-bit format: a sign, eleven bits of exponent and fifty-two bits of fraction. A number is
its bits, so that equality in the logic tells apart the two zeros and all the forms of "not a
number"; `sameNumber` is the comparison of numbers.
-/

set_option autoImplicit false

namespace FieldQuery.Numeric

/-- A floating-point number, given by its bits with the sign first. -/
structure Binary64 where
  bits : UInt64
  deriving DecidableEq

namespace Binary64

instance : Inhabited Binary64 := ⟨⟨0⟩⟩

def isNegative (number : Binary64) : Bool := decide (twoTo 63 ≤ number.bits.toNat)

/-- The bits without the sign, as a natural number; they ascend with the absolute value. -/
def magnitude (number : Binary64) : Nat := number.bits.toNat % twoTo 63

def biasedExponent (number : Binary64) : Nat := number.magnitude / twoTo 52

def fraction (number : Binary64) : Nat := number.magnitude % twoTo 52

def isFinite (number : Binary64) : Bool := decide (number.biasedExponent < 2047)

def isNaN (number : Binary64) : Bool :=
  decide (number.biasedExponent = 2047) && decide (number.fraction ≠ 0)

def isZero (number : Binary64) : Bool := decide (number.magnitude = 0)

/-- The integer that, times `2 ^ exponent`, gives the absolute value of a finite number. -/
def significand (number : Binary64) : Nat :=
  if number.biasedExponent = 0 then number.fraction else twoTo 52 + number.fraction

/-- The exponent of the last place of a finite number. -/
def exponent (number : Binary64) : Int := (max number.biasedExponent 1 : Nat) - 1075

/-- Comparison of numbers: "not a number" equals nothing, and the two zeros are equal. -/
def sameNumber (left right : Binary64) : Bool :=
  !left.isNaN && !right.isNaN && (decide (left = right) || (left.isZero && right.isZero))

def negate (number : Binary64) : Binary64 := ⟨number.bits ^^^ 0x8000000000000000⟩

end Binary64

end FieldQuery.Numeric
