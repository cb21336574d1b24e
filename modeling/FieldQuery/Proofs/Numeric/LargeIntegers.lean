import FieldQuery.Numeric.Rounding

/-!
# Integers beyond the signed words as floating-point numbers

An unsigned word that is not a signed one lies between two to the power of 63 and of 64. There the
floating-point numbers are the multiples of 2048, so such a word becomes the nearest of these.
-/

set_option autoImplicit false

namespace FieldQuery.Numeric

def BeyondInt64 (value : Nat) : Prop := twoTo 63 ≤ value ∧ value < twoTo 64

variable {value : Nat}

theorem twoTo_0 : twoTo 0 = 1 := rfl

theorem twoTo_52 : twoTo 52 = 4503599627370496 := rfl

theorem twoTo_63 : twoTo 63 = 9223372036854775808 := rfl

theorem twoTo_64 : twoTo 64 = 18446744073709551616 := rfl

theorem beyondInt64_iff :
    BeyondInt64 value ↔ 9223372036854775808 ≤ value ∧ value < 18446744073709551616 := by
  rw [BeyondInt64, twoTo_63, twoTo_64]

theorem binaryOrder_of_beyondInt64 (beyond : BeyondInt64 value) : binaryOrder value 1 = 63 := by
  have order : value.log2 = 63 := by
    rw [Nat.log2_eq_iff (by have := beyond.1; rw [twoTo_63] at this; omega)]
    exact beyond
  have reached : 1 * twoTo 63 ≤ value * twoTo 0 := by
    rw [Nat.one_mul, twoTo_0, Nat.mul_one]
    exact beyond.1
  have estimate : ((value.log2 : Int) - ((1 : Nat).log2 : Int)) = 63 := by
    rw [order]
    rfl
  simp only [binaryOrder, estimate]
  exact if_pos reached

/-- The nearest multiple of 2048 lies between the same powers of two. -/
theorem nearestInteger_bounds (beyond : BeyondInt64 value) :
    4503599627370496 ≤ nearestInteger value 2048 ∧
      nearestInteger value 2048 ≤ 9007199254740992 := by
  obtain ⟨lower, upper⟩ := beyondInt64_iff.mp beyond
  simp only [nearestInteger]
  split
  · omega
  · split <;> omega

theorem bits_ofQuotient (beyond : BeyondInt64 value) :
    (Binary64.ofQuotient value 1).bits.toNat =
      1085 * 4503599627370496 + nearestInteger value 2048 := by
  obtain ⟨lower, upper⟩ := nearestInteger_bounds beyond
  have positive : value ≠ 0 := by
    have := (beyondInt64_iff.mp beyond).1
    omega
  have places : max (binaryOrder value 1 - 52) (-1074) = 11 := by
    rw [binaryOrder_of_beyondInt64 beyond]
    rfl
  have small : (11 + 1074 : Int).toNat * twoTo 52 + nearestInteger value 2048 =
      1085 * 4503599627370496 + nearestInteger value 2048 := rfl
  have scaled : nearestInteger (value * twoTo (-(11 : Int)).toNat) (1 * twoTo (11 : Int).toNat) =
      nearestInteger value 2048 := by
    have unscaled : twoTo (-(11 : Int)).toNat = 1 := rfl
    have unit : 1 * twoTo (11 : Int).toNat = 2048 := rfl
    rw [unscaled, unit, Nat.mul_one]
  have infinity : Binary64.infinityMagnitude = 2047 * 4503599627370496 := rfl
  simp only [Binary64.ofQuotient, if_neg positive, places, scaled, small, infinity]
  rw [Nat.min_eq_left (by omega)]
  exact UInt64.toNat_ofNat_of_lt' (by rw [UInt64.size]; omega)

theorem isFinite_ofQuotient (beyond : BeyondInt64 value) :
    (Binary64.ofQuotient value 1).isFinite = true := by
  obtain ⟨lower, upper⟩ := nearestInteger_bounds beyond
  simp only [Binary64.isFinite, Binary64.biasedExponent, Binary64.magnitude,
    bits_ofQuotient beyond, twoTo_52, twoTo_63, decide_eq_true_eq]
  omega

theorem isNegative_ofQuotient (beyond : BeyondInt64 value) :
    (Binary64.ofQuotient value 1).isNegative = false := by
  obtain ⟨lower, upper⟩ := nearestInteger_bounds beyond
  simp only [Binary64.isNegative, bits_ofQuotient beyond, twoTo_63, decide_eq_false_iff_not]
  omega

/-- A word beyond the signed ones becomes the nearest multiple of 2048, the even one of two. -/
theorem quotient_ofQuotient (beyond : BeyondInt64 value) :
    (Binary64.ofQuotient value 1).quotient = (2048 * nearestInteger value 2048, 1) := by
  obtain ⟨lower, upper⟩ := nearestInteger_bounds beyond
  have magnitude : (Binary64.ofQuotient value 1).magnitude =
      1085 * 4503599627370496 + nearestInteger value 2048 := by
    rw [Binary64.magnitude, bits_ofQuotient beyond, twoTo_63]
    omega
  by_cases carried : nearestInteger value 2048 = 9007199254740992
  · have biased : (Binary64.ofQuotient value 1).biasedExponent = 1087 := by
      rw [Binary64.biasedExponent, magnitude, twoTo_52]
      omega
    have fraction : (Binary64.ofQuotient value 1).fraction = 0 := by
      rw [Binary64.fraction, magnitude, twoTo_52]
      omega
    rw [Binary64.quotient, Binary64.significand, Binary64.exponent, biased, fraction, carried]
    rfl
  · have biased : (Binary64.ofQuotient value 1).biasedExponent = 1086 := by
      rw [Binary64.biasedExponent, magnitude, twoTo_52]
      omega
    have fraction : (Binary64.ofQuotient value 1).fraction =
        nearestInteger value 2048 - 4503599627370496 := by
      rw [Binary64.fraction, magnitude, twoTo_52]
      omega
    have exponent : (Binary64.ofQuotient value 1).exponent = 11 := by
      rw [Binary64.exponent, biased]
      rfl
    have significand : (Binary64.ofQuotient value 1).significand = nearestInteger value 2048 := by
      rw [Binary64.significand, biased, fraction, twoTo_52, if_neg (by decide)]
      omega
    rw [Binary64.quotient, significand, exponent, Nat.mul_comm]
    rfl

end FieldQuery.Numeric
