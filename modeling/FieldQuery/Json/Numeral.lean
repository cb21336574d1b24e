import FieldQuery.Json.Basic
import FieldQuery.Json.Reading
import FieldQuery.Numeric.Rounding

/-!
# Numerals of JSON texts

A numeral has an optional sign, digits without leading zeros, and optionally a fraction and an
exponent. Without these two it is an integer if it fits 64 bits; every other numeral is a
floating-point number, and so is `-0`.

A floating-point numeral is not rounded correctly in all cases. Its leading digits, as many as
fit an unsigned 64-bit integer, are rounded first, and the result is multiplied or divided by
rounded powers of ten of at most `1e308` each.
-/

set_option autoImplicit false

namespace FieldQuery.Json

open Numeric

structure Numeral where
  negative : Bool
  whole : List Char
  /-- The digits behind the point; none if there is no point. -/
  fraction : List Char
  exponent : Option Int

namespace Numeral

/-- The part of the digits from the first non-digit on is not longer. -/
theorem length_dropWhile_isDigit_le (input : List Char) :
    (input.dropWhile Char.isDigit).length ≤ input.length :=
  (List.dropWhile_suffix Char.isDigit).length_le

/-- Reads one or more digits. A text that ends before the first one has the fault `missing`. -/
def readDigits (missing : Fault) : Reader (List Char)
  | [] => .error missing
  | character :: rest =>
      if character.isDigit then
        .ok ⟨character :: rest.takeWhile Char.isDigit, rest.dropWhile Char.isDigit,
          Nat.lt_succ_of_le (length_dropWhile_isDigit_le rest)⟩
      else .error .malformed

/-- The digits before the point: a zero stands alone. -/
def readWhole (missing : Fault) (input : List Char) :
    Except Fault (Reading (List Char) input) := do
  let digits ← readDigits missing input
  match digits.value with
  | '0' :: _ :: _ => throw .malformed
  | _ => return digits

def readFraction (missing : Fault) (input : List Char) :
    Except Fault { found : List Char × List Char // found.2.length ≤ input.length } :=
  match input with
  | '.' :: rest => do
      let digits ← readDigits missing rest
      return ⟨(digits.value, digits.rest), Nat.le_succ_of_le (Nat.le_of_lt digits.shorter)⟩
  | input => .ok ⟨([], input), Nat.le_refl _⟩

def readExponentValue (missing : Fault) : Reader Int
  | '+' :: rest => do
      let digits ← readDigits missing rest
      return (digits.map fun digits => (Nat.ofDigitChars 10 digits 0 : Int)).behindOne
  | '-' :: rest => do
      let digits ← readDigits missing rest
      return (digits.map fun digits => -(Nat.ofDigitChars 10 digits 0 : Int)).behindOne
  | input => do
      let digits ← readDigits missing input
      return digits.map fun digits => (Nat.ofDigitChars 10 digits 0 : Int)

def readExponent (missing : Fault) (input : List Char) :
    Except Fault { found : Option Int × List Char // found.2.length ≤ input.length } :=
  match input with
  | 'e' :: rest | 'E' :: rest => do
      let exponent ← readExponentValue missing rest
      return ⟨(some exponent.value, exponent.rest),
        Nat.le_succ_of_le (Nat.le_of_lt exponent.shorter)⟩
  | input => .ok ⟨(none, input), Nat.le_refl _⟩

/-- Reads a numeral behind its sign. A text that ends where a digit is due has the fault
`missing`. -/
def readUnsigned (missing : Fault) (negative : Bool) (input : List Char) :
    Except Fault (Reading Numeral input) := do
  let whole ← readWhole missing input
  let ⟨(fraction, afterFraction), fractionBound⟩ ← readFraction missing whole.rest
  let ⟨(exponent, rest), exponentBound⟩ ← readExponent missing afterFraction
  return ⟨⟨negative, whole.value, fraction, exponent⟩, rest,
    Nat.lt_of_le_of_lt (Nat.le_trans exponentBound fractionBound) whole.shorter⟩

def read (missing : Fault) : Reader Numeral
  | '-' :: rest => do
      let numeral ← readUnsigned missing true rest
      return numeral.behindOne
  | input => readUnsigned missing false input

/-- The leading digits appended to a significand, as many as fit 64 bits, and the digits left. -/
def appendDigits (significand : Nat) : List Char → Nat × List Char
  | [] => (significand, [])
  | digit :: rest =>
      let longer := 10 * significand + (digit.toNat - '0'.toNat)
      if longer < twoTo 64 then appendDigits longer rest else (significand, digit :: rest)

def powerOfTen (exponent : Nat) : Binary64 := .ofQuotient (tenTo exponent) 1

def scale (number : Binary64) (exponent : Int) : Option Binary64 :=
  if 308 < exponent then if number.isZero then some number else none
  else if 0 ≤ exponent then
    let product := number.times (powerOfTen exponent.toNat)
    if product.isFinite then some product else none
  else if -308 ≤ exponent then some (number.dividedBy (powerOfTen (-exponent).toNat))
  else if number.isZero then some number
  else scale (number.dividedBy (powerOfTen 308)) (exponent + 308)
termination_by (-exponent).toNat

def float? (negative : Bool) (magnitude : Option Binary64) : Option Number :=
  magnitude.bind fun magnitude =>
    let signed := if negative then magnitude.negate else magnitude
    if finite : signed.isFinite = true then some (.float signed finite) else none

/-- An integer with a sign; a floating-point number if it does not fit or is `-0`. -/
def integer? (negative : Bool) (magnitude : Nat) : Option Number :=
  let value : Int := if negative then -magnitude else magnitude
  if fits : (InInt64 value ∨ InUInt64 value) ∧ ¬ (negative = true ∧ magnitude = 0) then
    some (.integer value fits.1)
  else float? negative (some (.ofQuotient magnitude 1))

def number? (numeral : Numeral) : Option Number :=
  let (wholeSignificand, uncounted) := appendDigits 0 numeral.whole
  if uncounted.isEmpty && numeral.fraction.isEmpty && numeral.exponent.isNone then
    integer? numeral.negative wholeSignificand
  else
    let (significand, dropped) := appendDigits wholeSignificand numeral.fraction
    let places : Int := numeral.fraction.length - dropped.length
    let exponent : Int := uncounted.length - places + numeral.exponent.getD 0
    float? numeral.negative (scale (.ofQuotient significand 1) exponent)

end Numeral

end FieldQuery.Json
