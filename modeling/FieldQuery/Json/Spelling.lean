import FieldQuery.Numeric.Shortest
import FieldQuery.Text.Decimal

/-!
# Spelling of JSON scalars

Strings escape only what must be escaped. A floating-point number is written with the fewest
digits that read back to it: with a point while it is at least `1e-5` and below `1e16`, always
with a digit behind the point, and with a signed exponent outside that range.
-/

set_option autoImplicit false

namespace FieldQuery.Json

open Numeric

def booleanText (value : Bool) : String := if value then "true" else "false"

private def hexadecimalPair (code : Nat) : String :=
  String.ofList [Nat.digitChar (code / 16), Nat.digitChar (code % 16)]

def escaped (character : Char) : String :=
  if character = '"' then "\\\""
  else if character = '\\' then "\\\\"
  else if character = '\x08' then "\\b"
  else if character = '\t' then "\\t"
  else if character = '\n' then "\\n"
  else if character = '\x0c' then "\\f"
  else if character = '\r' then "\\r"
  else if character.toNat < 0x20 then "\\u00" ++ hexadecimalPair character.toNat
  else String.singleton character

def stringText (value : String) : String :=
  "\"" ++ String.join (value.toList.map escaped) ++ "\""

private def zeros (count : Nat) : String := String.ofList (List.replicate count '0')

/-- A decimal with a point: `point` digits stand before it, zeros filling up on either side. -/
private def pointText (digits : List Char) (point : Int) : String :=
  if point ≤ 0 then "0." ++ zeros (-point).toNat ++ String.ofList digits
  else if point < digits.length then
    String.ofList (digits.take point.toNat) ++ "." ++ String.ofList (digits.drop point.toNat)
  else String.ofList digits ++ zeros (point.toNat - digits.length) ++ ".0"

/-- A decimal with an exponent, which always has a sign. -/
private def exponentText (digits : List Char) (exponent : Int) : String :=
  let mantissa :=
    match digits with
    | first :: next :: rest => String.ofList [first, '.'] ++ String.ofList (next :: rest)
    | short => String.ofList short
  let sign := if exponent < 0 then "-" else "+"
  mantissa ++ "e" ++ sign ++ Text.decimal exponent.natAbs

def magnitudeText (number : Binary64) : String :=
  if number.isZero then "0.0"
  else
    let decimal := shortestDecimal number
    let digits := Nat.toDigits 10 decimal.digits
    let first := decimal.exponent + digits.length - 1
    if -5 ≤ first ∧ first < 16 then pointText digits (first + 1) else exponentText digits first

def floatText (number : Binary64) : String :=
  if number.isNegative then "-" ++ magnitudeText number else magnitudeText number

end FieldQuery.Json
