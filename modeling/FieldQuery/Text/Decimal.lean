import FieldQuery.Numeric.Range

/-!
# Decimal notation of integers

Integers are written with a minus sign where needed and without leading zeros. Reading is more
liberal: one sign of either kind, then one or more ASCII digits, as long as the value fits.
-/

set_option autoImplicit false

namespace FieldQuery.Text

def decimal (value : Int) : String :=
  match value with
  | .ofNat magnitude => magnitude.repr
  | .negSucc predecessor => "-" ++ predecessor.succ.repr

def natural? (digits : List Char) : Option Nat :=
  if digits.isEmpty || !digits.all Char.isDigit then none else some (Nat.ofDigitChars 10 digits 0)

def signed? : List Char → Option Int
  | '-' :: digits => (natural? digits).map fun magnitude => -(magnitude : Int)
  | '+' :: digits => (natural? digits).map Int.ofNat
  | digits => (natural? digits).map Int.ofNat

def int64? (text : String) : Option Int64 :=
  (signed? text.toList).bind fun value =>
    if Numeric.InInt64 value then some (Int64.ofInt value) else none

/-- Reads an unsigned 64-bit integer, which may carry a plus sign but no minus sign. -/
def uint64? (text : String) : Option UInt64 :=
  let digits :=
    match text.toList with
    | '+' :: digits => digits
    | digits => digits
  (natural? digits).bind fun value =>
    if Numeric.InUInt64 value then some (UInt64.ofNat value) else none

end FieldQuery.Text
