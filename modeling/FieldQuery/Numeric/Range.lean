/-!
# Ranges of 64-bit words

The integers that fit a signed or an unsigned word, and powers of two and ten as natural numbers.
-/

set_option autoImplicit false

namespace FieldQuery.Numeric

abbrev InInt64 (value : Int) : Prop :=
  -9223372036854775808 ≤ value ∧ value ≤ 9223372036854775807

abbrev InUInt64 (value : Int) : Prop := 0 ≤ value ∧ value ≤ 18446744073709551615

theorem inInt64_toInt (value : Int64) : InInt64 value.toInt := by
  have lower := value.le_toInt
  have upper := value.toInt_lt
  exact ⟨by omega, by omega⟩

theorem inUInt64_toNat (value : UInt64) : InUInt64 value.toNat := by
  have upper := value.toNat_lt
  exact ⟨by omega, by omega⟩

def twoTo (exponent : Nat) : Nat := Nat.pow 2 exponent

def tenTo (exponent : Nat) : Nat := Nat.pow 10 exponent

end FieldQuery.Numeric
