/-!
# Sets of characters given by ranges

A character property is a table of inclusive ranges of code points. Membership is the only
operation, so a table may list its ranges in any order.
-/

set_option autoImplicit false

namespace FieldQuery.Text

/-- Inclusive ranges of code points, each written as its first and its last member. -/
abbrev CodeRanges := List (Nat × Nat)

def CodeRanges.has (ranges : CodeRanges) (character : Char) : Bool :=
  ranges.any fun (first, last) => first ≤ character.toNat && character.toNat ≤ last

end FieldQuery.Text
