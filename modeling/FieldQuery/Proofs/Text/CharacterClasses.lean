import FieldQuery.Text.Alphanumeric
import FieldQuery.Text.Blank

/-!
# Classes of characters that do not meet

Two tables of ranges are disjoint when no two of their ranges meet, which is decided on the tables.
So no letter or number of any script is a blank.
-/

set_option autoImplicit false

namespace FieldQuery.Text

/-- A character of a class is none of those outside of it. -/
theorem ne_of_accepts {accepts : Char → Bool} {character other : Char}
    (accepted : accepts character = true) (refused : accepts other = false) :
    character ≠ other := by
  rintro rfl
  rw [accepted] at refused
  cases refused

def CodeRanges.disjoint (left right : CodeRanges) : Bool :=
  left.all fun (first, last) => right.all fun (other, final) => last < other || final < first

theorem CodeRanges.has_eq_false_of_disjoint {left right : CodeRanges}
    (disjoint : left.disjoint right = true) {character : Char}
    (member : left.has character = true) : right.has character = false := by
  obtain ⟨⟨first, last⟩, range, within⟩ := List.any_eq_true.mp member
  simp only [Bool.and_eq_true, decide_eq_true_eq] at within
  have apart := List.all_eq_true.mp disjoint _ range
  refine List.any_eq_false.mpr ?_
  rintro ⟨other, final⟩ otherRange
  have separated := List.all_eq_true.mp apart _ otherRange
  simp only [Bool.or_eq_true, Bool.and_eq_true, decide_eq_true_eq] at separated ⊢
  omega

theorem isBlank_eq_false_of_isAlphanumeric {character : Char}
    (alphanumeric : isAlphanumeric character = true) : isBlank character = false := by
  simp only [isAlphanumeric] at alphanumeric
  split at alphanumeric
  · next ascii =>
      have table : ∀ code < 0x80, (Char.ofNat code).isAlphanum = true →
          isBlank (Char.ofNat code) = false := by decide
      have found := table character.toNat ascii
      rw [Char.ofNat_toNat] at found
      exact found alphanumeric
  · exact CodeRanges.has_eq_false_of_disjoint (by decide +kernel) alphanumeric

theorem isAlphanumeric_of_isDigit {character : Char} (digit : character.isDigit = true) :
    isAlphanumeric character = true := by
  have ascii : character.toNat < 0x80 := by
    simp only [Char.isDigit, Bool.and_eq_true, decide_eq_true_eq] at digit
    have upper : character.val.toNat ≤ 57 := UInt32.le_iff_toNat_le.mp digit.2
    exact Nat.lt_of_le_of_lt upper (by decide)
  rw [isAlphanumeric, if_pos ascii, Char.isAlphanum, digit, Bool.or_true]

end FieldQuery.Text
