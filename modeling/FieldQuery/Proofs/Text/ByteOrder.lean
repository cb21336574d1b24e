import Mathlib.Data.String.Basic
import Mathlib.Tactic.SplitIfs

/-!
# The order of UTF-8 bytes

Texts are compared character by character. Since the UTF-8 bytes of a smaller character come before
those of a greater one, whatever stands behind them, that is the order of the bytes.
-/

set_option autoImplicit false

namespace FieldQuery.Text

def bytes (text : String) : List UInt8 := text.toUTF8.data.toList

theorem bytes_eq_flatMap (text : String) :
    bytes text = text.toList.flatMap String.utf8EncodeChar := by
  have encoded : text.toUTF8 = (text.toList.flatMap String.utf8EncodeChar).toByteArray :=
    String.utf8Encode_toList.symm
  rw [bytes, encoded, List.toList_data_toByteArray]

theorem ofNat_cons_lt_iff {left right : Nat} (leftByte : left < 256) (rightByte : right < 256)
    (behindLeft behindRight : List UInt8) :
    UInt8.ofNat left :: behindLeft < UInt8.ofNat right :: behindRight ↔
      left < right ∨ left = right ∧ behindLeft < behindRight := by
  rw [List.cons_lt_cons_iff, UInt8.lt_iff_toNat_lt, ← UInt8.toNat_inj,
    UInt8.toNat_ofNat_of_lt' leftByte, UInt8.toNat_ofNat_of_lt' rightByte]

/-- The first byte in which two characters differ decides, whatever stands behind them. -/
theorem utf8EncodeChar_append_lt {left right : Char} (less : left < right)
    (behindLeft behindRight : List UInt8) :
    String.utf8EncodeChar left ++ behindLeft < String.utf8EncodeChar right ++ behindRight := by
  have below : left.val.toNat < right.val.toNat := UInt32.lt_iff_toNat_lt.mp (Char.lt_def.mp less)
  have bounded : right.val.toNat < 1114112 := by
    rcases right.valid with small | ⟨_, large⟩
    · exact Nat.lt_trans small (by decide)
    · exact large
  simp only [String.utf8EncodeChar]
  generalize left.val.toNat = one at below
  generalize right.val.toNat = two at below bounded
  have eighteenBits (n : Nat) : n / 262144 = n / 64 / 64 / 64 := by
    rw [Nat.div_div_eq_div_mul, Nat.div_div_eq_div_mul]
  have twelveBits (n : Nat) : n / 4096 = n / 64 / 64 := by rw [Nat.div_div_eq_div_mul]
  simp only [eighteenBits, twelveBits]
  -- A shorter encoding has the smaller first byte; of two that are equally long one byte decides.
  split_ifs <;> try omega
  all_goals simp (disch := omega) only [List.cons_append, List.nil_append, ofNat_cons_lt_iff]
  all_goals first
    | exact .inl (by omega)
    | refine Or.imp_right (And.imp_right Or.inl) ?_
      omega
    | refine Or.imp_right (And.imp_right (Or.imp_right (And.imp_right Or.inl))) ?_
      omega
    | refine Or.imp_right (And.imp_right (Or.imp_right (And.imp_right
        (Or.imp_right (And.imp_right Or.inl))))) ?_
      omega

theorem bytes_lt_of_lt {left right : String} (less : left < right) : bytes left < bytes right := by
  rw [bytes_eq_flatMap, bytes_eq_flatMap]
  have characters : left.toList < right.toList := String.lt_iff_toList_lt.mp less
  generalize left.toList = first at characters
  generalize right.toList = second at characters
  induction characters with
  | nil =>
      rename_i character rest
      obtain ⟨byte, others, begins⟩ :=
        List.exists_cons_of_ne_nil (@String.utf8EncodeChar_ne_nil character)
      rw [List.flatMap_nil, List.flatMap_cons, begins]
      exact .nil
  | rel earlier =>
      rw [List.flatMap_cons, List.flatMap_cons]
      exact utf8EncodeChar_append_lt earlier _ _
  | cons _ ih =>
      rw [List.flatMap_cons, List.flatMap_cons]
      exact List.append_left_lt ih

theorem lt_iff_bytes_lt {left right : String} : left < right ↔ bytes left < bytes right := by
  refine ⟨bytes_lt_of_lt, fun less => ?_⟩
  rcases lt_trichotomy left right with below | same | above
  · exact below
  · subst same
    exact absurd less (List.lt_irrefl _)
  · exact absurd less (List.lt_asymm (bytes_lt_of_lt above))

end FieldQuery.Text
