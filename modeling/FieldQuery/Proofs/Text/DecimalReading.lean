import FieldQuery.Text.Decimal

/-!
# Reading decimal notation back

The digits of an integer read as that integer, and those of a signed word as that word.
-/

set_option autoImplicit false

namespace FieldQuery.Text

private theorem isDigit_of_mem_repr {magnitude : Nat} {digit : Char}
    (member : digit ∈ magnitude.repr.toList) : digit.isDigit = true := by
  rw [Nat.toList_repr] at member
  exact Nat.isDigit_of_mem_toDigits (by decide) (by decide) member

theorem natural?_repr (magnitude : Nat) : natural? magnitude.repr.toList = some magnitude := by
  have nonempty : magnitude.repr.toList.isEmpty = false := by
    rw [List.isEmpty_eq_false_iff, Nat.toList_repr]
    exact Nat.toDigits_ne_nil
  have allDigits : magnitude.repr.toList.all Char.isDigit = true :=
    List.all_eq_true.mpr fun digit member => isDigit_of_mem_repr member
  rw [natural?, nonempty, allDigits, Nat.toList_repr, Nat.ofDigitChars_ten_toDigits]
  rfl

/-- Digits without a sign are read as they stand. -/
theorem signed?_of_all_isDigit {digits : List Char}
    (allDigits : ∀ digit ∈ digits, digit.isDigit = true) :
    signed? digits = (natural? digits).map Int.ofNat := by
  unfold signed?
  split
  · exact absurd (allDigits '-' List.mem_cons_self) (by decide)
  · exact absurd (allDigits '+' List.mem_cons_self) (by decide)
  · rfl

theorem signed?_decimal (value : Int) : signed? (decimal value).toList = some value := by
  cases value with
  | ofNat magnitude =>
      rw [decimal, signed?_of_all_isDigit fun digit => isDigit_of_mem_repr, natural?_repr]
      rfl
  | negSucc predecessor =>
      have split : (decimal (.negSucc predecessor)).toList =
          '-' :: predecessor.succ.repr.toList := by
        rw [decimal, String.toList_append]
        rfl
      rw [split, signed?, natural?_repr]
      rfl

/-- A word is read back from its digits, the least and the greatest ones included. -/
theorem int64?_decimal (value : Int64) : int64? (decimal value.toInt) = some value := by
  rw [int64?, signed?_decimal, Option.bind_some, if_pos (Numeric.inInt64_toInt value),
    Int64.ofInt_toInt]

theorem decimal_ne_empty (value : Int) : decimal value ≠ "" := by
  intro empty
  have read := signed?_decimal value
  rw [empty] at read
  cases read

/-! ## The notations that are read -/

inductive Numeral : List Char → Int → Prop where
  | unsigned {digits : List Char} (nonempty : digits ≠ [])
      (allDigits : ∀ digit ∈ digits, digit.isDigit = true) :
      Numeral digits (Nat.ofDigitChars 10 digits 0)
  | plus {digits : List Char} (nonempty : digits ≠ [])
      (allDigits : ∀ digit ∈ digits, digit.isDigit = true) :
      Numeral ('+' :: digits) (Nat.ofDigitChars 10 digits 0)
  | minus {digits : List Char} (nonempty : digits ≠ [])
      (allDigits : ∀ digit ∈ digits, digit.isDigit = true) :
      Numeral ('-' :: digits) (-(Nat.ofDigitChars 10 digits 0 : Int))

theorem natural?_eq_some_iff {digits : List Char} {magnitude : Nat} :
    natural? digits = some magnitude ↔
      digits ≠ [] ∧ (∀ digit ∈ digits, digit.isDigit = true) ∧
        magnitude = Nat.ofDigitChars 10 digits 0 := by
  simp only [natural?]
  constructor
  · intro read
    split at read
    · cases read
    · next accepted =>
        simp only [Bool.not_eq_true, Bool.or_eq_false_iff, List.isEmpty_eq_false_iff,
          Bool.not_eq_false', List.all_eq_true] at accepted
        cases read
        exact ⟨accepted.1, accepted.2, rfl⟩
  · intro digitsOnly
    obtain ⟨nonempty, allDigits, rfl⟩ := digitsOnly
    rw [List.isEmpty_eq_false_iff.mpr nonempty, List.all_eq_true.mpr allDigits]
    rfl

theorem signed?_eq_some_iff {characters : List Char} {value : Int} :
    signed? characters = some value ↔ Numeral characters value := by
  constructor
  · intro read
    unfold signed? at read
    split at read
    · next digits =>
        cases natural : natural? digits with
        | none =>
            rw [natural] at read
            cases read
        | some magnitude =>
            obtain ⟨nonempty, allDigits, rfl⟩ := natural?_eq_some_iff.mp natural
            rw [natural] at read
            cases read
            exact .minus nonempty allDigits
    · obtain ⟨magnitude, natural, rfl⟩ := Option.map_eq_some_iff.mp read
      obtain ⟨nonempty, allDigits, rfl⟩ := natural?_eq_some_iff.mp natural
      exact .plus nonempty allDigits
    · obtain ⟨magnitude, natural, rfl⟩ := Option.map_eq_some_iff.mp read
      obtain ⟨nonempty, allDigits, rfl⟩ := natural?_eq_some_iff.mp natural
      exact .unsigned nonempty allDigits
  · intro numeral
    cases numeral with
    | unsigned nonempty allDigits =>
        rw [signed?_of_all_isDigit allDigits,
          natural?_eq_some_iff.mpr ⟨nonempty, allDigits, rfl⟩]
        rfl
    | plus nonempty allDigits =>
        rw [signed?, natural?_eq_some_iff.mpr ⟨nonempty, allDigits, rfl⟩]
        rfl
    | minus nonempty allDigits =>
        rw [signed?, natural?_eq_some_iff.mpr ⟨nonempty, allDigits, rfl⟩]
        rfl

/-- A word is read exactly from the numerals whose value is in its range. -/
theorem int64?_eq_some_iff {text : String} {word : Int64} :
    int64? text = some word ↔
      ∃ value, Numeral text.toList value ∧ Numeric.InInt64 value ∧ word = Int64.ofInt value := by
  rw [int64?, Option.bind_eq_some_iff]
  apply exists_congr
  intro value
  rw [signed?_eq_some_iff]
  apply and_congr_right
  intro _
  split
  · next fits =>
      constructor
      · intro read
        cases read
        exact ⟨fits, rfl⟩
      · intro within
        rw [within.2]
  · next outside => simp [outside]

def isNumeral (character : Char) : Bool :=
  character.isDigit || character == '+' || character == '-'

/-- A numeral is made of digits and signs. -/
theorem Numeral.isNumeral {characters : List Char} {value : Int}
    (numeral : Numeral characters value) {character : Char} (member : character ∈ characters) :
    isNumeral character = true := by
  have ofDigits {digits : List Char} (allDigits : ∀ digit ∈ digits, digit.isDigit = true)
      (within : character ∈ digits) : Text.isNumeral character = true := by
    rw [Text.isNumeral, allDigits character within]
    rfl
  cases numeral with
  | unsigned _ allDigits => exact ofDigits allDigits member
  | plus _ allDigits =>
      rcases List.mem_cons.mp member with rfl | within
      · rfl
      · exact ofDigits allDigits within
  | minus _ allDigits =>
      rcases List.mem_cons.mp member with rfl | within
      · rfl
      · exact ofDigits allDigits within

theorem int64?_eq_none {text : String} {character : Char} (member : character ∈ text.toList)
    (notNumeral : isNumeral character = false) : int64? text = none := by
  rw [Option.eq_none_iff_forall_ne_some]
  intro word read
  obtain ⟨value, numeral, _⟩ := int64?_eq_some_iff.mp read
  rw [numeral.isNumeral member] at notNumeral
  cases notNumeral

theorem isNumeral_of_mem_decimal {value : Int} {character : Char}
    (member : character ∈ (decimal value).toList) : isNumeral character = true :=
  (signed?_eq_some_iff.mp (signed?_decimal value)).isNumeral member

theorem Numeral.ne_nil {characters : List Char} {value : Int}
    (numeral : Numeral characters value) : characters ≠ [] := by
  cases numeral with
  | unsigned nonempty => exact nonempty
  | plus => nofun
  | minus => nofun

end FieldQuery.Text
