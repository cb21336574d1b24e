import FieldQuery.Proofs.Query.ArgumentLanguage
import FieldQuery.Proofs.Query.OnePassAgreement
import FieldQuery.Proofs.Query.Words

/-!
# Values without quotation marks

A value without quotation marks is kept as its words with one space between them, and only at its
end it is read as an integer. So it is one exactly when its text without the blanks around it is
an integer in digits; a text with blanks inside keeps a space, which no integer has.
-/

set_option autoImplicit false

namespace FieldQuery.Query

def Slot.ofWords (key : String) (complete : List (List Char)) (begun : List Char) : Slot :=
  .bare key (String.ofList ([' '].intercalate (complete ++ wordsBehind begun [])))
    (begun.isEmpty && !complete.isEmpty)

/-- Whether a character neither ends a value without quotation marks nor is refused in it. -/
def isBare (character : Char) : Bool :=
  character != '\n' && character != '"' && character != ',' && character != ')'

namespace Slot

variable {key : String} {complete : List (List Char)} {begun : List Char} {character : Char}

theorem intercalate_isEmpty (nonempty : ∀ word ∈ complete, word ≠ []) :
    (String.ofList ([' '].intercalate complete)).isEmpty = complete.isEmpty := by
  cases complete with
  | nil => rfl
  | cons first others =>
      have begins : first ≠ [] := nonempty first List.mem_cons_self
      have text : [' '].intercalate (first :: others) ≠ [] := by
        cases others <;> simp [List.intercalate_cons_cons, begins]
      simpa using text

theorem ne_nil_of_mem_complete (nonempty : ∀ word ∈ complete, word ≠ []) :
    ∀ word ∈ complete ++ wordsBehind begun [], word ≠ [] := by
  intro word member
  rcases List.mem_append.mp member with earlier | last
  · exact nonempty word earlier
  · rw [wordsBehind_nil] at last
    split at last
    · cases last
    · next begins => rwa [List.mem_singleton.mp last]

theorem blank_ofWords (nonempty : ∀ word ∈ complete, word ≠ []) :
    ArgumentList.blank (.ofWords key complete begun) =
      .ofWords key (complete ++ wordsBehind begun []) [] := by
  have each : ∀ word ∈ complete ++ wordsBehind begun [], word ≠ [] :=
    ne_nil_of_mem_complete nonempty
  simp [ofWords, ArgumentList.blank, wordsBehind_nil [], intercalate_isEmpty each]

theorem write_ofWords (notQuote : character ≠ '"') (here : Position) :
    ArgumentList.write (.ofWords key complete begun) character here =
      .ok (.ofWords key complete (begun ++ [character])) := by
  have grown : wordsBehind (begun ++ [character]) [] = [begun ++ [character]] := by
    simp [wordsBehind_nil]
  simp only [ofWords, ArgumentList.write, if_neg notQuote, grown, intercalate_concat]
  cases begun with
  | cons first begun =>
      simp [wordsBehind_nil, intercalate_concat, ← String.toList_inj]
      split <;> simp
  | nil =>
      cases complete with
      | nil => simp [wordsBehind_nil]
      | cons word complete => simp [wordsBehind_nil, ← String.toList_inj]

theorem reads_words {text : List Char} (bare : ∀ character ∈ text, isBare character = true)
    (nonempty : ∀ word ∈ complete, word ≠ []) :
    ∃ spaced, Reads (.ofWords key complete begun) text
      (.bare key (String.ofList ([' '].intercalate (complete ++ wordsBehind begun text)))
        spaced) := by
  induction text generalizing complete begun with
  | nil => exact ⟨_, reads_nil _⟩
  | cons character rest ih =>
      obtain ⟨accepted, others⟩ := List.forall_mem_cons.mp bare
      simp only [isBare, Bool.and_eq_true, bne_iff_ne] at accepted
      obtain ⟨⟨⟨notNewline, notQuote⟩, notComma⟩, notClosing⟩ := accepted
      cases blank : Text.isBlank character with
      | true =>
          have first : Reads (.ofWords key complete begun) [character]
              (.ofWords key (complete ++ wordsBehind begun []) []) := by
            rw [← blank_ofWords nonempty]
            exact reads_blank rfl blank notNewline
          obtain ⟨spaced, further⟩ := @ih (complete ++ wordsBehind begun []) [] others
            (ne_nil_of_mem_complete nonempty)
          rw [List.append_assoc] at further
          rw [wordsBehind_of_blank blank]
          exact ⟨spaced, first.append further⟩
      | false =>
          have first : Reads (.ofWords key complete begun) [character]
              (.ofWords key complete (begun ++ [character])) := by
            apply reads_of_step
            intro openedAt arguments here
            exact ArgumentList.step_of_write openedAt arguments rfl
              ⟨notNewline, notClosing, notComma, blank⟩ (write_ofWords notQuote here)
          obtain ⟨spaced, further⟩ := @ih complete (begun ++ [character]) others nonempty
          rw [wordsBehind_of_not_blank blank]
          exact ⟨spaced, first.append further⟩

end Slot

/-- The integers of the manual: bare digits, with a minus sign in front or without. -/
inductive ManualInteger : List Char → Int → Prop where
  | digits {digits : List Char} (nonempty : digits ≠ [])
      (allDigits : ∀ digit ∈ digits, digit.isDigit = true) :
      ManualInteger digits (Nat.ofDigitChars 10 digits 0)
  | minus {digits : List Char} (nonempty : digits ≠ [])
      (allDigits : ∀ digit ∈ digits, digit.isDigit = true) :
      ManualInteger ('-' :: digits) (-(Nat.ofDigitChars 10 digits 0 : Int))

/-- The integers that are read: those of the manual, and bare digits behind a plus sign. -/
def BareInteger (text : List Char) (value : Int) : Prop :=
  ManualInteger text value ∨
    ∃ digits, text = '+' :: digits ∧ (∀ digit ∈ digits, digit.isDigit = true) ∧
      ManualInteger digits value

theorem numeral_iff_bareInteger {text : List Char} {value : Int} :
    Text.Numeral text value ↔ BareInteger text value := by
  constructor
  · intro numeral
    cases numeral with
    | unsigned nonempty allDigits => exact .inl (.digits nonempty allDigits)
    | plus nonempty allDigits => exact .inr ⟨_, rfl, allDigits, .digits nonempty allDigits⟩
    | minus nonempty allDigits => exact .inl (.minus nonempty allDigits)
  · intro number
    rcases number with plain | ⟨digits, rfl, allDigits, behind⟩
    · cases plain with
      | digits nonempty allDigits => exact .unsigned nonempty allDigits
      | minus nonempty allDigits => exact .minus nonempty allDigits
    · cases behind with
      | digits nonempty => exact .plus nonempty allDigits
      | minus => exact absurd (allDigits '-' List.mem_cons_self) (by decide)

theorem int64?_squeezed_iff {value : List Char} {number : Int64} :
    Text.int64? (String.ofList (squeezed value)) = some number ↔
      BareInteger (trimmed value) number.toInt := by
  rw [Text.int64?_eq_some_iff, String.toList_ofList, ← numeral_iff_bareInteger,
    ← numeral_squeezed_iff]
  constructor
  · intro read
    obtain ⟨whole, numeral, fits, rfl⟩ := read
    rwa [Int64.toInt_ofInt_of_le fits.1 (by have := fits.2; omega)]
  · intro numeral
    exact ⟨_, numeral, Numeric.inInt64_toInt number, (Int64.ofInt_toInt number).symm⟩

namespace ArgumentList

def barePair (key : String) (value : List Char) : List Char := key.toList ++ ':' :: ' ' :: value

variable {openedAt here : Position} {key : String} {value : List Char}

theorem feed_barePair (openedAt here : Position) (isKey : IsKey key)
    (bare : ∀ character ∈ value, isBare character = true) :
    ∃ spaced, feed (.opened openedAt) here (barePair key value) =
      some ⟨openedAt, .empty, .bare key (String.ofList (squeezed value)) spaced⟩ := by
  have toValue := (Slot.reads_key isKey).append (Slot.reads_colon isKey.1 false)
  have blankToo : ∀ character ∈ ' ' :: value, isBare character = true :=
    List.forall_mem_cons.mpr ⟨rfl, bare⟩
  obtain ⟨spaced, further⟩ := @Slot.reads_words key [] [] _ blankToo nofun
  have same : wordsBehind [] (' ' :: value) = words value :=
    wordsBehind_of_blank (by decide) [] value
  rw [same] at further
  refine ⟨spaced, ?_⟩
  have whole := (toValue.append further) openedAt .empty here
  rwa [List.append_assoc] at whole

/-- What the closing parenthesis makes of a value without quotation marks. -/
theorem step_closing_bare (spaced : Bool) (there : Position) :
    step ⟨openedAt, .empty, .bare key (String.ofList (squeezed value)) spaced⟩ ')' there =
      if words value = [] then .error (.missingArgumentValue key there)
      else
        match Text.int64? (String.ofList (squeezed value)) with
        | some number => .ok (.closed (Dict.empty.insert key (.integer number)))
        | none =>
            .error (.invalidArgumentValue key (String.ofList (squeezed value)) there) := by
  have empty : (String.ofList (squeezed value)).isEmpty = (words value).isEmpty :=
    Slot.intercalate_isEmpty fun _ => ne_nil_of_mem_words
  rw [step_eq_stepOutside there (by decide) rfl, stepOutside, if_pos rfl, commit, empty]
  simp only [List.isEmpty_iff]
  split
  · rfl
  · cases Text.int64? (String.ofList (squeezed value)) with
    | none => rfl
    | some number => rfl

/-- A value without quotation marks is read when it is an integer; a missing value and any other one
are refused at the closing parenthesis. -/
theorem bareValue_read (openedAt here : Position) (isKey : IsKey key)
    (bare : ∀ character ∈ value, isBare character = true) :
    ∃ last, feed (.opened openedAt) here (barePair key value) = some last ∧
      ∀ there,
        (∀ arguments, last.step ')' there = .ok (.closed arguments) ↔
          ∃ number : Int64, BareInteger (trimmed value) number.toInt ∧
            arguments = Dict.empty.insert key (.integer number)) ∧
        (last.step ')' there = .error (.missingArgumentValue key there) ↔ AllBlank value) ∧
        (last.step ')' there =
            .error (.invalidArgumentValue key (String.ofList (squeezed value)) there) ↔
          ¬ AllBlank value ∧ ∀ number : Int64, ¬ BareInteger (trimmed value) number.toInt) := by
  obtain ⟨spaced, fed⟩ := feed_barePair openedAt here isKey bare
  refine ⟨_, fed, fun there => ?_⟩
  rw [step_closing_bare, ← words_eq_nil_iff]
  simp only [← int64?_squeezed_iff]
  by_cases none : words value = []
  · have unread : Text.int64? (String.ofList (squeezed value)) = Option.none := by
      rw [squeezed, none]
      rfl
    simp [none, unread]
  · cases read : Text.int64? (String.ofList (squeezed value)) with
    | none => simp [none]
    | some number => simp [none, eq_comm]

theorem bareValue_read_threeValues :
    IsKey "p" ∧
      [" -042\t", "1 \t+2", " "].all (fun value => value.toList.all isBare) = true ∧
      ∃ number blankInside blank,
        feed (.opened .start) .start (barePair "p" " -042\t".toList) = some number ∧
        number.step ')' .start = .ok (.closed (Dict.empty.insert "p" (.integer (-42)))) ∧
        feed (.opened .start) .start (barePair "p" "1 \t+2".toList) = some blankInside ∧
        blankInside.step ')' .start = .error (.invalidArgumentValue "p" "1 +2" .start) ∧
        feed (.opened .start) .start (barePair "p" " ".toList) = some blank ∧
        blank.step ')' .start = .error (.missingArgumentValue "p" .start) := by
  have isKey : IsKey "p" := ⟨by decide, List.all_eq_true.mp (by decide)⟩
  have bare {value : String} (accepted : value.toList.all isBare = true) :
      ∀ character ∈ value.toList, isBare character = true := List.all_eq_true.mp accepted
  obtain ⟨number, fedNumber, reads⟩ :=
    bareValue_read .start .start isKey (@bare " -042\t" (by decide))
  obtain ⟨inside, fedInside, refuses⟩ :=
    bareValue_read .start .start isKey (@bare "1 \t+2" (by decide))
  obtain ⟨blank, fedBlank, lacks⟩ := bareValue_read .start .start isKey (@bare " " (by decide))
  refine ⟨isKey, by decide, number, inside, blank, fedNumber, ?_, fedInside, ?_, fedBlank, ?_⟩
  · have integer : ManualInteger ('-' :: ['0', '4', '2']) (Int64.toInt (-42)) :=
      .minus (by decide) (List.all_eq_true.mp (by decide))
    exact ((reads .start).1 _).mpr ⟨-42, .inl integer, rfl⟩
  · have words : words "1 \t+2".toList ≠ [] := by decide
    have unread : Text.int64? (String.ofList (squeezed "1 \t+2".toList)) = none := by decide
    refine (refuses .start).2.2.mpr ⟨mt words_eq_nil_iff.mpr words, fun word read => ?_⟩
    rw [← int64?_squeezed_iff, unread] at read
    cases read
  · exact (lacks .start).2.1.mpr (words_eq_nil_iff.mp (by decide))

end ArgumentList

/-- A plus sign in front of bare digits is read over. -/
theorem plusSign_read :
    (¬ ∃ number, ManualInteger (trimmed "+2".toList) number) ∧
      parse .unlimited "films(p: +2)\x7bname\x7d" =
        .ok [.branch "films" (Dict.empty.insert "p" (.integer 2)) [.leaf "name"]] := by
  constructor
  · intro documented
    obtain ⟨number, integer⟩ := documented
    have split : trimmed "+2".toList = ['+', '2'] := by decide
    rw [split] at integer
    cases integer with
    | digits _ allDigits => exact absurd (allDigits '+' List.mem_cons_self) (by decide)
  · rw [← Fallible.toOption_eq_some_iff, toOption_parse]
    rfl

end FieldQuery.Query
