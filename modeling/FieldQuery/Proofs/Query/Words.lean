import FieldQuery.Proofs.Query.ArgumentGrammar
import Mathlib.Data.List.DropRight

/-!
# Words of a text

The words of a text stand between its blanks. A text is squeezed when one space stands between any
two words and nothing else around them. Unless there are blanks inside, that is the text without
the blanks at its ends.
-/

set_option autoImplicit false

namespace FieldQuery.Query

/-- The words of a text that goes on with a word already begun. -/
def wordsBehind (begun text : List Char) : List (List Char) :=
  ((text.splitOnP Text.isBlank).modifyHead (begun ++ ·)).filter fun word => !word.isEmpty

def words (text : List Char) : List (List Char) := wordsBehind [] text

def squeezed (text : List Char) : List Char := [' '].intercalate (words text)

def trimmed (text : List Char) : List Char :=
  (text.dropWhile Text.isBlank).rdropWhile Text.isBlank

example : squeezed " 1 \t 2 ".toList = "1 2".toList ∧ trimmed " 1 \t 2 ".toList = "1 \t 2".toList := by
  decide

variable {character : Char} {begun front back text : List Char}

theorem wordsBehind_nil (begun : List Char) :
    wordsBehind begun [] = if begun = [] then [] else [begun] := by
  cases begun <;> simp [wordsBehind]

theorem words_eq (text : List Char) :
    words text = (text.splitOnP Text.isBlank).filter fun word => !word.isEmpty := by
  unfold words wordsBehind
  cases text.splitOnP Text.isBlank <;> rfl

theorem wordsBehind_of_blank (blank : Text.isBlank character = true) (begun rest : List Char) :
    wordsBehind begun (character :: rest) = wordsBehind begun [] ++ words rest := by
  have first : wordsBehind begun [] = [begun].filter fun word => !word.isEmpty := by
    simp [wordsBehind]
  rw [first, words_eq, ← List.filter_append, wordsBehind, List.splitOnP_cons_eq_if_modifyHead,
    if_pos blank, List.modifyHead_cons, List.append_nil]
  rfl

theorem wordsBehind_of_not_blank (notBlank : Text.isBlank character = false)
    (begun rest : List Char) :
    wordsBehind begun (character :: rest) = wordsBehind (begun ++ [character]) rest := by
  simp only [wordsBehind, List.splitOnP_cons_eq_if_modifyHead, notBlank, Bool.false_eq_true,
    if_false, List.modifyHead_modifyHead]
  congr 2
  funext piece
  simp

theorem words_append (blank : Text.isBlank character = true) :
    words (front ++ character :: back) = words front ++ words back := by
  simp only [words_eq, List.splitOnP_append_cons front back blank, List.filter_append]

theorem ne_nil_of_mem_words {word : List Char} (member : word ∈ words text) : word ≠ [] := by
  rw [words_eq] at member
  simpa using (List.mem_filter.mp member).2

theorem wordsBehind_ne_nil (nonempty : begun ≠ []) (text : List Char) :
    wordsBehind begun text ≠ [] := by
  induction text generalizing begun with
  | nil => simp [wordsBehind_nil, nonempty]
  | cons character rest ih =>
      cases blank : Text.isBlank character with
      | true => simp [wordsBehind_of_blank blank, wordsBehind_nil, nonempty]
      | false =>
          rw [wordsBehind_of_not_blank blank]
          exact ih (by simp)

theorem words_eq_nil_iff : words text = [] ↔ AllBlank text := by
  induction text with
  | nil => simp [words, wordsBehind_nil, AllBlank]
  | cons character rest ih =>
      cases blank : Text.isBlank character with
      | true =>
          have same : words (character :: rest) = words rest := wordsBehind_of_blank blank [] rest
          rw [same, ih]
          exact ⟨AllBlank.cons blank, fun all => (List.forall_mem_cons.mp all).2⟩
      | false =>
          constructor
          · intro none
            rw [words, wordsBehind_of_not_blank blank] at none
            exact absurd none (wordsBehind_ne_nil (by simp) rest)
          · intro all
            rw [(List.forall_mem_cons.mp all).1] at blank
            cases blank

theorem words_of_unbroken (nonempty : text ≠ [])
    (unbroken : ∀ character ∈ text, Text.isBlank character = false) : words text = [text] := by
  rw [words_eq, List.splitOnP_eq_singleton unbroken]
  simp [nonempty]

/-! ## Trimming -/

theorem words_dropWhile (text : List Char) : words (text.dropWhile Text.isBlank) = words text := by
  induction text with
  | nil => rfl
  | cons character rest ih =>
      simp only [List.dropWhile_cons]
      split
      · next blank => exact ih.trans (wordsBehind_of_blank blank [] rest).symm
      · rfl

theorem words_rdropWhile (text : List Char) :
    words (text.rdropWhile Text.isBlank) = words text := by
  induction text using List.reverseRecOn with
  | nil => rfl
  | append_singleton front character ih =>
      rw [List.rdropWhile_concat]
      split
      · next blank =>
          rw [ih, words_append blank]
          exact (List.append_nil _).symm
      · rfl

theorem words_trimmed (text : List Char) : words (trimmed text) = words text := by
  rw [trimmed, words_rdropWhile, words_dropWhile]

theorem eq_nil_of_dropWhile (split : text.dropWhile Text.isBlank = front ++ back)
    (allBlank : AllBlank front) : front = [] := by
  have again := List.dropWhile_idempotent Text.isBlank text
  rw [split, List.dropWhile_append_of_pos allBlank] at again
  have shorter := (List.dropWhile_suffix Text.isBlank (l := back)).length_le
  rw [again, List.length_append] at shorter
  exact List.eq_nil_of_length_eq_zero (by omega)

/-- Inside a trimmed text a blank stands between two words. -/
theorem words_ne_nil_around (blank : Text.isBlank character = true)
    (split : trimmed text = front ++ character :: back) : words front ≠ [] ∧ words back ≠ [] := by
  constructor
  · intro none
    have allBlank : AllBlank (front ++ [character]) := by
      simpa [AllBlank, blank, or_imp, forall_and] using words_eq_nil_iff.mp none
    obtain ⟨tail, whole⟩ := List.rdropWhile_prefix Text.isBlank (text.dropWhile Text.isBlank)
    have leading : text.dropWhile Text.isBlank = (front ++ [character]) ++ (back ++ tail) := by
      rw [← whole, ← trimmed, split]
      simp
    exact absurd (eq_nil_of_dropWhile leading allBlank) (by simp)
  · intro none
    have allBlank : AllBlank (back.reverse ++ [character]) := by
      simpa [AllBlank, blank, or_imp, forall_and] using words_eq_nil_iff.mp none
    have trailing : (text.dropWhile Text.isBlank).reverse.dropWhile Text.isBlank =
        (back.reverse ++ [character]) ++ front.reverse := by
      rw [← List.reverse_inj, ← List.rdropWhile, ← trimmed, split]
      simp
    exact absurd (eq_nil_of_dropWhile trailing allBlank) (by simp)

theorem intercalate_concat (texts : List (List Char)) (text : List Char) :
    [' '].intercalate (texts ++ [text]) =
      if texts = [] then text else [' '].intercalate texts ++ ' ' :: text := by
  induction texts with
  | nil => simp
  | cons first others ih =>
      cases others with
      | nil => simp [List.intercalate_cons_cons]
      | cons second others =>
          simp only [List.cons_append, List.intercalate_cons_cons] at ih ⊢
          rw [ih]
          simp

theorem mem_intercalate {texts others : List (List Char)} (first : texts ≠ [])
    (second : others ≠ []) : ' ' ∈ [' '].intercalate (texts ++ others) := by
  obtain ⟨one, texts, rfl⟩ := List.exists_cons_of_ne_nil first
  obtain ⟨two, rest, same⟩ := List.exists_cons_of_ne_nil (l := texts ++ others) (by simp [second])
  rw [List.cons_append, same, List.intercalate_cons_cons]
  simp

/-- A text without blanks inside is squeezed to what it is when trimmed, and any other keeps a
space. -/
theorem squeezed_cases (text : List Char) :
    squeezed text = trimmed text ∨
      ' ' ∈ squeezed text ∧ ∃ character ∈ trimmed text, Text.isBlank character = true := by
  by_cases inside : ∃ character ∈ trimmed text, Text.isBlank character = true
  · right
    refine ⟨?_, inside⟩
    obtain ⟨character, member, blank⟩ := inside
    obtain ⟨front, back, split⟩ := List.append_of_mem member
    obtain ⟨before, behind⟩ := words_ne_nil_around blank split
    rw [squeezed, ← words_trimmed, split, words_append blank]
    exact mem_intercalate before behind
  · left
    rw [squeezed, ← words_trimmed]
    by_cases empty : trimmed text = []
    · rw [empty]
      rfl
    · rw [words_of_unbroken empty (by simpa using inside), List.intercalate_singleton]

theorem numeral_squeezed_iff {value : Int} :
    Text.Numeral (squeezed text) value ↔ Text.Numeral (trimmed text) value := by
  rcases squeezed_cases text with same | ⟨space, character, member, blank⟩
  · rw [same]
  · constructor
    · intro numeral
      exact absurd (numeral.isNumeral space) (by decide)
    · intro numeral
      have unbroken := isBlank_eq_false_of_isNumeral (numeral.isNumeral member)
      rw [blank] at unbroken
      cases unbroken

end FieldQuery.Query
