import FieldQuery.Proofs.Query.ArgumentListReading
import Mathlib.Data.List.Forall2

/-!
# The grammar of argument lists

A text between parentheses is cut at the commas outside quotation marks. Each piece is blank or
spells a pair: a key, a colon and a value, with blanks around them. A value is a numeral or a
sequence of quoted pieces. Since no piece has a comma outside quotation marks itself, putting the
pieces together and cutting the text again gives the pieces back.
-/

set_option autoImplicit false

namespace FieldQuery.Query

def AllBlank (text : List Char) : Prop := ∀ character ∈ text, Text.isBlank character = true

theorem AllBlank.cons {character : Char} {text : List Char}
    (blank : Text.isBlank character = true) (allBlank : AllBlank text) :
    AllBlank (character :: text) := List.forall_mem_cons.mpr ⟨blank, allBlank⟩

/-- What stands between two quotation marks, and the characters that it stands for. -/
inductive QuotedText : List Char → List Char → Prop where
  | nil : QuotedText [] []
  | plain {character : Char} {raw meaning : List Char} (notQuote : character ≠ '"')
      (notBackslash : character ≠ '\\') (rest : QuotedText raw meaning) :
      QuotedText (character :: raw) (character :: meaning)
  | escape {character : Char} {raw meaning : List Char} (rest : QuotedText raw meaning) :
      QuotedText ('\\' :: character :: raw)
        ((if character = 'n' then '\n' else character) :: meaning)

/-- One or more quoted pieces with blanks between them, and the text that they give together. -/
inductive QuotedPieces : List Char → List Char → Prop where
  | last {raw meaning : List Char} (quoted : QuotedText raw meaning) :
      QuotedPieces ('"' :: (raw ++ ['"'])) meaning
  | more {raw meaning gap rest further : List Char} (quoted : QuotedText raw meaning)
      (blank : AllBlank gap) (pieces : QuotedPieces rest further) :
      QuotedPieces ('"' :: (raw ++ '"' :: (gap ++ rest))) (meaning ++ further)

inductive ValueText : List Char → ArgumentValue → Prop where
  | integer {token : List Char} {value : Int} (numeral : Text.Numeral token value)
      (fits : Numeric.InInt64 value) : ValueText token (.integer (Int64.ofInt value))
  | text {raw meaning : List Char} (pieces : QuotedPieces raw meaning) :
      ValueText raw (.text (String.ofList meaning))

def SpacedValue (text : List Char) (value : ArgumentValue) : Prop :=
  ∃ before token behind, text = before ++ (token ++ behind) ∧ AllBlank before ∧
    ValueText token value ∧ AllBlank behind

/-- What may stand between two commas: nothing but blanks, or a pair. -/
inductive SlotText : List Char → Option (String × ArgumentValue) → Prop where
  | blank {text : List Char} (blank : AllBlank text) : SlotText text none
  | pair {before gap rest : List Char} {key : String} {value : ArgumentValue}
      (blankBefore : AllBlank before) (isKey : IsKey key) (blankGap : AllBlank gap)
      (spaced : SpacedValue rest value) :
      SlotText (before ++ (key.toList ++ (gap ++ ':' :: rest))) (some (key, value))

theorem SpacedValue.cons {character : Char} {text : List Char} {value : ArgumentValue}
    (blank : Text.isBlank character = true) (spaced : SpacedValue text value) :
    SpacedValue (character :: text) value := by
  obtain ⟨before, token, behind, rfl, blankBefore, spelt, blankBehind⟩ := spaced
  exact ⟨character :: before, token, behind, rfl, blankBefore.cons blank, spelt, blankBehind⟩

theorem SlotText.cons {character : Char} {text : List Char}
    {content : Option (String × ArgumentValue)} (blank : Text.isBlank character = true)
    (slot : SlotText text content) : SlotText (character :: text) content := by
  cases slot with
  | blank allBlank => exact .blank (allBlank.cons blank)
  | pair blankBefore isKey blankGap spaced =>
      exact .pair (blankBefore.cons blank) isKey blankGap spaced

/-! ## Pieces -/

def Quotation.after : Quotation → Char → Quotation
  | .outside, character => if character = '"' then .inside else .outside
  | .inside, character =>
      if character = '\\' then .escaped else if character = '"' then .outside else .inside
  | .escaped, _ => .inside

/-- The pieces of a text between the commas outside quotation marks. -/
def pieces (quotation : Quotation) : List Char → List (List Char)
  | [] => [[]]
  | character :: rest =>
      if quotation = .outside ∧ character = ',' then [] :: pieces .outside rest
      else (pieces (quotation.after character) rest).modifyHead (character :: ·)

example : pieces .outside "a: \"1,\\\",\" ,b:2,".toList =
    ["a: \"1,\\\",\" ".toList, "b:2".toList, []] := by decide

theorem pieces_ne_nil (quotation : Quotation) (text : List Char) : pieces quotation text ≠ [] := by
  induction text generalizing quotation with
  | nil => nofun
  | cons character rest ih =>
      simp only [pieces]
      split
      · nofun
      · rw [Ne, List.modifyHead_eq_nil_iff]
        exact ih _

theorem intercalate_pieces (quotation : Quotation) (text : List Char) :
    [','].intercalate (pieces quotation text) = text := by
  induction text generalizing quotation with
  | nil => rfl
  | cons character rest ih =>
      simp only [pieces]
      split
      · next comma =>
          rw [List.intercalate_cons_of_ne_nil (pieces_ne_nil _ _), ih, comma.2]
          rfl
      · have joined := ih (quotation.after character)
        cases cut : pieces (quotation.after character) rest with
        | nil => exact absurd cut (pieces_ne_nil _ _)
        | cons first others =>
            rw [cut] at joined
            rw [List.modifyHead_cons, ← joined]
            cases others with
            | nil => simp
            | cons second others => simp [List.intercalate_cons_cons]

/-- A text without a comma outside quotation marks, which ends outside of them. -/
def Uncut (text : List Char) : Prop :=
  ∀ rest, pieces .outside (text ++ rest) = (pieces .outside rest).modifyHead (text ++ ·)

theorem uncut_nil : Uncut [] := by
  intro rest
  rw [List.nil_append]
  cases pieces .outside rest <;> rfl

theorem Uncut.append {front back : List Char} (first : Uncut front) (second : Uncut back) :
    Uncut (front ++ back) := by
  intro rest
  rw [List.append_assoc, first, second, List.modifyHead_modifyHead]
  congr 1
  funext piece
  exact (List.append_assoc front back piece).symm

theorem uncut_of_forall {text : List Char}
    (inert : ∀ character ∈ text, character ≠ ',' ∧ character ≠ '"') : Uncut text := by
  induction text with
  | nil => exact uncut_nil
  | cons character text ih =>
      obtain ⟨⟨notComma, notQuote⟩, others⟩ := List.forall_mem_cons.mp inert
      intro rest
      rw [List.cons_append, pieces, if_neg (fun cut => notComma cut.2), Quotation.after,
        if_neg notQuote, ih others, List.modifyHead_modifyHead]
      rfl

/-- What stands between quotation marks is not cut, and neither is what leads out of them. -/
theorem QuotedText.pieces_inside {raw meaning : List Char} (quoted : QuotedText raw meaning)
    (rest : List Char) :
    pieces .inside (raw ++ '"' :: rest) = (pieces .outside rest).modifyHead (raw ++ '"' :: ·) := by
  induction quoted with
  | nil => rfl
  | plain notQuote notBackslash _ ih =>
      rw [List.cons_append, pieces, if_neg (by simp), Quotation.after, if_neg notBackslash,
        if_neg notQuote, ih, List.modifyHead_modifyHead]
      rfl
  | escape _ ih =>
      rw [List.cons_append, List.cons_append, pieces, if_neg (by simp), pieces,
        if_neg (by simp [Quotation.after])]
      simp only [Quotation.after, if_true]
      rw [ih, List.modifyHead_modifyHead, List.modifyHead_modifyHead]
      rfl

theorem QuotedText.uncut {raw meaning : List Char} (quoted : QuotedText raw meaning) :
    Uncut ('"' :: (raw ++ ['"'])) := by
  intro rest
  rw [List.cons_append, List.append_assoc, pieces, if_neg (by simp), Quotation.after, if_pos rfl,
    List.singleton_append, quoted.pieces_inside, List.modifyHead_modifyHead]
  congr 1
  funext piece
  simp

theorem AllBlank.uncut {text : List Char} (allBlank : AllBlank text) : Uncut text := by
  apply uncut_of_forall
  intro character member
  have blank := allBlank character member
  exact ⟨Text.ne_of_accepts blank (by decide), Text.ne_of_accepts blank (by decide)⟩

theorem QuotedPieces.uncut {raw meaning : List Char} (pieces : QuotedPieces raw meaning) :
    Uncut raw := by
  induction pieces with
  | last quoted => exact quoted.uncut
  | more quoted blank _ ih =>
      have whole := (quoted.uncut.append blank.uncut).append ih
      simpa using whole

theorem ValueText.uncut {token : List Char} {value : ArgumentValue}
    (spelt : ValueText token value) : Uncut token := by
  cases spelt with
  | text pieces => exact pieces.uncut
  | integer numeral =>
      apply uncut_of_forall
      intro character member
      have accepted := numeral.isNumeral member
      exact ⟨Text.ne_of_accepts accepted (by decide), Text.ne_of_accepts accepted (by decide)⟩

theorem IsKey.uncut {key : String} (isKey : IsKey key) : Uncut key.toList := by
  apply uncut_of_forall
  intro character member
  have accepted := isKey.2 character member
  exact ⟨Text.ne_of_accepts accepted (by decide), Text.ne_of_accepts accepted (by decide)⟩

theorem SlotText.uncut {text : List Char} {content : Option (String × ArgumentValue)}
    (slot : SlotText text content) : Uncut text := by
  cases slot with
  | blank allBlank => exact allBlank.uncut
  | pair blankBefore isKey blankGap spaced =>
      obtain ⟨before, token, behind, rfl, blank, spelt, blankBehind⟩ := spaced
      have colon : Uncut [':'] := uncut_of_forall (by simp)
      have value := blank.uncut.append (spelt.uncut.append blankBehind.uncut)
      have behindKey := blankGap.uncut.append (colon.append value)
      exact blankBefore.uncut.append (isKey.uncut.append behindKey)

theorem uncut_of_slotTexts {texts : List (List Char)}
    {contents : List (Option (String × ArgumentValue))}
    (slots : List.Forall₂ SlotText texts contents) : ∀ piece ∈ texts, Uncut piece := by
  induction slots with
  | nil => nofun
  | cons slot _ ih => exact List.forall_mem_cons.mpr ⟨slot.uncut, ih⟩

/-- Texts that are not cut themselves are the pieces of the text that they make with commas. -/
theorem pieces_intercalate {text : List Char} {texts : List (List Char)}
    (uncut : ∀ piece ∈ text :: texts, Uncut piece) :
    pieces .outside ([','].intercalate (text :: texts)) = text :: texts := by
  induction texts generalizing text with
  | nil =>
      have alone := uncut text List.mem_cons_self []
      rw [List.append_nil] at alone
      rw [List.intercalate_singleton, alone]
      simp [pieces]
  | cons next texts ih =>
      obtain ⟨first, others⟩ := List.forall_mem_cons.mp uncut
      rw [List.intercalate_cons_cons, List.append_assoc, first, List.singleton_append, pieces,
        if_pos ⟨rfl, rfl⟩, ih others]
      simp

end FieldQuery.Query
