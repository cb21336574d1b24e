import FieldQuery.Proofs.Query.Spacing
import Mathlib.Data.List.Induction
import Mathlib.Logic.Relation

/-!
# Changes of layout

Blanks and comments beside a boundary, and the way lines end, say nothing in a query. A text can be
laid out anew in any number of such changes, and gives the same selections.
-/

set_option autoImplicit false

namespace FieldQuery.Query

def surroundingsBehind (text : List Char) : Surroundings := text.foldl Surroundings.after .plain

/-- Whether a boundary stands at the end of one text or at the beginning of the next. -/
def Separable (front back : List Char) : Prop :=
  ∃ character, (front.getLast? = some character ∨ back.head? = some character) ∧
    isBoundary character = true

def withReturns (text : List Char) : List Char :=
  text.flatMap fun character => if character = '\n' then ['\r', '\n'] else [character]

/-- One change of the layout of a text. -/
inductive LayoutChange : List Char → List Char → Prop where
  | blank {front back : List Char} {character : Char} (isBlank : Text.isBlank character = true)
      (separable : Separable front back)
      (outside : surroundingsBehind front = .plain ∨
        surroundingsBehind front = .arguments ∧ character ≠ '\n') :
      LayoutChange (front ++ back) (front ++ character :: back)
  | comment {front back content : List Char} (noNewline : '\n' ∉ content)
      (separable : Separable front back) (outside : surroundingsBehind front = .plain) :
      LayoutChange (front ++ back) (front ++ ('#' :: content ++ '\n' :: back))
  | returns (text : List Char) : LayoutChange text (withReturns text)

namespace OnePass.Reader

variable {limit : DepthLimit} {reader after : Reader} {character : Char} {front back : List Char}

theorem gives_append (reader : Reader) (front back : List Char) :
    reader.gives limit (front ++ back) =
      (front.foldlM (next limit) reader).bind fun after => after.gives limit back := by
  induction front generalizing reader with
  | nil => rfl
  | cons character front ih =>
      rw [List.cons_append, gives_cons, List.foldlM_cons]
      cases reader.next limit character with
      | none => rfl
      | some after => exact ih after

theorem gives_append_congr {other : List Char}
    (same : ∀ after, front.foldlM (next limit) reader = some after →
      after.gives limit back = after.gives limit other) :
    reader.gives limit (front ++ back) = reader.gives limit (front ++ other) := by
  rw [gives_append, gives_append]
  cases fed : front.foldlM (next limit) reader with
  | none => rfl
  | some after => exact same after fed

structure Behind (front : List Char) (reader : Reader) : Prop where
  surroundings : reader.place.surroundings = surroundingsBehind front
  tidy : reader.Tidy
  settled : ∀ character, front.getLast? = some character → isBoundary character = true →
    reader.Settled

theorem behind_start : Behind [] start where
  surroundings := rfl
  tidy := nofun
  settled := nofun

theorem Behind.next (behind : Behind front reader)
    (stepped : reader.next limit character = some after) : Behind (front ++ [character]) after where
  surroundings := by
    rw [(surroundings_next stepped).2, behind.surroundings, surroundingsBehind,
      surroundingsBehind, List.foldl_append]
    rfl
  tidy := behind.tidy.next stepped
  settled := by
    intro last isLast boundary
    rw [List.getLast?_concat, Option.some.injEq] at isLast
    subst isLast
    exact settled_next behind.tidy boundary stepped

theorem behind_of_fed (fed : front.foldlM (next limit) start = some reader) :
    Behind front reader := by
  -- By the last character, on which it depends whether the reader is settled.
  induction front using List.reverseRecOn generalizing reader with
  | nil =>
      cases fed
      exact behind_start
  | append_singleton front character ih =>
      rw [List.foldlM_append] at fed
      obtain ⟨before, fedBefore, stepped⟩ := Option.bind_eq_some_iff.mp fed
      rw [List.foldlM_cons] at stepped
      obtain ⟨same, accepted, equal⟩ := Option.bind_eq_some_iff.mp stepped
      cases equal
      exact (ih fedBefore).next accepted

theorem Behind.gives_spaced (behind : Behind front reader) (separable : Separable front back) :
    reader.spaced.gives limit back = reader.gives limit back := by
  obtain ⟨character, last | first, boundary⟩ := separable
  · exact (behind.settled character last boundary).gives_spaced back
  · cases back with
    | nil => cases first
    | cons head back =>
        cases first
        exact Reader.gives_spaced boundary back

theorem gives_withReturns (reader : Reader) (text : List Char) :
    reader.gives limit (withReturns text) = reader.gives limit text := by
  induction text generalizing reader with
  | nil => rfl
  | cons character text ih =>
      have unchanged : reader.gives limit (character :: withReturns text) =
          reader.gives limit (character :: text) := by
        rw [gives_cons, gives_cons]
        simp only [ih]
      by_cases newline : character = '\n'
      · subst newline
        exact (gives_return _).trans unchanged
      · rw [withReturns, List.flatMap_cons, if_neg newline]
        exact unchanged

theorem gives_of_layoutChange {text other : List Char} (change : LayoutChange text other) :
    start.gives limit text = start.gives limit other := by
  cases change with
  | blank isBlank separable outside =>
      refine gives_append_congr fun reader fed => ?_
      have behind := behind_of_fed fed
      rw [← behind.gives_spaced separable]
      rw [← behind.surroundings] at outside
      obtain plain | ⟨inside, notNewline⟩ := outside
      · exact (gives_of_next (next_blank_of_plain plain isBlank) _).symm
      · exact (gives_of_next (next_blank_of_arguments inside isBlank notNewline) _).symm
  | comment noNewline separable outside =>
      refine gives_append_congr fun reader fed => ?_
      have behind := behind_of_fed fed
      rw [← behind.gives_spaced separable]
      rw [← behind.surroundings] at outside
      exact (gives_comment outside noNewline _).symm
  | returns => exact (gives_withReturns start text).symm

theorem gives_of_relaid {text other : List Char}
    (relaid : Relation.ReflTransGen LayoutChange text other) :
    start.gives limit text = start.gives limit other := by
  induction relaid with
  | refl => rfl
  | tail _ change ih => exact ih.trans (gives_of_layoutChange change)

end OnePass.Reader

/-- Texts that differ in their layout alone give the same selections. -/
theorem parse_eq_ok_iff_of_relaid {text other : String}
    (relaid : Relation.ReflTransGen LayoutChange text.toList other.toList) (limit : DepthLimit)
    (selections : List Selection) :
    parse limit text = .ok selections ↔ parse limit other = .ok selections := by
  rw [← Fallible.toOption_eq_some_iff, ← Fallible.toOption_eq_some_iff, toOption_parse,
    toOption_parse, OnePass.Reader.read_eq_gives, OnePass.Reader.read_eq_gives,
    OnePass.Reader.gives_of_relaid relaid]

def compactText : String := "a\x7bb(k:1)\x7bc\x7d\x7d"

/-- The same query behind a comment, with a tab in its argument list and other ends of lines. -/
def airyText : String := "a\x7b# it\x27s \x7b\r\nb(k:\t1)\x7bc\x7d\x7d"

theorem parse_airyText :
    let selections : List Selection :=
      [.branch "a" .empty [.branch "b" (Dict.empty.insert "k" (.integer 1)) [.leaf "c"]]]
    Relation.ReflTransGen LayoutChange compactText.toList airyText.toList ∧
      parse ⟨3⟩ compactText = .ok selections ∧ parse ⟨3⟩ airyText = .ok selections := by
  intro selections
  have commented : LayoutChange ("a\x7b".toList ++ "b(k:1)\x7bc\x7d\x7d".toList)
      ("a\x7b".toList ++ ('#' :: " it\x27s \x7b".toList ++ '\n' :: "b(k:1)\x7bc\x7d\x7d".toList)) :=
    .comment (by decide) ⟨'{', .inl rfl, by decide⟩ rfl
  have tabbed : LayoutChange
      ("a\x7b# it\x27s \x7b\nb(k:".toList ++ "1)\x7bc\x7d\x7d".toList)
      ("a\x7b# it\x27s \x7b\nb(k:".toList ++ '\t' :: "1)\x7bc\x7d\x7d".toList) :=
    .blank (by decide) ⟨':', .inl rfl, by decide⟩ (.inr ⟨rfl, by decide⟩)
  have relaid : Relation.ReflTransGen LayoutChange compactText.toList airyText.toList :=
    .head commented (.head tabbed (.single (.returns _)))
  have parsed : parse ⟨3⟩ compactText = .ok selections := by
    rw [← Fallible.toOption_eq_some_iff, toOption_parse]
    decide +kernel
  exact ⟨relaid, parsed, (parse_eq_ok_iff_of_relaid relaid ⟨3⟩ selections).mp parsed⟩

end FieldQuery.Query
