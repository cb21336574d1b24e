import FieldQuery.Proofs.Query.PlacelessReading
import Mathlib.Data.List.Forall2

/-!
# Nameless braces

A brace without a field in front of it opens no level. Neither it nor the brace that closes it need
stand at an end of a set; wherever they stand, the two do what commas do. So every query that is
read can be written with the braces of blocks alone, and gives the same selections.
-/

set_option autoImplicit false

namespace FieldQuery.Query

/-- A text with some of its braces replaced by commas. -/
def Unbraced : List Char → List Char → Prop :=
  List.Forall₂ fun written kept => kept = written ∨ (written = '{' ∨ written = '}') ∧ kept = ','

namespace OnePass

def branchFrames : List Frame → List Frame
  | [] => []
  | .set :: outer => branchFrames outer
  | .branch name arguments before :: outer => .branch name arguments before :: branchFrames outer

theorem blocks_branchFrames (frames : List Frame) :
    blocks (branchFrames frames) = blocks frames := by
  induction frames with
  | nil => rfl
  | cons frame outer ih =>
      cases frame with
      | set => exact ih
      | branch name arguments before => rw [branchFrames, blocks, blocks, ih]

namespace Reader

/-- Every opening brace that a text gives a reader belongs to a field, unless it stands in a comment
or in an argument list. -/
def BracesNamed (limit : DepthLimit) (reader : Reader) (text : List Char) : Prop :=
  ∀ front back, text = front ++ '{' :: back →
    ∀ behind, front.foldlM (next limit) reader = some behind → behind.place ≠ .between .nothing

/-- A reader as it would stand without the nameless sets that are open. -/
def withoutSets (reader : Reader) : Reader :=
  { reader with frames := branchFrames reader.frames }

variable {limit : DepthLimit} {reader after : Reader} {character : Char}

def BracesSet (reader : Reader) (character : Char) : Prop :=
  (character = '{' ∧ reader.place = .between .nothing) ∨
    (character = '}' ∧ ∃ outer pending,
      reader.frames = .set :: outer ∧ reader.place = .between pending)

theorem next_comma_withoutSets (braces : reader.BracesSet character)
    (stepped : reader.next limit character = some after) :
    reader.withoutSets.next limit ',' = some after.withoutSets := by
  obtain ⟨frames, selections, place⟩ := reader
  rcases braces with ⟨rfl, isPlace⟩ | ⟨rfl, outer, pending, isFrames, isPlace⟩
  · cases isPlace
    cases stepped
    rfl
  · cases isFrames
    cases isPlace
    cases pending with
    | nothing =>
        cases stepped
        rfl
    | named name start ended =>
        cases stepped
        rfl
    | called name start arguments => cases stepped

theorem next_withoutSets (limit : DepthLimit) (braces : ¬ reader.BracesSet character) :
    reader.withoutSets.next limit character = (reader.next limit character).map withoutSets := by
  obtain ⟨frames, selections, place⟩ := reader
  cases place with
  | between pending =>
      simp only [step, withoutSets, stepBetween]
      split
      · rfl
      split
      · cases pending <;> rfl
      split
      · rfl
      split
      · cases pending <;> rfl
      split
      · next opening =>
          cases pending with
          | nothing => exact absurd (.inl ⟨opening, rfl⟩) braces
          | named name start ended =>
              simp only [openBrace, openBlock, blocks_branchFrames]
              split <;> rfl
          | called name start arguments =>
              simp only [openBrace, openBlock, blocks_branchFrames]
              split <;> rfl
      split
      · next closing =>
          cases frames with
          | nil => cases pending <;> rfl
          | cons frame outer =>
              cases frame with
              | set => exact absurd (.inr ⟨closing, outer, pending, rfl, rfl⟩) braces
              | branch name arguments before => cases pending <;> rfl
      split
      · cases pending with
        | nothing => rfl
        | named name start ended => cases ended <;> rfl
        | called name start arguments => rfl
      · rfl
  | comment pending =>
      simp only [step, withoutSets]
      split <;> rfl
  | arguments name start list =>
      simp only [step, withoutSets]
      split <;> rfl

/-- A brace of a nameless set becomes a comma, and every other character stays. -/
theorem exists_next_withoutSets (stepped : reader.next limit character = some after) :
    ∃ kept, (kept = character ∨ (character = '{' ∨ character = '}') ∧ kept = ',') ∧
      ¬ (kept = '{' ∧ reader.place = .between .nothing) ∧
      reader.withoutSets.next limit kept = some after.withoutSets := by
  by_cases braces : reader.BracesSet character
  · have isBrace : character = '{' ∨ character = '}' := braces.imp And.left And.left
    exact ⟨',', .inr ⟨isBrace, rfl⟩, by simp, next_comma_withoutSets braces stepped⟩
  · refine ⟨character, .inl rfl, fun opens => braces (.inl opens), ?_⟩
    rw [next_withoutSets limit braces, stepped, Option.map_some]

theorem finish_withoutSets {selections : List Selection}
    (finished : reader.finish = some selections) :
    reader.withoutSets.finish = some selections := by
  obtain ⟨frames, complete, place⟩ := reader
  cases frames with
  | nil => exact finished
  | cons frame outer => cases place <;> cases finished

theorem exists_unbraced {text : List Char} {selections : List Selection}
    (given : reader.gives limit text = some selections) :
    ∃ plain, Unbraced text plain ∧ BracesNamed limit reader.withoutSets plain ∧
      reader.withoutSets.gives limit plain = some selections := by
  induction text generalizing reader with
  | nil =>
      refine ⟨[], .nil, ?_, finish_withoutSets given⟩
      intro front back split
      simp at split
  | cons character text ih =>
      rw [gives_cons] at given
      obtain ⟨after, stepped, givenBehind⟩ := Option.bind_eq_some_iff.mp given
      obtain ⟨kept, replaced, named, keptStepped⟩ := exists_next_withoutSets stepped
      obtain ⟨plain, unbraced, rest, gives⟩ := ih givenBehind
      refine ⟨kept :: plain, .cons replaced unbraced, ?_, ?_⟩
      · intro front back split behind read
        cases front with
        | nil =>
            cases split
            cases read
            exact fun isPlace => named ⟨rfl, isPlace⟩
        | cons first front =>
            cases split
            rw [List.foldlM_cons, keptStepped] at read
            exact rest front back rfl behind read
      · rw [gives_of_next keptStepped, gives]

end Reader

end OnePass

open OnePass

/-- Braces without a name separate and do nothing else: a query that is read with them can be
written without them. -/
theorem parse_unbraced {limit : DepthLimit} {text : String} {selections : List Selection}
    (accepted : parse limit text = .ok selections) :
    ∃ plain : String, Unbraced text.toList plain.toList ∧
      Reader.BracesNamed limit .start plain.toList ∧ parse limit plain = .ok selections := by
  rw [← Fallible.toOption_eq_some_iff, toOption_parse] at accepted
  obtain ⟨plain, unbraced, named, given⟩ := Reader.exists_unbraced accepted
  refine ⟨.ofList plain, ?_⟩
  rw [String.toList_ofList, ← Fallible.toOption_eq_some_iff, toOption_parse, Reader.read_eq_gives,
    String.toList_ofList]
  exact ⟨unbraced, named, given⟩

/-- A block without a name beside a field. -/
def besideText : String := "version,\x7bisBeta\x7d"

theorem parse_besideText :
    parse .unlimited besideText = .ok [.leaf "version", .leaf "isBeta"] ∧
      ∃ plain : String, Unbraced besideText.toList plain.toList ∧
        Reader.BracesNamed .unlimited .start plain.toList ∧
        parse .unlimited plain = .ok [.leaf "version", .leaf "isBeta"] := by
  have accepted : parse .unlimited besideText = .ok [.leaf "version", .leaf "isBeta"] := by
    rw [← Fallible.toOption_eq_some_iff, toOption_parse]
    rfl
  exact ⟨accepted, parse_unbraced accepted⟩

/-- A block without a name need not stand around its whole set: here its opening brace belongs to no
field, and a selection of the same set is complete in front of it. -/
theorem besideText_wraps_part :
    (∃ selections, parse .unlimited besideText = .ok selections) ∧
      besideText.toList = "version,".toList ++ '{' :: "isBeta\x7d".toList ∧
      ∃ behind : Reader,
        "version,".toList.foldlM (Reader.next .unlimited) Reader.start = some behind ∧
          behind.place = .between .nothing ∧ behind.frames = [] ∧
          behind.selections = [.leaf "version"] := by
  refine ⟨⟨[.leaf "version", .leaf "isBeta"], ?_⟩, rfl, ⟨_, rfl, rfl, rfl, rfl⟩⟩
  rw [← Fallible.toOption_eq_some_iff, toOption_parse]
  rfl

end FieldQuery.Query
