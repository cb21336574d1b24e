import FieldQuery.Proofs.Fallible
import FieldQuery.Query.ArgumentList

/-!
# Places that errors point to

What stands in a text at the position of an error. Most errors are shown by one character; an error
about a name is shown by the name, and a block that lies too deep by the brace before it.
-/

set_option autoImplicit false

namespace FieldQuery.Query

open Fallible

namespace ParseError

def position : ParseError → Position
  | unterminatedBrace position | unterminatedArguments position | newlineInArguments position
  | unexpectedClosingBrace position | unexpectedCharacter _ position
  | argumentsWithoutField position | argumentsWithoutSelection _ position
  | duplicateArgumentList _ position | missingArgumentKey position
  | missingArgumentValue _ position | duplicateArgument _ position
  | invalidArgumentValue _ _ position | depthLimitExceeded _ position => position

/-- A character by itself shows an error. -/
def ShownBy (character : Char) : ParseError → Prop
  | unterminatedBrace _ => character = '{'
  | unterminatedArguments _ | argumentsWithoutField _ | duplicateArgumentList _ _ =>
      character = '('
  | newlineInArguments _ => character = '\n'
  | unexpectedClosingBrace _ => character = '}'
  | unexpectedCharacter unexpected _ => character = unexpected
  | missingArgumentKey _ => character = ':'
  | missingArgumentValue _ _ | duplicateArgument _ _ => character = ',' ∨ character = ')'
  | invalidArgumentValue _ _ _ => character = ',' ∨ character = ')' ∨ character = '"'
  | argumentsWithoutSelection _ _ | depthLimitExceeded _ _ => False

def ShownAt (text : List Char) (index : Nat) : ParseError → Prop
  | argumentsWithoutSelection name _ => name ≠ "" ∧ name.toList <+: text.drop index
  | depthLimitExceeded _ _ => 0 < index ∧ text[index - 1]? = some '{'
  | error => ∃ character, text[index]? = some character ∧ error.ShownBy character

/-- The position of an error is that of a character of a text, and what stands there shows the
error. -/
def PointsInto (text : List Char) (error : ParseError) : Prop :=
  ∃ index < text.length,
    error.position = Position.start.after (text.take index) ∧ error.ShownAt text index

theorem ShownAt.append {text : List Char} {index : Nat} {error : ParseError}
    (within : index < text.length) (shown : error.ShownAt text index) (more : List Char) :
    error.ShownAt (text ++ more) index := by
  have same (other : Nat) (le : other ≤ index) : (text ++ more)[other]? = text[other]? :=
    List.getElem?_append_left (Nat.lt_of_le_of_lt le within)
  cases error with
  | argumentsWithoutSelection name start =>
      obtain ⟨nonempty, begins⟩ := shown
      refine ⟨nonempty, ?_⟩
      rw [List.drop_append_of_le_length (Nat.le_of_lt within)]
      exact begins.trans (List.prefix_append _ _)
  | depthLimitExceeded limit start =>
      obtain ⟨behind, brace⟩ := shown
      exact ⟨behind, (same _ (Nat.sub_le index 1)).trans brace⟩
  | _ =>
      obtain ⟨character, stands, shows⟩ := shown
      exact ⟨character, (same index (Nat.le_refl _)).trans stands, shows⟩

theorem PointsInto.append {text : List Char} {error : ParseError} (points : error.PointsInto text)
    (more : List Char) : error.PointsInto (text ++ more) := by
  obtain ⟨index, within, position, shown⟩ := points
  refine ⟨index, ?_, ?_, shown.append within more⟩
  · rw [List.length_append]
    omega
  · rw [List.take_append_of_le_length (Nat.le_of_lt within)]
    exact position

def Blames (here : Position) (character : Char) (error : ParseError) : Prop :=
  error.position = here ∧ error.ShownBy character

theorem Blames.pointsInto {front : List Char} {character : Char} {error : ParseError}
    (blames : error.Blames (Position.start.after front) character) (rest : List Char) :
    error.PointsInto (front ++ character :: rest) := by
  obtain ⟨position, shows⟩ := blames
  have upTo : (front ++ character :: rest).take front.length = front := List.take_left
  have stands : (front ++ character :: rest)[front.length]? = some character := by
    rw [List.getElem?_append_right (Nat.le_refl _), Nat.sub_self]
    rfl
  refine ⟨front.length, by simp, by rw [upTo]; exact position, ?_⟩
  cases error with
  | argumentsWithoutSelection => cases shows
  | depthLimitExceeded => cases shows
  | _ => exact ⟨character, stands, shows⟩

end ParseError

def Marks (text : List Char) (character : Char) (position : Position) : Prop :=
  ∃ front back, text = front ++ character :: back ∧ position = Position.start.after front

theorem Marks.append {text : List Char} {character : Char} {position : Position}
    (marks : Marks text character position) (more : List Char) :
    Marks (text ++ more) character position := by
  obtain ⟨front, back, rfl, rfl⟩ := marks
  exact ⟨front, back ++ more, by simp, rfl⟩

theorem marks_last (front : List Char) (character : Char) :
    Marks (front ++ [character]) character (Position.start.after front) := ⟨front, [], rfl, rfl⟩

theorem Marks.pointsInto {text : List Char} {character : Char} {error : ParseError}
    (marks : Marks text character error.position) (shows : error.ShownBy character) :
    error.PointsInto text := by
  obtain ⟨front, back, rfl, position⟩ := marks
  exact ParseError.Blames.pointsInto ⟨position, shows⟩ back

def Written (text : List Char) (name : String) (position : Position) : Prop :=
  name ≠ "" ∧ ∃ front back,
    text = front ++ (name.toList ++ back) ∧ position = Position.start.after front

theorem Written.append {text : List Char} {name : String} {position : Position}
    (written : Written text name position) (more : List Char) :
    Written (text ++ more) name position := by
  obtain ⟨nonempty, front, back, rfl, rfl⟩ := written
  exact ⟨nonempty, front, back ++ more, by simp, rfl⟩

theorem Written.pointsInto {text : List Char} {name : String} {position : Position}
    (written : Written text name position) :
    (ParseError.argumentsWithoutSelection name position).PointsInto text := by
  obtain ⟨nonempty, front, back, rfl, rfl⟩ := written
  have positive : 0 < name.toList.length := by
    rw [List.length_pos_iff]
    intro empty
    exact nonempty (String.toList_eq_nil_iff.mp empty)
  refine ⟨front.length, ?_, ?_, nonempty, ?_⟩
  · rw [List.length_append, List.length_append]
    omega
  · rw [List.take_left]
    rfl
  · rw [List.drop_left]
    exact List.prefix_append _ _

namespace ArgumentList

theorem blames_of_add {arguments : Arguments} {key : String} {value : ArgumentValue}
    {here : Position} {character : Char} {error : ParseError}
    (ends : character = ',' ∨ character = ')')
    (failed : add arguments key value here = .error error) : error.Blames here character := by
  simp only [add] at failed
  split at failed <;> cases failed
  exact ⟨rfl, ends⟩

theorem blames_of_commit {arguments : Arguments} {slot : Slot} {here : Position}
    {character : Char} {error : ParseError} (ends : character = ',' ∨ character = ')')
    (failed : commit arguments slot here = .error error) : error.Blames here character := by
  cases slot with
  | key name ended =>
      simp only [commit] at failed
      split at failed <;> cases failed
      exact ⟨rfl, ends⟩
  | bare key token spaced =>
      simp only [commit] at failed
      split at failed
      · cases failed
        exact ⟨rfl, ends⟩
      split at failed
      · exact blames_of_add ends failed
      · cases failed
        exact ⟨rfl, ends.imp_right .inl⟩
  | quoted key text quotation => exact blames_of_add ends failed

theorem blames_of_write {slot : Slot} {character : Char} {here : Position} {error : ParseError}
    (failed : write slot character here = .error error) : error.Blames here character := by
  cases slot with
  | key name ended =>
      simp only [write] at failed
      split at failed
      · next colon =>
          split at failed <;> cases failed
          exact ⟨rfl, colon⟩
      · split at failed <;> cases failed
        exact ⟨rfl, rfl⟩
  | bare key token spaced =>
      simp only [write] at failed
      split at failed
      · next quote =>
          split at failed <;> cases failed
          exact ⟨rfl, .inr (.inr quote)⟩
      · cases failed
  | quoted key text quotation =>
      simp only [write] at failed
      split at failed <;> cases failed
      exact ⟨rfl, rfl⟩

theorem blames_of_step {list : ArgumentList} {character : Char} {here : Position}
    {error : ParseError} (failed : list.step character here = .error error) :
    error.Blames here character := by
  simp only [step] at failed
  split at failed
  · next newline =>
      cases failed
      exact ⟨rfl, newline⟩
  split at failed
  · cases failed
  · cases failed
  simp only [stepOutside] at failed
  split at failed
  · next closing =>
      rcases bind_eq_error_iff.mp failed with uncommitted | ⟨_, _, returned⟩
      · exact blames_of_commit (.inr closing) uncommitted
      · cases returned
  split at failed
  · next comma =>
      rcases bind_eq_error_iff.mp failed with uncommitted | ⟨_, _, returned⟩
      · exact blames_of_commit (.inl comma) uncommitted
      · cases returned
  split at failed
  · cases failed
  · rcases bind_eq_error_iff.mp failed with unwritten | ⟨_, _, returned⟩
    · exact blames_of_write unwritten
    · cases returned

theorem openedAt_of_step {list next : ArgumentList} {character : Char} {here : Position}
    (stepped : list.step character here = .ok (.waiting next)) :
    next.openedAt = list.openedAt := by
  simp only [step] at stepped
  split at stepped
  · cases stepped
  split at stepped
  · cases stepped
    rfl
  · cases stepped
    rfl
  simp only [stepOutside] at stepped
  split at stepped
  · obtain ⟨_, _, closed⟩ := bind_eq_ok_iff.mp stepped
    cases closed
  split at stepped
  · obtain ⟨_, _, waiting⟩ := bind_eq_ok_iff.mp stepped
    cases waiting
    rfl
  split at stepped
  · cases stepped
    rfl
  · obtain ⟨_, _, waiting⟩ := bind_eq_ok_iff.mp stepped
    cases waiting
    rfl

end ArgumentList

end FieldQuery.Query
