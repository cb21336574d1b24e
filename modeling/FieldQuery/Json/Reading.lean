/-!
# Reading JSON text

What all readers share: the classes of faults, the result of reading one part of a text, blanks
and fixed words. A reader takes the characters from its part on and gives the rest behind the
part, which is shorter; reading goes from left to right, and the first fault ends it.
-/

set_option autoImplicit false

namespace FieldQuery.Json

inductive Fault where
  /-- The text ends inside a value. -/
  | ended
  /-- The text is not JSON, or would not be. -/
  | malformed
  /-- The text is JSON, but does not describe what is asked for. -/
  | mismatched
  deriving DecidableEq

/-- A part of a text that was read, and the rest of the text behind it. -/
structure Reading (α : Type) (input : List Char) where
  value : α
  rest : List Char
  shorter : rest.length < input.length

abbrev Reader (α : Type) := (input : List Char) → Except Fault (Reading α input)

namespace Reading

variable {α β : Type} {input inner : List Char}

/-- A part read behind the beginning of a text is read from that text. -/
def widen (reading : Reading α inner) (le : inner.length ≤ input.length) : Reading α input :=
  ⟨reading.value, reading.rest, Nat.lt_of_lt_of_le reading.shorter le⟩

def behindOne {character : Char} (reading : Reading α input) : Reading α (character :: input) :=
  reading.widen (Nat.le_succ input.length)

/-- The second of two parts, read from where the first one begins. -/
def followedBy (earlier : Reading α input) (later : Reading β earlier.rest) : Reading β input :=
  later.widen (Nat.le_of_lt earlier.shorter)

def map (change : α → β) (reading : Reading α input) : Reading β input :=
  ⟨change reading.value, reading.rest, reading.shorter⟩

end Reading

def isSeparator (character : Char) : Bool :=
  character == ' ' || character == '\n' || character == '\t' || character == '\r'

def dropSeparators (input : List Char) : List Char := input.dropWhile isSeparator

theorem length_dropSeparators_le (input : List Char) :
    (dropSeparators input).length ≤ input.length :=
  (List.dropWhile_suffix isSeparator).length_le

theorem length_lt_of_dropSeparators_eq {input rest : List Char} {character : Char}
    (dropped : dropSeparators input = character :: rest) : rest.length < input.length := by
  have bound := length_dropSeparators_le input
  rw [dropped] at bound
  exact bound

namespace Reading

variable {α : Type} {input rest : List Char} {character : Char}

def ofMark (value : α) (rest : List Char) (dropped : dropSeparators input = character :: rest) :
    Reading α input :=
  ⟨value, rest, length_lt_of_dropSeparators_eq dropped⟩

def behindMark (reading : Reading α rest) (dropped : dropSeparators input = character :: rest) :
    Reading α input :=
  reading.widen (Nat.le_of_lt (length_lt_of_dropSeparators_eq dropped))

def behindSeparators (reading : Reading α (character :: rest))
    (dropped : dropSeparators input = character :: rest) : Reading α input :=
  reading.widen (length_lt_of_dropSeparators_eq dropped)

end Reading

/-- Reads a fixed word that has begun: the rest of the text behind the characters still due. -/
def readWord : (due input : List Char) → Except Fault (List Char)
  | [], input => .ok input
  | _ :: _, [] => .error .ended
  | expected :: due, character :: rest =>
      if character = expected then readWord due rest else .error .malformed

theorem length_le_of_readWord {due input behind : List Char}
    (read : readWord due input = .ok behind) : behind.length ≤ input.length := by
  induction due generalizing input with
  | nil => cases read; exact Nat.le_refl _
  | cons expected due ih =>
      cases input with
      | nil => exact nomatch read
      | cons character tail =>
          simp only [readWord] at read
          split at read
          · exact Nat.le_succ_of_le (ih read)
          · exact nomatch read

def readMark (mark : Char) : Reader Unit := fun input =>
  match dropped : dropSeparators input with
  | [] => .error .ended
  | character :: rest =>
      if character = mark then .ok (.ofMark () rest dropped)
      else .error .malformed

def atEnd (input : List Char) : Bool := (dropSeparators input).isEmpty

end FieldQuery.Json
