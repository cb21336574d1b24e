import FieldQuery.Json.Numeral
import FieldQuery.Json.QuotedText

/-!
# Reading JSON values

Lists and objects nest at most 127 deep in a value that is kept; of members with the same key the
last one counts. In a value that is skipped neither the depth nor the range of numbers matters.
-/

set_option autoImplicit false

namespace FieldQuery.Json

/-- The greatest depth of lists and objects in a value that is kept. -/
def greatestDepth : Nat := 127

/-- Reads a word that stands for a value, behind its first letter. -/
def readLiteral (first : Char) (due : List Char) (value : Json) (rest : List Char) :
    Except Fault (Reading Json (first :: rest)) :=
  match read : readWord due rest with
  | .ok behind => .ok ⟨value, behind, Nat.lt_succ_of_le (length_le_of_readWord read)⟩
  | .error fault => .error fault

def readNumber (care : Care) (input : List Char) : Except Fault (Reading Json input) :=
  match care with
  | .skipped => do
      let numeral ← Numeral.read .malformed input
      return numeral.map fun _ => .null
  | .kept => do
      let numeral ← Numeral.read .ended input
      match numeral.value.number? with
      | some value => return numeral.map fun _ => .number value
      | none => throw .malformed

def readScalar (care : Care) (character : Char) (rest : List Char) :
    Except Fault (Reading Json (character :: rest)) :=
  match character with
  | 'n' => readLiteral 'n' ['u', 'l', 'l'] .null rest
  | 't' => readLiteral 't' ['r', 'u', 'e'] (.boolean true) rest
  | 'f' => readLiteral 'f' ['a', 'l', 's', 'e'] (.boolean false) rest
  | '"' => do
      let text ← readString care "" rest
      return (text.map Json.string).behindOne
  | character =>
      if character = '-' ∨ character.isDigit then readNumber care (character :: rest)
      else .error .malformed

def readKey (care : Care) (input : List Char) : Except Fault (Reading String input) :=
  match dropped : dropSeparators input with
  | [] => .error .ended
  | character :: rest =>
      if character = '"' then do
        let key ← readString care "" rest
        return key.behindMark dropped
      else .error .malformed

mutual

/-- Reads a value inside of which `room` further lists and objects may nest. -/
def readValue (care : Care) (room : Nat) (input : List Char) :
    Except Fault (Reading Json input) :=
  match dropped : dropSeparators input with
  | [] => .error .ended
  | '[' :: rest =>
      if care = .kept ∧ room = 0 then .error .malformed
      else do
        let items ← readItems care (room - 1) rest
        return (items.map Json.array).behindMark dropped
  | '\x7b' :: rest =>
      if care = .kept ∧ room = 0 then .error .malformed
      else do
        let members ← readMembers care (room - 1) rest
        return (members.map fun members => Json.object (Entries.collect members)).behindMark
          dropped
  | character :: rest => do
      let scalar ← readScalar care character rest
      return scalar.behindSeparators dropped
termination_by (input.length, 0)
decreasing_by
  all_goals exact Prod.Lex.left _ _ (length_lt_of_dropSeparators_eq dropped)

def readItems (care : Care) (room : Nat) (input : List Char) :
    Except Fault (Reading (List Json) input) :=
  match dropped : dropSeparators input with
  | ']' :: rest => .ok (.ofMark [] rest dropped)
  | _ => do
      let item ← readValue care room input
      let others ← readFurtherItems care room item.rest
      return item.followedBy (others.map (item.value :: ·))
termination_by (input.length, 1)
decreasing_by
  · exact Prod.Lex.right _ Nat.zero_lt_one
  · exact Prod.Lex.left _ _ item.shorter

def readFurtherItems (care : Care) (room : Nat) (input : List Char) :
    Except Fault (Reading (List Json) input) :=
  match dropped : dropSeparators input with
  | [] => .error .ended
  | ']' :: rest => .ok (.ofMark [] rest dropped)
  | ',' :: rest => do
      let item ← readValue care room rest
      let others ← readFurtherItems care room item.rest
      return (item.followedBy (others.map (item.value :: ·))).behindMark dropped
  | _ => .error .malformed
termination_by (input.length, 0)
decreasing_by
  · exact Prod.Lex.left _ _ (length_lt_of_dropSeparators_eq dropped)
  · exact Prod.Lex.left _ _ (Nat.lt_trans item.shorter (length_lt_of_dropSeparators_eq dropped))

def readMembers (care : Care) (room : Nat) (input : List Char) :
    Except Fault (Reading (List (String × Json)) input) :=
  match dropped : dropSeparators input with
  | '\x7d' :: rest => .ok (.ofMark [] rest dropped)
  | _ => do
      let member ← readMember care room input
      let others ← readFurtherMembers care room member.rest
      return member.followedBy (others.map (member.value :: ·))
termination_by (input.length, 2)
decreasing_by
  · exact Prod.Lex.right _ (by decide)
  · exact Prod.Lex.left _ _ member.shorter

def readMember (care : Care) (room : Nat) (input : List Char) :
    Except Fault (Reading (String × Json) input) := do
  let key ← readKey care input
  let colon ← readMark ':' key.rest
  let value ← readValue care room colon.rest
  return key.followedBy (colon.followedBy (value.map fun value => (key.value, value)))
termination_by (input.length, 1)
decreasing_by exact Prod.Lex.left _ _ (Nat.lt_trans colon.shorter key.shorter)

def readFurtherMembers (care : Care) (room : Nat) (input : List Char) :
    Except Fault (Reading (List (String × Json)) input) :=
  match dropped : dropSeparators input with
  | [] => .error .ended
  | '\x7d' :: rest => .ok (.ofMark [] rest dropped)
  | ',' :: rest => do
      let member ← readMember care room rest
      let others ← readFurtherMembers care room member.rest
      return (member.followedBy (others.map (member.value :: ·))).behindMark dropped
  | _ => .error .malformed
termination_by (input.length, 0)
decreasing_by
  · exact Prod.Lex.left _ _ (length_lt_of_dropSeparators_eq dropped)
  · exact Prod.Lex.left _ _ (Nat.lt_trans member.shorter (length_lt_of_dropSeparators_eq dropped))

end

def read (text : String) : Except Fault Json := do
  let value ← readValue .kept greatestDepth text.toList
  if atEnd value.rest then return value.value else throw .malformed

end FieldQuery.Json
