import FieldQuery.Dict.Basic
import FieldQuery.Json.Reader
import FieldQuery.Settings.Basic

/-!
# Reading settings

Settings are two sections, `parser` and `executor`, and a section is one number, `maxDepth`. Both
are records, and a record is written as an object or as the list of its fields in order. A field
that is missing has its default; a member of an object that is no field is skipped; a field that
is given twice is refused, and so is a list with more items than fields.
-/

set_option autoImplicit false

namespace FieldQuery.Settings

open Json

variable {α : Type}

/-- Refuses the value that begins a text, of whatever type it is. Only a scalar is read for that,
so that a fault inside it is found first. -/
def refuse (input : List Char) : Except Fault α :=
  match dropSeparators input with
  | [] => .error .ended
  | character :: rest =>
      if character = '[' ∨ character = '\x7b' then .error .mismatched
      else do
        let _ ← readScalar .kept character rest
        throw .mismatched

def readMaximum (input : List Char) : Except Fault (Reading DepthLimit input) := do
  match dropSeparators input with
  | [] => throw .ended
  | character :: _ =>
      if character = '-' ∨ character.isDigit then
        let scalar ← readValue .kept greatestDepth input
        match scalar.value with
        | .number value =>
            match value.uint64? with
            | some maximum => return scalar.map fun _ => ⟨maximum⟩
            | none => throw .mismatched
        | _ => throw .mismatched
      else refuse input

def readListEnd (input : List Char) : Except Fault (Reading (Dict α) input) := do
  let closing ← readMark ']' input
  return closing.map fun _ => .empty

def readFurtherItems (readField : Reader α) :
    List String → (input : List Char) → Except Fault (Reading (Dict α) input)
  | [], input => readListEnd input
  | name :: names, input =>
      match dropped : dropSeparators input with
      | [] => .error .ended
      | ']' :: rest => .ok (.ofMark .empty rest dropped)
      | ',' :: rest => do
          let item ← readField rest
          let others ← readFurtherItems readField names item.rest
          let fields := others.map fun fields => fields.insert name item.value
          return (item.followedBy fields).behindMark dropped
      | _ => .error .malformed

/-- Reads the items of a list behind its opening bracket, one for each field at most. -/
def readItems (readField : Reader α) :
    List String → (input : List Char) → Except Fault (Reading (Dict α) input)
  | [], input => readListEnd input
  | name :: names, input =>
      match dropped : dropSeparators input with
      | ']' :: rest => .ok (.ofMark .empty rest dropped)
      | _ => do
          let item ← readField input
          let others ← readFurtherItems readField names item.rest
          return item.followedBy (others.map fun fields => fields.insert name item.value)

def readMember (names : List String) (readField : Reader α) (fields : Dict α)
    (input : List Char) : Except Fault (Reading (Dict α) input) := do
  let key ← readKey .kept input
  if fields.contains key.value then throw .mismatched
  let colon ← readMark ':' key.rest
  if names.contains key.value then
    let value ← readField colon.rest
    let extended := value.map fun value => fields.insert key.value value
    return key.followedBy (colon.followedBy extended)
  else
    let skipped ← readValue .skipped 0 colon.rest
    return key.followedBy (colon.followedBy (skipped.map fun _ => fields))

def readFurtherMembers (names : List String) (readField : Reader α) (fields : Dict α)
    (input : List Char) : Except Fault (Reading (Dict α) input) :=
  match dropped : dropSeparators input with
  | [] => .error .ended
  | '\x7d' :: rest => .ok (.ofMark fields rest dropped)
  | ',' :: rest => do
      let member ← readMember names readField fields rest
      let others ← readFurtherMembers names readField member.value member.rest
      return (member.followedBy others).behindMark dropped
  | _ => .error .malformed
termination_by input.length
decreasing_by exact Nat.lt_trans member.shorter (length_lt_of_dropSeparators_eq dropped)

def readMembers (names : List String) (readField : Reader α) (input : List Char) :
    Except Fault (Reading (Dict α) input) :=
  match dropped : dropSeparators input with
  | '\x7d' :: rest => .ok (.ofMark .empty rest dropped)
  | _ => do
      let member ← readMember names readField .empty input
      let others ← readFurtherMembers names readField member.value member.rest
      return member.followedBy others

/-- Reads a record with the given fields, all of the same type. -/
def readRecord (names : List String) (readField : Reader α) : Reader (Dict α) := fun input =>
  match dropped : dropSeparators input with
  | '[' :: rest => do
      let fields ← readItems readField names rest
      return fields.behindMark dropped
  | '\x7b' :: rest => do
      let fields ← readMembers names readField rest
      return fields.behindMark dropped
  | _ => refuse input

def readSection (input : List Char) : Except Fault (Reading DepthLimit input) := do
  let fields ← readRecord ["maxDepth"] readMaximum input
  return fields.map fun fields => (fields.get? "maxDepth").getD .unlimited

def read (text : String) : Except Fault Settings := do
  let fields ← readRecord ["parser", "executor"] readSection text.toList
  if atEnd fields.rest then
    return ⟨(fields.value.get? "parser").getD .unlimited,
      (fields.value.get? "executor").getD .unlimited⟩
  else throw .malformed

/-- The settings of a text, if there is one, unless a limit for both stages takes their place. A
text that cannot be read is refused even then. -/
def load (text : Option String) (override : Option DepthLimit) : Except Fault Settings := do
  let settings ←
    match text with
    | some text => read text
    | none => pure .unlimited
  return match override with
    | some limit => .withMaxDepth limit
    | none => settings

end FieldQuery.Settings
