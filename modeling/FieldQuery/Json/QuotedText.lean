import FieldQuery.Json.Reading

/-!
# Strings of JSON texts

A string ends at the first quotation mark that is not escaped. A character beyond sixteen bits
can be written as two escaped code units; in a string whose value is kept, code units that do not
pair up are refused, and in one that is skipped they are not looked at.
-/

set_option autoImplicit false

namespace FieldQuery.Json

/-- Whether the value of a part of the text is kept or skipped. -/
inductive Care where
  | kept
  | skipped
  deriving DecidableEq

def hexadecimalDigit? (character : Char) : Option Nat :=
  if character.isDigit then some (character.toNat - '0'.toNat)
  else if 'a' ≤ character ∧ character ≤ 'f' then some (character.toNat - 'a'.toNat + 10)
  else if 'A' ≤ character ∧ character ≤ 'F' then some (character.toNat - 'A'.toNat + 10)
  else none

/-- Reads the four hexadecimal digits of a code unit. The text ends too early if it has fewer than
four bytes left, whatever they are. -/
def readCodeUnit : Reader Nat
  | first :: second :: third :: fourth :: rest =>
      match [first, second, third, fourth].mapM hexadecimalDigit? with
      | some digits =>
          .ok ⟨digits.foldl (fun value digit => 16 * value + digit) 0, rest, by
            simp only [List.length_cons]; omega⟩
      | none => .error .malformed
  | short =>
      let size := short.foldl (fun size character => size + character.utf8Size) 0
      .error (if size < 4 then .ended else .malformed)

def escapedCharacter? (character : Char) : Option Char :=
  match character with
  | '"' => some '"'
  | '\\' => some '\\'
  | '/' => some '/'
  | 'b' => some '\x08'
  | 'f' => some '\x0c'
  | 'n' => some '\n'
  | 'r' => some '\r'
  | 't' => some '\t'
  | _ => none

def isLeading (unit : Nat) : Bool := 0xD800 ≤ unit && unit < 0xDC00

def isTrailing (unit : Nat) : Bool := 0xDC00 ≤ unit && unit < 0xE000

/-- Reads the second code unit of a pair, from its backslash on, and gives the character of the
pair. -/
def readTrailingUnit (leading : Nat) : Reader Char
  | [] | ['\\'] => .error .ended
  | '\\' :: 'u' :: rest => do
      let unit ← readCodeUnit rest
      if isTrailing unit.value then
        let code := 0x10000 + (leading - 0xD800) * 0x400 + (unit.value - 0xDC00)
        return (unit.map fun _ => Char.ofNat code).behindOne.behindOne
      else throw .malformed
  | _ => .error .malformed

/-- Reads an escaped code unit behind its `u`, with the second one of a pair. -/
def readUnicode (care : Care) (input : List Char) : Except Fault (Reading Char input) := do
  let unit ← readCodeUnit input
  match care with
  | .skipped => return unit.map fun _ => '?'
  | .kept =>
      if isTrailing unit.value then throw .malformed
      else if isLeading unit.value then
        let character ← readTrailingUnit unit.value unit.rest
        return unit.followedBy character
      else return unit.map Char.ofNat

/-- Reads a string behind its opening quotation mark; `text` is what was read of it before. -/
def readString (care : Care) (text : String) (input : List Char) :
    Except Fault (Reading String input) :=
  match input with
  | [] | ['\\'] => .error .ended
  | '"' :: rest => .ok ⟨text, rest, Nat.lt_succ_self _⟩
  | '\\' :: 'u' :: rest => do
      let character ← readUnicode care rest
      let string ← readString care (text.push character.value) character.rest
      return (character.followedBy string).behindOne.behindOne
  | '\\' :: escape :: rest =>
      match escapedCharacter? escape with
      | some character => do
          let string ← readString care (text.push character) rest
          return string.behindOne.behindOne
      | none => .error .malformed
  | character :: rest =>
      if character.toNat < 0x20 then .error .malformed
      else do
        let string ← readString care (text.push character) rest
        return string.behindOne
termination_by input.length
decreasing_by
  all_goals simp only [List.length_cons]
  · have := character.shorter; omega
  · omega
  · omega

end FieldQuery.Json
