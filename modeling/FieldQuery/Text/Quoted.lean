import FieldQuery.Text.Hidden

/-!
# Quoted text

The form in which messages show a character or a string: between quotation marks, on one line,
with every character that could be misread written as an escape. A mark is escaped only inside
marks of its own kind.
-/

set_option autoImplicit false

namespace FieldQuery.Text

/-- A code point in lower-case hexadecimal digits, without leading zeros. -/
def hexadecimal (code : Nat) : String := String.ofList (Nat.toDigits 16 code)

/-- One character as it stands between two `mark`s. -/
def escaped (mark character : Char) : String :=
  if character = '\x00' then "\\0"
  else if character = '\t' then "\\t"
  else if character = '\r' then "\\r"
  else if character = '\n' then "\\n"
  else if character = '\\' then "\\\\"
  else if character = mark then "\\".push mark
  else if isHidden character then "\\u\x7b" ++ hexadecimal character.toNat ++ "\x7d"
  else String.singleton character

def quotedChar (character : Char) : String := "'" ++ escaped '\'' character ++ "'"

def quotedString (text : String) : String :=
  "\"" ++ String.join (text.toList.map (escaped '"')) ++ "\""

end FieldQuery.Text
