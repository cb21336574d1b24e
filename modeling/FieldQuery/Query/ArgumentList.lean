import FieldQuery.Query.ParseError
import FieldQuery.Query.Progress
import FieldQuery.Query.Selection
import FieldQuery.Text.Alphanumeric
import FieldQuery.Text.Blank

/-!
# Argument lists

What stands between the parentheses after a field name: pairs `key: value` separated by commas.
A value is a bare integer, or one or more quoted pieces that are joined. Blanks outside quotation
marks only separate, an empty place between commas is skipped, and a line feed is refused
everywhere, inside quotation marks too.

The list is read one character at a time. Its state holds the pairs read so far and the pair
being written, in one of the forms of `Slot`.
-/

set_option autoImplicit false

namespace FieldQuery.Query

/-- Where a quoted value stands with respect to its quotation marks. -/
inductive Quotation where
  /-- Between or behind the quoted pieces. -/
  | outside
  /-- Inside a quoted piece. -/
  | inside
  /-- Behind a backslash inside a quoted piece. -/
  | escaped
  deriving DecidableEq

inductive Slot where
  /-- No colon yet; `ended` says that a blank stands behind the non-empty key. -/
  | key (name : String) (ended : Bool)
  /-- A value without quotation marks; `spaced` says that a blank stands behind the non-empty
  token. -/
  | bare (key token : String) (spaced : Bool)
  /-- A value of quoted pieces, with the text that they give so far. -/
  | quoted (key text : String) (quotation : Quotation)
  deriving DecidableEq

namespace Slot

def empty : Slot := .key "" false

end Slot

def isKeyCharacter (character : Char) : Bool :=
  Text.isAlphanumeric character || character == '_' || character == '-'

structure ArgumentList where
  /-- The position of the opening parenthesis. -/
  openedAt : Position
  /-- The pairs that a comma has completed. -/
  arguments : Arguments
  slot : Slot
  deriving DecidableEq

namespace ArgumentList

def opened (openedAt : Position) : ArgumentList := ⟨openedAt, .empty, .empty⟩

def add (arguments : Arguments) (key : String) (value : ArgumentValue) (here : Position) :
    Except ParseError Arguments :=
  if arguments.contains key then .error (.duplicateArgument key here)
  else .ok (arguments.insert key value)

/-- The arguments once the slot is completed by the comma or parenthesis at `here`. -/
def commit (arguments : Arguments) (slot : Slot) (here : Position) : Except ParseError Arguments :=
  match slot with
  | .key name _ =>
      if name.isEmpty then .ok arguments else .error (.missingArgumentValue name here)
  | .bare key token _ =>
      if token.isEmpty then .error (.missingArgumentValue key here)
      else
        match Text.int64? token with
        | some value => add arguments key (.integer value) here
        | none => .error (.invalidArgumentValue key token here)
  | .quoted key text _ => add arguments key (.text text) here

/-- The character for which an escape stands: `n` is a line feed, all else is itself. -/
def unescape (character : Char) : Char := if character = 'n' then '\n' else character

/-- A blank outside quotation marks ends a key or a bare token that has begun. -/
def blank : Slot → Slot
  | .key name _ => .key name (!name.isEmpty)
  | .bare key token _ => .bare key token (!token.isEmpty)
  | .quoted key text quotation => .quoted key text quotation

/-- A character outside quotation marks that neither closes the slot nor is a blank. -/
def write (slot : Slot) (character : Char) (here : Position) : Except ParseError Slot :=
  match slot with
  | .key name ended =>
      if character = ':' then
        if name.isEmpty then .error (.missingArgumentKey here) else .ok (.bare name "" false)
      else if !ended && isKeyCharacter character then .ok (.key (name.push character) false)
      else .error (.unexpectedCharacter character here)
  | .bare key token spaced =>
      if character = '"' then
        if token.isEmpty then .ok (.quoted key "" .inside)
        else .error (.invalidArgumentValue key (token.push '"') here)
      else
        let joined := if spaced then token.push ' ' else token
        .ok (.bare key (joined.push character) false)
  | .quoted key text _ =>
      if character = '"' then .ok (.quoted key text .inside)
      else .error (.unexpectedCharacter character here)

def stepOutside (list : ArgumentList) (character : Char) (here : Position) :
    Except ParseError (Progress ArgumentList Arguments) :=
  if character = ')' then do
    let arguments ← commit list.arguments list.slot here
    return .closed arguments
  else if character = ',' then do
    let arguments ← commit list.arguments list.slot here
    return .waiting { list with arguments, slot := .empty }
  else if Text.isBlank character then
    .ok (.waiting { list with slot := blank list.slot })
  else do
    let slot ← write list.slot character here
    return .waiting { list with slot }

def step (list : ArgumentList) (character : Char) (here : Position) :
    Except ParseError (Progress ArgumentList Arguments) :=
  if character = '\n' then .error (.newlineInArguments here)
  else
    match list.slot with
    | .quoted key text .inside =>
        let slot :=
          if character = '\\' then Slot.quoted key text .escaped
          else if character = '"' then .quoted key text .outside
          else .quoted key (text.push character) .inside
        .ok (.waiting { list with slot })
    | .quoted key text .escaped =>
        .ok (.waiting { list with slot := .quoted key (text.push (unescape character)) .inside })
    | _ => list.stepOutside character here

end ArgumentList

end FieldQuery.Query
