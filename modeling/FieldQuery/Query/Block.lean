import FieldQuery.Query.ParseError
import FieldQuery.Query.Progress

/-!
# Blocks

The text between the braces of a branch. It is collected without being understood: only what
decides where the block ends is followed, that is nested braces, comments, argument lists and
quoted values. The closing brace is not part of the text.
-/

set_option autoImplicit false

namespace FieldQuery.Query

inductive Surroundings where
  | plain
  | comment
  | arguments
  /-- Inside a quoted value of an argument list. -/
  | quoted
  /-- Behind a backslash in a quoted value. -/
  | escaped
  deriving DecidableEq

namespace Surroundings

def inArguments : Surroundings → Bool
  | .plain | .comment => false
  | .arguments | .quoted | .escaped => true

def after : Surroundings → Char → Surroundings
  | .plain, character =>
      if character = '#' then .comment else if character = '(' then .arguments else .plain
  | .comment, character => if character = '\n' then .plain else .comment
  | .arguments, character =>
      if character = '"' then .quoted else if character = ')' then .plain else .arguments
  | .quoted, character =>
      if character = '\\' then .escaped else if character = '"' then .arguments else .quoted
  | .escaped, _ => .quoted

end Surroundings

structure Block where
  /-- The position of the opening brace. -/
  openedAt : Position
  /-- The position of the first character inside. -/
  origin : Position
  /-- The characters collected so far. -/
  text : String
  /-- The braces open, the one of the block included. -/
  openBraces : Nat
  surroundings : Surroundings
  deriving DecidableEq

namespace Block

def opened (openedAt : Position) : Block :=
  ⟨openedAt, openedAt.advance '{', "", 1, .plain⟩

def bracesAfter (block : Block) (character : Char) : Nat :=
  if block.surroundings = .plain then
    if character = '{' then block.openBraces + 1
    else if character = '}' then block.openBraces - 1
    else block.openBraces
  else block.openBraces

/-- One more character, which stands at `here`. The closed block is its text. -/
def step (block : Block) (character : Char) (here : Position) :
    Except ParseError (Progress Block String) :=
  if character = '\n' ∧ block.surroundings.inArguments then .error (.newlineInArguments here)
  else
    let openBraces := block.bracesAfter character
    if openBraces = 0 then .ok (.closed block.text)
    else
      .ok (.waiting { block with
        text := block.text.push character
        openBraces
        surroundings := block.surroundings.after character })

end Block

end FieldQuery.Query
