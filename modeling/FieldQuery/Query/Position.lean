import FieldQuery.Text.Decimal

/-!
# Positions in query text

A position counts lines and columns from one. A column is a character, and only a line feed
ends a line.
-/

set_option autoImplicit false

namespace FieldQuery.Query

/-- A place in the text, both coordinates counted from one. -/
structure Position where
  line : Nat
  column : Nat
  deriving DecidableEq

namespace Position

def start : Position := ⟨1, 1⟩

instance : Inhabited Position := ⟨start⟩

def advance (position : Position) (character : Char) : Position :=
  if character = '\n' then ⟨position.line + 1, 1⟩ else ⟨position.line, position.column + 1⟩

def after (position : Position) (characters : List Char) : Position :=
  characters.foldl advance position

def text (position : Position) : String :=
  "line " ++ Text.decimal position.line ++ ", column " ++ Text.decimal position.column

@[simp] theorem after_nil (position : Position) : position.after [] = position := rfl

@[simp] theorem after_cons (position : Position) (character : Char) (rest : List Char) :
    position.after (character :: rest) = (position.advance character).after rest := rfl

theorem after_append (position : Position) (front back : List Char) :
    position.after (front ++ back) = (position.after front).after back :=
  List.foldl_append

end Position

end FieldQuery.Query
