import FieldQuery.Json.Spelling

/-!
# Layout of JSON lists and objects

The compact layout has no blanks. The spread layout gives every part a line of its own, indented
by two spaces for each level. Both write an empty list or object without anything inside.
-/

set_option autoImplicit false

namespace FieldQuery.Json

inductive Layout where
  | compact
  | spread
  deriving DecidableEq

namespace Layout

def margin (level : Nat) : String := "\n" ++ String.ofList (List.replicate (2 * level) ' ')

/-- Parts between two marks, at a level of indentation. -/
def enclose (layout : Layout) (level : Nat) (opening closing : String) (parts : List String) :
    String :=
  match layout, parts with
  | _, [] => opening ++ closing
  | .compact, parts => opening ++ ",".intercalate parts ++ closing
  | .spread, parts =>
      opening ++ margin (level + 1) ++ ("," ++ margin (level + 1)).intercalate parts
        ++ margin level ++ closing

def list (layout : Layout) (level : Nat) (items : List String) : String :=
  layout.enclose level "[" "]" items

def member (layout : Layout) (key value : String) : String :=
  match layout with
  | .compact => stringText key ++ ":" ++ value
  | .spread => stringText key ++ ": " ++ value

def object (layout : Layout) (level : Nat) (members : List String) : String :=
  layout.enclose level "\x7b" "\x7d" members

end Layout

end FieldQuery.Json
