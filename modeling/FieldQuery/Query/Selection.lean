import FieldQuery.Dict.Basic
import FieldQuery.Text.Decimal
import FieldQuery.Text.Quoted

/-!
# Selections

A query is a list of selections. A leaf asks for a scalar field; a branch asks for a collection
field and carries what is asked of every element, possibly nothing, together with arguments.
-/

set_option autoImplicit false

namespace FieldQuery.Query

inductive ArgumentValue where
  | integer (value : Int64)
  | text (value : String)
  deriving DecidableEq

namespace ArgumentValue

def integer? : ArgumentValue → Option Int64
  | .integer value => some value
  | .text _ => none

def text? : ArgumentValue → Option String
  | .integer _ => none
  | .text value => some value

/-- The value as it is shown to people: the digits of a number, or a text in quotes. -/
def shown : ArgumentValue → String
  | .integer value => Text.decimal value.toInt
  | .text value => Text.quotedString value

end ArgumentValue

abbrev Arguments := Dict ArgumentValue

inductive Selection where
  | leaf (name : String)
  | branch (name : String) (arguments : Arguments) (selections : List Selection)

namespace Selection

instance : Inhabited Selection := ⟨.leaf ""⟩

def name : Selection → String
  | .leaf name => name
  | .branch name _ _ => name

/-- Replaces the arguments of a branch; a leaf has none and stays. -/
def withArguments (selection : Selection) (arguments : Arguments) : Selection :=
  match selection with
  | .leaf name => .leaf name
  | .branch name _ selections => .branch name arguments selections

mutual

/-- The number of levels of a selection, its own included. -/
def depth : Selection → Nat
  | .leaf _ => 1
  | .branch _ _ selections => 1 + greatestDepth selections

def greatestDepth : List Selection → Nat
  | [] => 0
  | selection :: rest => max selection.depth (greatestDepth rest)

end

mutual

private def decideSelections : (left right : Selection) → Decidable (left = right)
  | .leaf left, .leaf right =>
      if same : left = right then isTrue (same ▸ rfl)
      else isFalse fun equal => same (Selection.leaf.inj equal)
  | .leaf _, .branch _ _ _ => isFalse nofun
  | .branch _ _ _, .leaf _ => isFalse nofun
  | .branch leftName leftArguments leftNested, .branch rightName rightArguments rightNested =>
      if names : leftName = rightName then
        if arguments : leftArguments = rightArguments then
          match decideSelectionLists leftNested rightNested with
          | isTrue nested => isTrue (by rw [names, arguments, nested])
          | isFalse different => isFalse fun equal => different (Selection.branch.inj equal).2.2
        else isFalse fun equal => arguments (Selection.branch.inj equal).2.1
      else isFalse fun equal => names (Selection.branch.inj equal).1

private def decideSelectionLists : (left right : List Selection) → Decidable (left = right)
  | [], [] => isTrue rfl
  | [], _ :: _ => isFalse nofun
  | _ :: _, [] => isFalse nofun
  | left :: leftRest, right :: rightRest =>
      match decideSelections left right, decideSelectionLists leftRest rightRest with
      | isTrue heads, isTrue tails => isTrue (by rw [heads, tails])
      | isFalse different, _ => isFalse fun equal => different (List.cons.inj equal).1
      | _, isFalse different => isFalse fun equal => different (List.cons.inj equal).2

end

instance : DecidableEq Selection := decideSelections

end Selection

end FieldQuery.Query
