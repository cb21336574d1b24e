import FieldQuery.Json.Basic
import FieldQuery.Query.Path
import FieldQuery.Query.Selection

/-!
# Reading the interchange form

A JSON value that is not the interchange form of a query is refused with the first place that is
wrong: nodes come before what they contain, and of one branch its length comes first, then its
name, its selections as a whole, its arguments in the order of their keys, and last the selections
one by one. The path of the place names a branch from the point on where its name was read.
-/

set_option autoImplicit false

namespace FieldQuery.Interchange

open Query

inductive Fault where
  | queryNotList
  | neitherStringNorList
  | wrongLength
  | nameNotString
  | selectionsNotList
  | argumentsNotObject
  | argumentNotInteger (key : String)
  | argumentNeitherIntegerNorString (key : String)
  deriving DecidableEq

namespace Fault

def reason : Fault → String
  | .queryNotList => "the query must be a list"
  | .neitherStringNorList => "only string or list types are allowed"
  | .wrongLength => "a list must have two or three elements"
  | .nameNotString => "the first element of a list must be a string"
  | .selectionsNotList => "the second element of a list must be a list"
  | .argumentsNotObject => "the third element of a list must be an object"
  | .argumentNotInteger key => "argument '" ++ key ++ "' must be an integer"
  | .argumentNeitherIntegerNorString key =>
      "argument '" ++ key ++ "' must be an integer or a string"

end Fault

/-- The first place at which a JSON value departs from the interchange form. -/
structure ShapeError where
  path : Path
  fault : Fault
  deriving DecidableEq

def ShapeError.message (error : ShapeError) : String :=
  error.path.text ++ " incorrect data type: " ++ error.fault.reason

def decodeArgument (path : Path) (key : String) : Json → Except ShapeError ArgumentValue
  | .string value => .ok (.text value)
  | .number value =>
      match value.int64? with
      | some value => .ok (.integer value)
      | none => .error ⟨path, .argumentNotInteger key⟩
  | _ => .error ⟨path, .argumentNeitherIntegerNorString key⟩

def decodeArguments (path : Path) (members : List (String × Json)) :
    Except ShapeError Arguments := do
  let pairs ← members.mapM fun (key, value) => do return (key, ← decodeArgument path key value)
  return .ofList pairs

mutual

/-- Reads a selection; `path` names the branches around it. -/
def decodeSelection (path : Path) : Json → Except ShapeError Selection
  | .string name => .ok (.leaf name)
  | .array [.string name, .array selections] => do
      return .branch name .empty (← decodeSelections (path ++ [name]) selections)
  | .array [.string name, .array selections, .object members] => do
      let arguments ← decodeArguments (path ++ [name]) members
      return .branch name arguments (← decodeSelections (path ++ [name]) selections)
  | .array [.string name, .array _, _] => .error ⟨path ++ [name], .argumentsNotObject⟩
  | .array [.string name, _] => .error ⟨path ++ [name], .selectionsNotList⟩
  | .array [.string name, _, _] => .error ⟨path ++ [name], .selectionsNotList⟩
  | .array [_, _] => .error ⟨path, .nameNotString⟩
  | .array [_, _, _] => .error ⟨path, .nameNotString⟩
  | .array _ => .error ⟨path, .wrongLength⟩
  | _ => .error ⟨path, .neitherStringNorList⟩

def decodeSelections (path : Path) : List Json → Except ShapeError (List Selection)
  | [] => .ok []
  | item :: rest => do
      let selection ← decodeSelection path item
      return selection :: (← decodeSelections path rest)

end

def decode : Json → Except ShapeError (List Selection)
  | .array items => decodeSelections [] items
  | _ => .error ⟨[], .queryNotList⟩

end FieldQuery.Interchange
