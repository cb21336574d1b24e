import FieldQuery.Json.Basic
import FieldQuery.Query.Selection

/-!
# The interchange form of queries

A query as a JSON list. A leaf is its name; a branch is a list of its name, the list of its
selections and, only if it has arguments, an object of these.
-/

set_option autoImplicit false

namespace FieldQuery.Interchange

open Query

def encodeArgument : ArgumentValue → Json
  | .integer value => .number (.ofInt64 value)
  | .text value => .string value

def encodeArguments (arguments : Arguments) : List (String × Json) :=
  arguments.entries.map fun (key, value) => (key, encodeArgument value)

mutual

def encodeSelection : Selection → Json
  | .leaf name => .string name
  | .branch name arguments selections =>
      if arguments.isEmpty then .array [.string name, .array (encodeSelections selections)]
      else
        .array [.string name, .array (encodeSelections selections),
          .object (encodeArguments arguments)]

def encodeSelections : List Selection → List Json
  | [] => []
  | selection :: rest => encodeSelection selection :: encodeSelections rest

end

def encode (selections : List Selection) : Json := .array (encodeSelections selections)

end FieldQuery.Interchange
