import FieldQuery.Json.Writer
import FieldQuery.Value.Basic

/-!
# JSON texts of values

A value is written as JSON directly, without a JSON value in between: its content is told to a
writer, whatever form it has.
-/

set_option autoImplicit false

namespace FieldQuery.Value

open Json

variable {Part Error : Type}

mutual

def tell (writer : Json.Writer Part Error) : Value → Except Error Part
  | .null => writer.null
  | .boolean value => writer.boolean value
  | .integer value => writer.integer value
  | .float value => writer.float value
  | .string value => writer.string value
  | .array items => do writer.sequence (← tellItems writer items)
  | .object members => do writer.mapping (← tellMembers writer members)

def tellItems (writer : Json.Writer Part Error) : List Value → Except Error (List Part)
  | [] => return []
  | item :: rest => return (← tell writer item) :: (← tellItems writer rest)

def tellMembers (writer : Json.Writer Part Error) :
    List (String × Value) → Except Error (List (String × Part))
  | [] => return []
  | (name, value) :: rest => return (name, ← tell writer value) :: (← tellMembers writer rest)

end

def write (value : Value) (printer : Printer Part Error) : Except Error String :=
  return printer.text (← value.tell printer.writer)

end FieldQuery.Value
