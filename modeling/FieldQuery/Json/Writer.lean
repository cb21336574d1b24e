import FieldQuery.Json.Basic
import FieldQuery.Json.Reading

/-!
# Writing JSON texts

A writer does not know the types whose data it writes. It is told the parts of the data, those
inside before those around them, and may refuse a part. A library has writers for two layouts, and
in both it prints JSON values of its own. The library of this program comes last; nothing else
depends on what it makes of a part.
-/

set_option autoImplicit false

namespace FieldQuery.Json

/-- What is made of each part of data. -/
structure Writer (Part Error : Type) where
  null : Except Error Part
  boolean : Bool → Except Error Part
  integer : Int64 → Except Error Part
  float : Numeric.Binary64 → Except Error Part
  string : String → Except Error Part
  sequence : List Part → Except Error Part
  mapping : List (String × Part) → Except Error Part

/-- A layout of a library: its writer, what is made of a JSON value, and the text of a whole. -/
structure Printer (Part Error : Type) where
  writer : Writer Part Error
  tree : Json → Except Error Part
  text : Part → String

structure Library (Part Error : Type) where
  compact : Printer Part Error
  spread : Printer Part Error
  /-- The text of a JSON value where no error can be handed on. -/
  display : Json → String

def write {Part Error : Type} (json : Json) (printer : Printer Part Error) :
    Except Error String :=
  return printer.text (← printer.tree json)

namespace Layout

/-- A part is the text that it has at a level of indentation. -/
def writer (layout : Layout) : Writer (Nat → String) Fault where
  null := .ok fun _ => "null"
  boolean value := .ok fun _ => booleanText value
  integer value := .ok fun _ => Text.decimal value.toInt
  float value := .ok fun _ => if value.isFinite then floatText value else "null"
  string value := .ok fun _ => stringText value
  sequence items := .ok fun level => layout.list level (items.map fun item => item (level + 1))
  mapping members := .ok fun level =>
    layout.object level (members.map fun (key, value) => layout.member key (value (level + 1)))

def printer (layout : Layout) : Printer (Nat → String) Fault where
  writer := layout.writer
  tree json := .ok fun level => json.render layout level
  text part := part 0

end Layout

def library : Library (Nat → String) Fault where
  compact := Layout.compact.printer
  spread := Layout.spread.printer
  display := compact

end FieldQuery.Json
