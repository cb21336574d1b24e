import FieldQuery.Dict.Entries
import FieldQuery.Json.Layout

/-!
# JSON values

The value of a JSON text. A number is an integer of at most 64 bits, signed or unsigned, or a
finite floating-point number; an object lists its members, in ascending order of their keys if
it was read from a text.
-/

set_option autoImplicit false

namespace FieldQuery

inductive Json.Number where
  | integer (value : Int) (fits : Numeric.InInt64 value ∨ Numeric.InUInt64 value)
  | float (value : Numeric.Binary64) (finite : value.isFinite = true)
  deriving DecidableEq

inductive Json where
  | null
  | boolean (value : Bool)
  | number (value : Json.Number)
  | string (value : String)
  | array (items : List Json)
  | object (members : List (String × Json))

namespace Json

namespace Number

def ofInt64 (value : Int64) : Number :=
  .integer value.toInt (.inl (Numeric.inInt64_toInt value))

def ofUInt64 (value : UInt64) : Number :=
  .integer value.toNat (.inr (Numeric.inUInt64_toNat value))

def uint64? : Number → Option UInt64
  | .integer value _ => if Numeric.InUInt64 value then some (UInt64.ofNat value.toNat) else none
  | .float _ _ => none

def int64? : Number → Option Int64
  | .integer value _ => if Numeric.InInt64 value then some (Int64.ofInt value) else none
  | .float _ _ => none

def text : Number → String
  | .integer value _ => Text.decimal value
  | .float value _ => floatText value

end Number

instance : Inhabited Json := ⟨.null⟩

mutual

/-- The text of a value that stands at a level of indentation. -/
def render (layout : Layout) (level : Nat) : Json → String
  | .null => "null"
  | .boolean value => booleanText value
  | .number value => value.text
  | .string value => stringText value
  | .array items => layout.list level (renderItems layout (level + 1) items)
  | .object members => layout.object level (renderMembers layout (level + 1) members)

def renderItems (layout : Layout) (level : Nat) : List Json → List String
  | [] => []
  | item :: rest => render layout level item :: renderItems layout level rest

def renderMembers (layout : Layout) (level : Nat) : List (String × Json) → List String
  | [] => []
  | (key, value) :: rest =>
      layout.member key (render layout level value) :: renderMembers layout level rest

end

def compact (value : Json) : String := value.render .compact 0

end Json

end FieldQuery
