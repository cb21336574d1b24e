import FieldQuery.Json.Basic
import FieldQuery.Numeric.Rounding
import FieldQuery.Value.Basic

/-!
# Values and JSON values

A value becomes a JSON value by structure; only a floating-point number that is not finite has no
JSON form and becomes null. In the other direction an integer beyond the signed range becomes the
nearest floating-point number.
-/

set_option autoImplicit false

namespace FieldQuery.Value

open Numeric

mutual

def toJson : Value → Json
  | .null => .null
  | .boolean value => .boolean value
  | .integer value => .number (.ofInt64 value)
  | .float value => if finite : value.isFinite = true then .number (.float value finite) else .null
  | .string value => .string value
  | .array items => .array (itemsToJson items)
  | .object members => .object (membersToJson members)

def itemsToJson : List Value → List Json
  | [] => []
  | item :: rest => toJson item :: itemsToJson rest

def membersToJson : List (String × Value) → List (String × Json)
  | [] => []
  | (name, value) :: rest => (name, toJson value) :: membersToJson rest

end

def ofNumber (number : Json.Number) : Value :=
  match number with
  | .integer value _ =>
      match number.int64? with
      | some fitting => .integer fitting
      | none => .float (Binary64.ofQuotient value.toNat 1)
  | .float value _ => .float value

mutual

def ofJson : Json → Value
  | .null => .null
  | .boolean value => .boolean value
  | .number value => ofNumber value
  | .string value => .string value
  | .array items => .array (itemsOfJson items)
  | .object members => .object (membersOfJson members)

def itemsOfJson : List Json → List Value
  | [] => []
  | item :: rest => ofJson item :: itemsOfJson rest

def membersOfJson : List (String × Json) → List (String × Value)
  | [] => []
  | (name, value) :: rest => (name, ofJson value) :: membersOfJson rest

end

end FieldQuery.Value
