import FieldQuery.Dict.Basic
import FieldQuery.Numeric.Binary64

/-!
# Values

What fields hold and queries return. Integers and floating-point numbers are kept apart, and an
object lists its members in ascending order of their names.
-/

set_option autoImplicit false

namespace FieldQuery

inductive Value where
  | null
  | boolean (value : Bool)
  | integer (value : Int64)
  | float (value : Numeric.Binary64)
  | string (value : String)
  | array (items : List Value)
  | object (members : List (String × Value))

namespace Value

instance : Inhabited Value := ⟨.null⟩

def isNull : Value → Bool
  | .null => true
  | _ => false

def string? : Value → Option String
  | .string value => some value
  | _ => none

/-- The integer; a floating-point number is none. -/
def integer? : Value → Option Int64
  | .integer value => some value
  | _ => none

def boolean? : Value → Option Bool
  | .boolean value => some value
  | _ => none

def items? : Value → Option (List Value)
  | .array items => some items
  | _ => none

def get? (value : Value) (name : String) : Option Value :=
  match value with
  | .object members => members.lookup name
  | _ => none

def ofDict (members : Dict Value) : Value := .object members.entries

mutual

/-- Whether two values are equal when their floating-point numbers are compared as numbers. An
integer equals no floating-point number. -/
def same : Value → Value → Bool
  | .null, .null => true
  | .boolean left, .boolean right => left == right
  | .integer left, .integer right => left == right
  | .float left, .float right => left.sameNumber right
  | .string left, .string right => left == right
  | .array left, .array right => sameItems left right
  | .object left, .object right => sameMembers left right
  | _, _ => false

def sameItems : List Value → List Value → Bool
  | [], [] => true
  | left :: leftRest, right :: rightRest => same left right && sameItems leftRest rightRest
  | _, _ => false

def sameMembers : List (String × Value) → List (String × Value) → Bool
  | [], [] => true
  | (leftName, left) :: leftRest, (rightName, right) :: rightRest =>
      leftName == rightName && same left right && sameMembers leftRest rightRest
  | _, _ => false

end

end Value

end FieldQuery
