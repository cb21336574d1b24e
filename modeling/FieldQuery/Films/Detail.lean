import FieldQuery.Text.Decimal
import FieldQuery.Value.Basic

/-!
# Details of films

Name, description and release year of a film, all derived from its number and a seed: one seed
always yields the same films. The part number shown to a reader is the sum of the number of a film
and one. A sum that is no word is a fault, and so is a text that is picked where there is none.
-/

set_option autoImplicit false

namespace FieldQuery.Films

/-- A hash of a film and a seed; different salts give unrelated hashes. -/
def hash (seed film : Int64) (salt : UInt64) : Nat :=
  let mixed := (seed.toUInt64 ^^^ ((film.toUInt64 + 1) <<< 16) ^^^ salt) * 0x9E3779B97F4A7C15
  (mixed ^^^ (mixed >>> 29)).toNat

inductive Fault where
  | sumOutOfRange
  | noText
  deriving DecidableEq

def Fault.message : Fault → String
  | .sumOutOfRange => "attempt to add with overflow"
  | .noText => "index out of bounds"

/-- The sum of two words, which has to be a word. -/
def sum (left right : Int64) : Except Fault Int64 :=
  if Numeric.InInt64 (left.toInt + right.toInt) then .ok (left + right) else .error .sumOutOfRange

def pick (texts : List String) (hash : Nat) : Except Fault String :=
  match texts[hash % texts.length]? with
  | some text => .ok text
  | none => .error .noText

def titles : List String := [
  "A spider under the bed", "Spider vs. fly", "The most epic movie", "New enemy", "Epic battle",
  "Tasty fly"]

def descriptions (part : String) : List String := [
  "Epic movie about spiderman, part " ++ part,
  "The city is in danger (again) and spiderman will save it (again)",
  "Cool movie about a cool superhero"]

/-- The number of a film as a reader sees it. -/
def partNumber (film : Int64) : Except Fault Int64 := sum film 1

/-- The detail of a film with a part number under a field name; no other field is derived. -/
def derive (seed film part : Int64) (field : String) : Except Fault (Option Value) :=
  match field with
  | "name" => do
      let title ← pick titles (hash seed film 1)
      return some (.string ("Spiderman " ++ Text.decimal part.toInt ++ ". " ++ title))
  | "description" => do
      let description ← pick (descriptions (Text.decimal part.toInt)) (hash seed film 2)
      return some (.string description)
  | "releaseYear" => do
      let year ← sum 1990 (Int64.ofNat (hash seed film 3 % 35))
      return some (.integer year)
  | _ => return none

end FieldQuery.Films
