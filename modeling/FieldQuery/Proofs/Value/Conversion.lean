import FieldQuery.Proofs.Interchange.RoundTrip
import FieldQuery.Proofs.Numeric.LargeIntegers
import FieldQuery.Proofs.Value.Induction
import FieldQuery.Value.Conversion

/-!
# Conversion between values and JSON values

A value comes back from its JSON value with null in place of the floating-point numbers that are
not finite. A JSON value comes back from its value with a floating-point number in place of each
integer beyond the signed words. Nothing else changes in either direction.
-/

set_option autoImplicit false

namespace FieldQuery

open Numeric

namespace Value

mutual

def finitePart : Value → Value
  | .null => .null
  | .boolean value => .boolean value
  | .integer value => .integer value
  | .float value => if value.isFinite then .float value else .null
  | .string value => .string value
  | .array items => .array (finiteItems items)
  | .object members => .object (finiteMembers members)

def finiteItems : List Value → List Value
  | [] => []
  | item :: rest => finitePart item :: finiteItems rest

def finiteMembers : List (String × Value) → List (String × Value)
  | [] => []
  | (name, value) :: rest => (name, finitePart value) :: finiteMembers rest

end

inductive AllFinite : Value → Prop where
  | null : AllFinite .null
  | boolean {value : Bool} : AllFinite (.boolean value)
  | integer {value : Int64} : AllFinite (.integer value)
  | float {value : Binary64} (finite : value.isFinite = true) : AllFinite (.float value)
  | string {value : String} : AllFinite (.string value)
  | array {items : List Value} (each : ∀ item ∈ items, AllFinite item) : AllFinite (.array items)
  | object {members : List (String × Value)} (each : ∀ member ∈ members, AllFinite member.2) :
      AllFinite (.object members)

theorem allFinite_float_iff {value : Binary64} :
    (Value.float value).AllFinite ↔ value.isFinite = true := by
  constructor
  · intro all
    cases all with
    | float finite => exact finite
  · exact .float

theorem allFinite_array_iff {items : List Value} :
    (Value.array items).AllFinite ↔ ∀ item ∈ items, item.AllFinite := by
  constructor
  · intro all
    cases all with
    | array each => exact each
  · exact .array

theorem allFinite_object_iff {members : List (String × Value)} :
    (Value.object members).AllFinite ↔ ∀ member ∈ members, member.2.AllFinite := by
  constructor
  · intro all
    cases all with
    | object each => exact each
  · exact .object

end Value

theorem Json.beyondInt64_of_fits {value : Int} (fits : InInt64 value ∨ InUInt64 value)
    (outside : ¬ InInt64 value) : BeyondInt64 value.toNat := by
  rw [beyondInt64_iff]
  omega

namespace Json

def Number.large? : Number → Option Nat
  | .integer value _ => if 9223372036854775807 < value then some value.toNat else none
  | .float _ _ => none

/-- A number in which an integer beyond the signed words is the nearest floating-point number. -/
def Number.narrowed : Number → Number
  | .integer value fits =>
      if within : InInt64 value then .integer value fits
      else .float (Binary64.ofQuotient value.toNat 1)
        (isFinite_ofQuotient (beyondInt64_of_fits fits within))
  | .float value finite => .float value finite

mutual

/-- A JSON value in which all integers beyond the signed words are floating-point numbers. -/
def narrowed : Json → Json
  | .null => .null
  | .boolean value => .boolean value
  | .number value => .number value.narrowed
  | .string value => .string value
  | .array items => .array (narrowedItems items)
  | .object members => .object (narrowedMembers members)

def narrowedItems : List Json → List Json
  | [] => []
  | item :: rest => narrowed item :: narrowedItems rest

def narrowedMembers : List (String × Json) → List (String × Json)
  | [] => []
  | (name, value) :: rest => (name, narrowed value) :: narrowedMembers rest

end

inductive AllWords : Json → Prop where
  | null : AllWords .null
  | boolean {value : Bool} : AllWords (.boolean value)
  | integer {value : Int} {fits : InInt64 value ∨ InUInt64 value} (word : InInt64 value) :
      AllWords (.number (.integer value fits))
  | float {value : Binary64} {finite : value.isFinite = true} :
      AllWords (.number (.float value finite))
  | string {value : String} : AllWords (.string value)
  | array {items : List Json} (each : ∀ item ∈ items, AllWords item) : AllWords (.array items)
  | object {members : List (String × Json)} (each : ∀ member ∈ members, AllWords member.2) :
      AllWords (.object members)

theorem allWords_integer_iff {value : Int} {fits : InInt64 value ∨ InUInt64 value} :
    (Json.number (.integer value fits)).AllWords ↔ InInt64 value := by
  constructor
  · intro all
    cases all with
    | integer word => exact word
  · exact .integer

theorem allWords_array_iff {items : List Json} :
    (Json.array items).AllWords ↔ ∀ item ∈ items, item.AllWords := by
  constructor
  · intro all
    cases all with
    | array each => exact each
  · exact .array

theorem allWords_object_iff {members : List (String × Json)} :
    (Json.object members).AllWords ↔ ∀ member ∈ members, member.2.AllWords := by
  constructor
  · intro all
    cases all with
    | object each => exact each
  · exact .object

end Json

/-! ## Lists and objects -/

theorem map_eq_self_iff {α : Type} {change : α → α} {list : List α} :
    list.map change = list ↔ ∀ element ∈ list, change element = element := by
  simpa using List.map_inj_left (l := list) (f := change) (g := id)

theorem map_members_eq_self_iff {α : Type} {change : α → α} {members : List (String × α)} :
    (members.map fun member => (member.1, change member.2)) = members ↔
      ∀ member ∈ members, change member.2 = member.2 := by
  rw [map_eq_self_iff]
  exact forall₂_congr fun member _ => by rw [Prod.ext_iff, and_iff_right rfl]

theorem map_members_congr {α β : Type} (left right : α → β) {members : List (String × α)}
    (same : ∀ member ∈ members, left member.2 = right member.2) :
    (members.map fun member => (member.1, left member.2)) =
      members.map fun member => (member.1, right member.2) :=
  List.map_congr_left fun member among => congrArg (Prod.mk member.1) (same member among)

/-- A recursion that changes one element after the other. -/
theorem eq_map_of_cons {α β : Type} {each : List α → List β} (change : α → β)
    (nil : each [] = [])
    (cons : ∀ element rest, each (element :: rest) = change element :: each rest)
    (list : List α) : each list = list.map change := by
  induction list with
  | nil => exact nil
  | cons element rest ih => rw [cons, ih, List.map_cons]

namespace Value

theorem toJson_array (items : List Value) :
    toJson (.array items) = .array (items.map toJson) :=
  congrArg Json.array (eq_map_of_cons toJson rfl (fun _ _ => rfl) items)

theorem toJson_object (members : List (String × Value)) :
    toJson (.object members) = .object (members.map fun member => (member.1, toJson member.2)) :=
  congrArg Json.object (eq_map_of_cons (fun member => (member.1, toJson member.2)) rfl
    (fun _ _ => rfl) members)

theorem ofJson_array (items : List Json) : ofJson (.array items) = .array (items.map ofJson) :=
  congrArg Value.array (eq_map_of_cons ofJson rfl (fun _ _ => rfl) items)

theorem ofJson_object (members : List (String × Json)) :
    ofJson (.object members) = .object (members.map fun member => (member.1, ofJson member.2)) :=
  congrArg Value.object (eq_map_of_cons (fun member => (member.1, ofJson member.2)) rfl
    (fun _ _ => rfl) members)

theorem finitePart_array (items : List Value) :
    finitePart (.array items) = .array (items.map finitePart) :=
  congrArg Value.array (eq_map_of_cons finitePart rfl (fun _ _ => rfl) items)

theorem finitePart_object (members : List (String × Value)) :
    finitePart (.object members) =
      .object (members.map fun member => (member.1, finitePart member.2)) :=
  congrArg Value.object (eq_map_of_cons (fun member => (member.1, finitePart member.2)) rfl
    (fun _ _ => rfl) members)

end Value

namespace Json

theorem narrowed_array (items : List Json) : narrowed (.array items) = .array (items.map narrowed) :=
  congrArg Json.array (eq_map_of_cons narrowed rfl (fun _ _ => rfl) items)

theorem narrowed_object (members : List (String × Json)) :
    narrowed (.object members) = .object (members.map fun member => (member.1, narrowed member.2)) :=
  congrArg Json.object (eq_map_of_cons (fun member => (member.1, narrowed member.2)) rfl
    (fun _ _ => rfl) members)

end Json

/-! ## From values to JSON values and back -/

namespace Value

theorem ofJson_toJson (value : Value) : ofJson value.toJson = value.finitePart := by
  induction value using Value.induction with
  | null | boolean | string => rfl
  | integer value =>
      have read := Interchange.int64?_ofInt64 value
      simp only [Json.Number.ofInt64] at read
      simp only [toJson, ofJson, ofNumber, Json.Number.ofInt64, read, finitePart]
  | float value =>
      simp only [toJson, finitePart]
      split
      · rfl
      · rfl
  | array items ih =>
      simp only [toJson_array, ofJson_array, finitePart_array, List.map_map]
      exact congrArg Value.array (List.map_congr_left ih)
  | object members ih =>
      simp only [toJson_object, ofJson_object, finitePart_object, List.map_map]
      exact congrArg Value.object
        (map_members_congr (fun value : Value => ofJson value.toJson) finitePart ih)

theorem finitePart_eq_self_iff {value : Value} : value.finitePart = value ↔ value.AllFinite := by
  induction value using Value.induction with
  | null => exact iff_of_true rfl .null
  | boolean => exact iff_of_true rfl .boolean
  | integer => exact iff_of_true rfl .integer
  | string => exact iff_of_true rfl .string
  | float value =>
      rw [allFinite_float_iff, finitePart]
      split
      · next finite => exact iff_of_true rfl finite
      · next infinite => exact iff_of_false (fun same => by cases same) infinite
  | array items ih =>
      simp only [finitePart_array, Value.array.injEq, map_eq_self_iff, allFinite_array_iff]
      exact forall₂_congr ih
  | object members ih =>
      simp only [finitePart_object, Value.object.injEq, map_members_eq_self_iff,
        allFinite_object_iff]
      exact forall₂_congr ih

theorem allFinite_finitePart (value : Value) : value.finitePart.AllFinite := by
  induction value using Value.induction with
  | null => exact .null
  | boolean => exact .boolean
  | integer => exact .integer
  | string => exact .string
  | float value =>
      simp only [finitePart]
      split
      · next finite => exact .float finite
      · exact .null
  | array items ih =>
      rw [finitePart_array]
      exact .array (List.forall_mem_map.mpr ih)
  | object members ih =>
      rw [finitePart_object]
      exact .object (List.forall_mem_map.mpr ih)

end Value

/-! ## From JSON values to values and back -/

namespace Value

theorem toJson_ofNumber (number : Json.Number) :
    toJson (ofNumber number) = .number number.narrowed := by
  cases number with
  | float value finite => simp [ofNumber, toJson, Json.Number.narrowed, finite]
  | integer value fits =>
      by_cases word : InInt64 value
      · have back : (Int64.ofInt value).toInt = value :=
          Int64.toInt_ofInt_of_le word.1 (by have := word.2; omega)
        simp only [ofNumber, Json.Number.int64?, if_pos word, toJson, Json.Number.ofInt64, back,
          Json.Number.narrowed, dif_pos word]
      · have finite := isFinite_ofQuotient (Json.beyondInt64_of_fits fits word)
        simp only [ofNumber, Json.Number.int64?, if_neg word, toJson, dif_pos finite,
          Json.Number.narrowed, dif_neg word]

theorem toJson_ofJson (json : Json) : (ofJson json).toJson = json.narrowed := by
  induction json using Json.induction with
  | null | boolean | string => rfl
  | number number => exact toJson_ofNumber number
  | array items ih =>
      simp only [ofJson_array, toJson_array, Json.narrowed_array, List.map_map]
      exact congrArg Json.array (List.map_congr_left ih)
  | object members ih =>
      simp only [ofJson_object, toJson_object, Json.narrowed_object, List.map_map]
      exact congrArg Json.object
        (map_members_congr (fun json : Json => (ofJson json).toJson) Json.narrowed ih)

end Value

namespace Json

theorem narrowed_eq_self_iff {json : Json} : json.narrowed = json ↔ json.AllWords := by
  induction json using Json.induction with
  | null => exact iff_of_true rfl .null
  | boolean => exact iff_of_true rfl .boolean
  | string => exact iff_of_true rfl .string
  | number number =>
      rw [narrowed]
      cases number with
      | float value finite => exact iff_of_true rfl .float
      | integer value fits =>
          rw [allWords_integer_iff, Number.narrowed]
          split
          · next word => exact iff_of_true rfl word
          · next outside => exact iff_of_false (fun same => by cases same) outside
  | array items ih =>
      simp only [narrowed_array, Json.array.injEq, map_eq_self_iff, allWords_array_iff]
      exact forall₂_congr ih
  | object members ih =>
      simp only [narrowed_object, Json.object.injEq, map_members_eq_self_iff,
        allWords_object_iff]
      exact forall₂_congr ih

/-- An integer beyond the signed words becomes the nearest of the floating-point numbers, which there
are the multiples of 2048. -/
theorem narrowed_number (number : Number) :
    match number.large? with
    | none => number.narrowed = number
    | some value => ∃ float finite, number.narrowed = .float float finite ∧
        float.isNegative = false ∧ float.quotient = (2048 * nearestInteger value 2048, 1) := by
  cases number with
  | float value finite => rfl
  | integer value fits =>
      rw [Number.large?, Number.narrowed]
      by_cases word : InInt64 value
      · rw [if_neg (by omega), dif_pos word]
      · have beyond := beyondInt64_of_fits fits word
        rw [if_pos (by omega), dif_neg word]
        exact ⟨_, isFinite_ofQuotient beyond, rfl, isNegative_ofQuotient beyond,
          quotient_ofQuotient beyond⟩

end Json

/-- A value comes back from its JSON value up to floating-point numbers that are not finite, and a
JSON value from its value up to integers beyond the signed words. -/
theorem Value.conversions_roundTrip :
    (∀ value : Value, ofJson value.toJson = value.finitePart ∧
      (ofJson value.toJson = value ↔ value.AllFinite) ∧
      ofJson (ofJson value.toJson).toJson = ofJson value.toJson) ∧
    (∀ json : Json, (ofJson json).toJson = json.narrowed ∧
      ((ofJson json).toJson = json ↔ json.AllWords)) ∧
    ∀ number : Json.Number,
      match number.large? with
      | none => number.narrowed = number
      | some value => ∃ float finite, number.narrowed = .float float finite ∧
          float.isNegative = false ∧ float.quotient = (2048 * nearestInteger value 2048, 1) := by
  refine ⟨fun value => ⟨ofJson_toJson value, ?_, ?_⟩, fun json => ⟨toJson_ofJson json, ?_⟩,
    Json.narrowed_number⟩
  · rw [ofJson_toJson, finitePart_eq_self_iff]
  · rw [ofJson_toJson, ofJson_toJson, finitePart_eq_self_iff]
    exact allFinite_finitePart value
  · rw [toJson_ofJson, Json.narrowed_eq_self_iff]

end FieldQuery
