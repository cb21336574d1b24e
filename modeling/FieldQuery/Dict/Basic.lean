import FieldQuery.Dict.Entries

/-!
# Dictionaries

Finite maps from strings, kept as entries in ascending order. Two dictionaries are equal exactly
when they hold the same under every key (`Dict.ext_get?`), whatever the order of insertion was.
-/

set_option autoImplicit false

namespace FieldQuery

/-- A finite map from strings to `α`. -/
structure Dict (α : Type) where
  /-- The entries in ascending order of their keys. -/
  entries : List (String × α)
  ascending : Entries.Ascending entries
  deriving DecidableEq

namespace Dict

variable {α β : Type}

def empty : Dict α := ⟨[], List.Pairwise.nil⟩

instance : Inhabited (Dict α) := ⟨empty⟩

def get? (dict : Dict α) (key : String) : Option α := dict.entries.lookup key

def contains (dict : Dict α) (key : String) : Bool := (dict.get? key).isSome

def insert (dict : Dict α) (key : String) (value : α) : Dict α :=
  ⟨Entries.put key value dict.entries, dict.ascending.put key value⟩

def erase (dict : Dict α) (key : String) : Dict α :=
  ⟨Entries.remove key dict.entries, dict.ascending.remove key⟩

def size (dict : Dict α) : Nat := dict.entries.length

def isEmpty (dict : Dict α) : Bool := dict.entries.isEmpty

def keys (dict : Dict α) : List String := dict.entries.map Prod.fst

/-- The dictionary of a list of pairs, in which a later pair replaces an earlier one. -/
def ofList (pairs : List (String × α)) : Dict α :=
  ⟨Entries.collect pairs, Entries.ascending_collect pairs⟩

@[simp] theorem get?_empty (key : String) : (empty : Dict α).get? key = none := rfl

theorem get?_insert (dict : Dict α) (key other : String) (value : α) :
    (dict.insert key value).get? other = if other = key then some value else dict.get? other :=
  Entries.lookup_put dict.ascending key other value

theorem get?_erase (dict : Dict α) (key other : String) :
    (dict.erase key).get? other = if other = key then none else dict.get? other :=
  Entries.lookup_remove dict.entries key other

/-- Dictionaries that hold the same under every key are equal. -/
theorem ext_get? {left right : Dict α} (same : ∀ key, left.get? key = right.get? key) :
    left = right := by
  obtain ⟨leftEntries, leftAscending⟩ := left
  obtain ⟨rightEntries, rightAscending⟩ := right
  obtain rfl : leftEntries = rightEntries := leftAscending.ext rightAscending same
  rfl

end Dict

end FieldQuery
