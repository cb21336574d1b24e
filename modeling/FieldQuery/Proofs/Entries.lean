import FieldQuery.Dict.Basic

/-!
# Entries and keys

Which keys stand in a list of entries, how a dictionary grows when each key is inserted above all
others, and what two dictionaries hold together.
-/

set_option autoImplicit false

namespace FieldQuery

variable {α : Type}

theorem Entries.isSome_lookup_iff {entries : List (String × α)} {key : String} :
    (entries.lookup key).isSome ↔ key ∈ entries.map Prod.fst := by
  rw [List.lookup_isSome_iff, List.mem_map]
  apply exists_congr
  intro entry
  rw [beq_iff_eq, eq_comm]

theorem Entries.put_of_above {key : String} {value : α} {entries : List (String × α)}
    (above : ∀ entry ∈ entries, entry.1 < key) :
    put key value entries = entries ++ [(key, value)] := by
  induction entries with
  | nil => rfl
  | cons head rest ih =>
      obtain ⟨first, held⟩ := head
      have less : first < key := above (first, held) List.mem_cons_self
      have notBelow : ¬ key < first := fun below =>
        String.lt_irrefl key (String.lt_trans below less)
      have different : key ≠ first := fun same => String.lt_irrefl first (same ▸ less)
      rw [put, if_neg notBelow, if_neg different,
        ih fun entry member => above entry (List.mem_cons_of_mem _ member)]
      rfl

/-- In a list in order, a pair stands above all pairs before it. -/
theorem Entries.Ascending.above {before after : List (String × α)} {pair : String × α}
    (ascending : Ascending (before ++ pair :: after)) : ∀ entry ∈ before, entry.1 < pair.1 :=
  fun entry member =>
    (List.pairwise_append.mp ascending).2.2 entry member pair List.mem_cons_self

private theorem Entries.foldl_put_of_ascending {before pairs : List (String × α)}
    (ascending : Ascending (before ++ pairs)) :
    pairs.foldl (fun entries (key, value) => put key value entries) before = before ++ pairs := by
  induction pairs generalizing before with
  | nil => simp
  | cons pair pairs ih =>
      obtain ⟨key, value⟩ := pair
      have above : ∀ entry ∈ before, entry.1 < key := ascending.above
      have extended : Ascending (before ++ [(key, value)] ++ pairs) := by simpa using ascending
      simp only [List.foldl_cons, put_of_above above]
      rw [ih extended, ← List.append_cons]

/-- Entries in order are collected as they stand. -/
theorem Entries.Ascending.collect_eq {pairs : List (String × α)} (ascending : Ascending pairs) :
    collect pairs = pairs := foldl_put_of_ascending ascending

theorem Entries.mem_of_mem_collect {pairs : List (String × α)} {entry : String × α}
    (member : entry ∈ collect pairs) : entry ∈ pairs := by
  have kept (entries : List (String × α))
      (found : entry ∈ pairs.foldl (fun entries (key, value) => put key value entries) entries) :
      entry ∈ entries ∨ entry ∈ pairs := by
    clear member
    induction pairs generalizing entries with
    | nil => exact .inl found
    | cons pair pairs ih =>
        rcases ih _ found with old | later
        · rcases mem_put old with new | old
          · exact .inr (new ▸ List.mem_cons_self)
          · exact .inl old
        · exact .inr (List.mem_cons_of_mem _ later)
  exact (kept [] member).resolve_left nofun

namespace Dict

theorem ofList_entries (dict : Dict α) : ofList dict.entries = dict := by
  obtain ⟨entries, ascending⟩ := dict
  simp only [ofList, ascending.collect_eq]

theorem isSome_get?_iff {dict : Dict α} {key : String} :
    (dict.get? key).isSome ↔ key ∈ dict.keys := Entries.isSome_lookup_iff

theorem contains_eq_false_iff {dict : Dict α} {key : String} :
    dict.contains key = false ↔ dict.get? key = none := by
  rw [contains, Option.isSome_eq_false_iff, Option.isNone_iff_eq_none]

theorem get?_insert_eq_none_iff {dict : Dict α} {key other : String} {value : α} :
    (dict.insert key value).get? other = none ↔ other ≠ key ∧ dict.get? other = none := by
  rw [get?_insert]
  split
  · next same => simp [same]
  · next different => simp [different]

theorem get?_insert_eq_some_iff {dict : Dict α} {key other : String} {value held : α}
    (fresh : dict.get? key = none) :
    (dict.insert key value).get? other = some held ↔
      dict.get? other = some held ∨ (other = key ∧ held = value) := by
  rw [get?_insert]
  split
  · next same =>
      subst same
      simp [fresh, eq_comm]
  · next different => simp [different]

theorem contains_eq_false_of_above {dict : Dict α} {key : String}
    (above : ∀ entry ∈ dict.entries, entry.1 < key) : dict.contains key = false := by
  have absent : dict.entries.lookup key = none := by
    rw [List.lookup_eq_none_iff]
    intro entry member
    rw [bne_iff_ne]
    intro same
    exact String.lt_irrefl key (same ▸ above entry member)
  rw [contains, get?, absent]
  rfl

theorem entries_insert_of_above {dict : Dict α} {key : String} (value : α)
    (above : ∀ entry ∈ dict.entries, entry.1 < key) :
    (dict.insert key value).entries = dict.entries ++ [(key, value)] :=
  Entries.put_of_above above

theorem eq_of_entries_eq {left right : Dict α} (same : left.entries = right.entries) :
    left = right := by
  obtain ⟨leftEntries, leftAscending⟩ := left
  obtain ⟨rightEntries, rightAscending⟩ := right
  cases same
  rfl

/-- What two dictionaries hold together. Under a key of both, the first one counts. -/
def union (left right : Dict α) : Dict α :=
  left.entries.foldr (fun (key, value) dict => dict.insert key value) right

theorem get?_union (left right : Dict α) (key : String) :
    (left.union right).get? key = (left.get? key).or (right.get? key) := by
  obtain ⟨entries, ascending⟩ := left
  simp only [union, get?]
  clear ascending
  induction entries with
  | nil => rfl
  | cons entry rest ih =>
      obtain ⟨own, value⟩ := entry
      rw [List.foldr_cons, ← get?, get?_insert, get?, ih, Entries.lookup_cons_pair]
      split <;> rfl

@[simp] theorem empty_union (dict : Dict α) : (empty : Dict α).union dict = dict := rfl

theorem union_assoc (first second third : Dict α) :
    (first.union second).union third = first.union (second.union third) := by
  apply ext_get?
  intro key
  rw [get?_union, get?_union, get?_union, get?_union, Option.or_assoc]

theorem union_union_self (left right : Dict α) : left.union (left.union right) = left.union right := by
  apply ext_get?
  intro key
  rw [get?_union, get?_union, ← Option.or_assoc, Option.or_self]

theorem insert_union (left right : Dict α) (key : String) (value : α) :
    (left.insert key value).union right = (left.union right).insert key value := by
  apply ext_get?
  intro other
  rw [get?_union, get?_insert, get?_insert, get?_union]
  split <;> rfl

theorem mem_keys_insert {dict : Dict α} {key other : String} {value : α}
    (member : other ∈ (dict.insert key value).keys) : other = key ∨ other ∈ dict.keys := by
  obtain ⟨entry, found, rfl⟩ := List.mem_map.mp member
  rcases Entries.mem_put found with new | old
  · exact .inl (congrArg Prod.fst new)
  · exact .inr (List.mem_map_of_mem old)

end Dict

end FieldQuery
