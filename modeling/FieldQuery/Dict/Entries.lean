/-!
# Entries in ascending order of their keys

Lists of pairs whose keys ascend strictly, in the order of code points, which is also the order
of the UTF-8 bytes. Such a list is determined by what it holds under each key, so it is the
canonical form of a finite map from strings.
-/

set_option autoImplicit false

namespace FieldQuery.Entries

variable {α : Type}

/-- The keys ascend strictly, so no key occurs twice. -/
def Ascending (entries : List (String × α)) : Prop :=
  entries.Pairwise fun earlier later => earlier.1 < later.1

/-- Puts a value under a key at its place, over the value that stood there. -/
def put (key : String) (value : α) : List (String × α) → List (String × α)
  | [] => [(key, value)]
  | (first, held) :: rest =>
      if key < first then (key, value) :: (first, held) :: rest
      else if key = first then (key, value) :: rest
      else (first, held) :: put key value rest

def remove (key : String) (entries : List (String × α)) : List (String × α) :=
  entries.filter fun entry => entry.1 != key

/-- The entries that a sequence of pairs leaves when a later pair replaces an earlier one. -/
def collect (pairs : List (String × α)) : List (String × α) :=
  pairs.foldl (fun entries (key, value) => put key value entries) []

theorem eq_of_not_lt {left right : String} (notLess : ¬ left < right)
    (notGreater : ¬ right < left) : left = right :=
  String.le_antisymm notGreater notLess

theorem mem_put {key : String} {value : α} {entries : List (String × α)} {entry : String × α}
    (member : entry ∈ put key value entries) : entry = (key, value) ∨ entry ∈ entries := by
  induction entries with
  | nil => simpa [put] using member
  | cons head rest ih =>
      obtain ⟨first, held⟩ := head
      simp only [put] at member
      split at member
      · simpa using member
      · split at member
        · rcases List.mem_cons.1 member with here | there
          · exact .inl here
          · exact .inr (List.mem_cons_of_mem _ there)
        · rcases List.mem_cons.1 member with here | there
          · exact .inr (here ▸ List.mem_cons_self)
          · rcases ih there with new | old
            · exact .inl new
            · exact .inr (List.mem_cons_of_mem _ old)

/-- Putting keeps the order. -/
theorem Ascending.put {entries : List (String × α)} (ascending : Ascending entries)
    (key : String) (value : α) : Ascending (put key value entries) := by
  induction entries with
  | nil => simp [Entries.put, Ascending]
  | cons head rest ih =>
      obtain ⟨first, held⟩ := head
      obtain ⟨below, tail⟩ := List.pairwise_cons.1 ascending
      simp only [Entries.put]
      split
      case isTrue less =>
        refine List.pairwise_cons.2 ⟨fun entry member => ?_, ascending⟩
        rcases List.mem_cons.1 member with here | there
        · exact here ▸ less
        · exact String.lt_trans less (below entry there)
      case isFalse notLess =>
        split
        case isTrue same =>
          exact List.pairwise_cons.2 ⟨fun entry member => same ▸ below entry member, tail⟩
        case isFalse different =>
          refine List.pairwise_cons.2 ⟨fun entry member => ?_, ih tail⟩
          rcases mem_put member with new | old
          · subst new
            exact Classical.byContradiction fun notAbove =>
              different (eq_of_not_lt notLess notAbove)
          · exact below entry old

/-- Removing keeps the order. -/
theorem Ascending.remove {entries : List (String × α)} (ascending : Ascending entries)
    (key : String) : Ascending (remove key entries) :=
  List.Pairwise.filter _ ascending

private theorem ascending_foldl_put (pairs : List (String × α)) {entries : List (String × α)}
    (ascending : Ascending entries) :
    Ascending
      (pairs.foldl (fun entries (key, value) => Entries.put key value entries) entries) := by
  induction pairs generalizing entries with
  | nil => exact ascending
  | cons pair rest ih => exact ih (ascending.put pair.1 pair.2)

/-- Collected entries are in order. -/
theorem ascending_collect (pairs : List (String × α)) : Ascending (collect pairs) :=
  ascending_foldl_put pairs List.Pairwise.nil

/-- The first entry answers for its key and for no other. -/
theorem lookup_cons_pair (key first : String) (held : α) (rest : List (String × α)) :
    ((first, held) :: rest).lookup key = if key = first then some held else rest.lookup key := by
  by_cases here : key = first
  · simp [here]
  · simp [List.lookup_cons, beq_eq_false_iff_ne.2 here, here]

/-- A key below all keys is not among the entries. -/
theorem lookup_eq_none_of_below {key : String} {entries : List (String × α)}
    (below : ∀ entry ∈ entries, key < entry.1) : entries.lookup key = none := by
  induction entries with
  | nil => rfl
  | cons head rest ih =>
      have less := below head List.mem_cons_self
      have different : (key == head.1) = false :=
        beq_eq_false_iff_ne.2 fun same => String.lt_irrefl head.1 (same ▸ less)
      rw [List.lookup_cons, different]
      exact ih fun entry member => below entry (List.mem_cons_of_mem _ member)

/-- What stands under a key after a value was put. -/
theorem lookup_put {entries : List (String × α)} (ascending : Ascending entries)
    (key other : String) (value : α) :
    (Entries.put key value entries).lookup other
      = if other = key then some value else entries.lookup other := by
  induction entries with
  | nil => simp [Entries.put, lookup_cons_pair]
  | cons head rest ih =>
      obtain ⟨first, held⟩ := head
      obtain ⟨below, tail⟩ := List.pairwise_cons.1 ascending
      simp only [Entries.put]
      split
      case isTrue less => simp [lookup_cons_pair]
      case isFalse notLess =>
        split
        case isTrue same =>
          subst same
          simp only [lookup_cons_pair]
          split <;> rfl
        case isFalse different =>
          simp only [lookup_cons_pair, ih tail]
          by_cases here : other = first
          · simp [here, Ne.symm different]
          · simp [here]

/-- What stands under a key after a key was removed. -/
theorem lookup_remove (entries : List (String × α)) (key other : String) :
    (remove key entries).lookup other = if other = key then none else entries.lookup other := by
  induction entries with
  | nil => simp [remove]
  | cons head rest ih =>
      obtain ⟨first, held⟩ := head
      by_cases gone : first = key
      · have dropped : remove key ((first, held) :: rest) = remove key rest := by
          simp [remove, gone]
        rw [dropped, ih, lookup_cons_pair, gone]
        split <;> rfl
      · have kept : remove key ((first, held) :: rest) = (first, held) :: remove key rest := by
          simp [remove, gone]
        rw [kept, lookup_cons_pair, lookup_cons_pair, ih]
        by_cases here : other = first
        · simp [here, gone]
        · simp [here]

/-- Two lists of entries in order that hold the same under every key are equal. -/
theorem Ascending.ext {left right : List (String × α)} (leftAscending : Ascending left)
    (rightAscending : Ascending right) (same : ∀ key, left.lookup key = right.lookup key) :
    left = right := by
  induction left generalizing right with
  | nil =>
      cases right with
      | nil => rfl
      | cons head rest =>
          have absent := same head.1
          rw [lookup_cons_pair, if_pos rfl] at absent
          exact nomatch absent
  | cons leftHead leftRest ih =>
      cases right with
      | nil =>
          have absent := same leftHead.1
          rw [lookup_cons_pair, if_pos rfl] at absent
          exact nomatch absent
      | cons rightHead rightRest =>
          obtain ⟨leftKey, leftValue⟩ := leftHead
          obtain ⟨rightKey, rightValue⟩ := rightHead
          obtain ⟨leftBelow, leftTail⟩ := List.pairwise_cons.1 leftAscending
          obtain ⟨rightBelow, rightTail⟩ := List.pairwise_cons.1 rightAscending
          have keys : leftKey = rightKey := by
            apply eq_of_not_lt
            · intro less
              have absent : ((rightKey, rightValue) :: rightRest).lookup leftKey = none :=
                lookup_eq_none_of_below fun entry member => by
                  rcases List.mem_cons.1 member with here | there
                  · exact here ▸ less
                  · exact String.lt_trans less (rightBelow entry there)
              rw [← same leftKey] at absent
              rw [lookup_cons_pair, if_pos rfl] at absent
              exact nomatch absent
            · intro less
              have absent : ((leftKey, leftValue) :: leftRest).lookup rightKey = none :=
                lookup_eq_none_of_below fun entry member => by
                  rcases List.mem_cons.1 member with here | there
                  · exact here ▸ less
                  · exact String.lt_trans less (leftBelow entry there)
              rw [same rightKey] at absent
              rw [lookup_cons_pair, if_pos rfl] at absent
              exact nomatch absent
          subst keys
          have values : leftValue = rightValue := by
            have equal := same leftKey
            simpa [lookup_cons_pair] using equal
          subst values
          congr 1
          apply ih leftTail rightTail
          intro key
          by_cases here : key = leftKey
          · subst here
            rw [lookup_eq_none_of_below leftBelow, lookup_eq_none_of_below rightBelow]
          · have equal := same key
            simpa [lookup_cons_pair, here] using equal

end FieldQuery.Entries
