import FieldQuery.Proofs.Execution.Entries
import FieldQuery.Proofs.Films.Fields

/-!
# Part numbers

Every film but that of the greatest number has a part number. Films that are counted or asked for by
their part have one, so an execution comes to a film without one only if it is the root, or stored
in the catalog.
-/

set_option autoImplicit false

namespace FieldQuery.Films

open Query DataGraph Execution

/-! ## Numbers before -/

theorem predecessor_minValue : predecessor Int64.minValue = Int64.minValue := if_pos rfl

theorem toInt_predecessor {number : Int64} (above : number ≠ Int64.minValue) :
    (predecessor number).toInt = number.toInt - 1 := by
  have notLeast : number.toInt ≠ Int64.minValue.toInt := fun same =>
    above (Int64.toInt_inj.mp same)
  have lower := number.le_toInt
  have upper := number.toInt_lt
  rw [Int64.toInt_minValue] at notLeast
  rw [predecessor, if_neg above, Int64.toInt_sub, Int64.toInt_one]
  apply Int.bmod_eq_of_le_mul_two <;> omega

theorem predecessor_neg_iff (number : Int64) : predecessor number < 0 ↔ number < 1 := by
  rw [Int64.lt_iff_toInt_lt, Int64.lt_iff_toInt_lt, Int64.toInt_zero, Int64.toInt_one]
  by_cases least : number = Int64.minValue
  · subst least
    rw [predecessor_minValue]
    decide
  · rw [toInt_predecessor least]
    omega

theorem predecessor_ne_maxValue (number : Int64) : predecessor number ≠ Int64.maxValue := by
  intro greatest
  have upper := number.toInt_lt
  by_cases least : number = Int64.minValue
  · rw [least, predecessor_minValue] at greatest
    exact absurd greatest (by decide)
  · have before := toInt_predecessor least
    rw [greatest, Int64.toInt_maxValue] at before
    omega

/-! ## Items whose films have part numbers -/

theorem below_of_mem_firstFilms {count : Int64} {film : Film} (member : film ∈ firstFilms count) :
    film.id ≠ Int64.maxValue := by
  obtain ⟨number, inRange, rfl⟩ := List.mem_map.mp member
  have fewer := List.mem_range.mp inRange
  have upper := count.toInt_lt
  intro greatest
  have same : (Int64.ofNat number).toInt = Int64.maxValue.toInt := congrArg Int64.toInt greatest
  rw [Int64.toInt_ofNat_of_lt (by omega), Int64.toInt_maxValue] at same
  omega

/-- Films are counted from zero, so no count reaches the greatest number. -/
theorem hasParts_ofCount (count : Int64) : HasParts (.catalog (.ofCount count)) :=
  fun _ member => below_of_mem_firstFilms member

/-- A catalog supplies the film before a part number, films that it counts, or those it stores. -/
theorem hasParts_of_supplied {catalog : Catalog} (parts : HasParts (.catalog catalog))
    {arguments : Arguments} {child : Item} (member : child ∈ catalog.supplied arguments) :
    HasParts child := by
  unfold Catalog.supplied resolveFilms at member
  split at member
  · rw [List.mem_singleton.mp member]
    exact predecessor_ne_maxValue _
  · split at member
    · obtain ⟨film, counted, rfl⟩ := List.mem_map.mp member
      exact below_of_mem_firstFilms counted
    · obtain ⟨film, stored, rfl⟩ := List.mem_map.mp member
      exact parts film stored

/-- Below items with part numbers there are no others. -/
theorem closed_hasParts : Closed graph HasParts := by
  intro item parts name stored resolver declared arguments store child member
  cases declares_of_field? declared with
  | films => exact hasParts_of_supplied parts member
  | @comments film =>
      obtain ⟨comments, given⟩ := exists_comments_of_given film store
      have among : child ∈ comments.map Item.comment := by
        rw [← given]
        exact member
      obtain ⟨comment, _, rfl⟩ := List.mem_map.mp among
      trivial

end FieldQuery.Films
