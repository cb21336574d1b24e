import FieldQuery.Execution.Basic

/-!
# Repeated names

Of the selections of one name in a set only the first counts. The selections that count are written
down here as a list. Their names are the names that a hook is told, in the same order.
-/

set_option autoImplicit false

namespace FieldQuery.Execution

open Query

def firstsBeyond (seen : List String) : List Selection → List Selection
  | [] => []
  | selection :: rest =>
      if seen.contains selection.name then firstsBeyond seen rest
      else selection :: firstsBeyond (selection.name :: seen) rest

/-- The selections of a set that count. -/
def firsts (selections : List Selection) : List Selection := firstsBeyond [] selections

theorem firstsBeyond_of_seen {seen : List String} {selection : Selection}
    (known : selection.name ∈ seen) (rest : List Selection) :
    firstsBeyond seen (selection :: rest) = firstsBeyond seen rest := by
  rw [firstsBeyond, if_pos (List.contains_iff_mem.mpr known)]

theorem firstsBeyond_of_new {seen : List String} {selection : Selection}
    (new : selection.name ∉ seen) (rest : List Selection) :
    firstsBeyond seen (selection :: rest) =
      selection :: firstsBeyond (selection.name :: seen) rest := by
  rw [firstsBeyond, if_neg]
  intro contained
  exact new (List.contains_iff_mem.mp contained)

theorem mem_firstsBeyond_iff {seen : List String} {selections : List Selection}
    {selection : Selection} :
    selection ∈ firstsBeyond seen selections ↔
      selection.name ∉ seen ∧
        selections.find? (fun other => other.name == selection.name) = some selection := by
  induction selections generalizing seen with
  | nil => simp [firstsBeyond]
  | cons head rest ih =>
      by_cases known : head.name ∈ seen
      · rw [firstsBeyond_of_seen known, ih]
        apply and_congr_right
        intro new
        have different : head.name ≠ selection.name := by
          intro same
          exact new (same ▸ known)
        rw [List.find?_cons_of_neg (by simpa using different)]
      · rw [firstsBeyond_of_new known, List.mem_cons, ih]
        by_cases same : head.name = selection.name
        · rw [List.find?_cons_of_pos (by simp [same])]
          constructor
          · rintro (rfl | ⟨later, _⟩)
            · exact ⟨known, rfl⟩
            · exact absurd (same ▸ List.mem_cons_self) later
          · rintro ⟨_, found⟩
            exact .inl (Option.some.inj found).symm
        · rw [List.find?_cons_of_neg (by simpa using same)]
          constructor
          · rintro (rfl | ⟨later, found⟩)
            · exact absurd rfl same
            · exact ⟨fun member => later (List.mem_cons_of_mem _ member), found⟩
          · rintro ⟨new, found⟩
            refine .inr ⟨?_, found⟩
            intro member
            rcases List.mem_cons.mp member with here | earlier
            · exact same here.symm
            · exact new earlier

/-- A selection counts exactly when it is the first of its name. -/
theorem mem_firsts_iff {selections : List Selection} {selection : Selection} :
    selection ∈ firsts selections ↔
      selections.find? (fun other => other.name == selection.name) = some selection := by
  rw [firsts, mem_firstsBeyond_iff]
  simp

theorem map_name_firstsBeyond (seen : List String) (selections : List Selection) :
    (firstsBeyond seen selections).map Selection.name =
      ((selections.map Selection.name).filter (· ∉ seen)).eraseDups := by
  induction selections generalizing seen with
  | nil => rfl
  | cons head rest ih =>
      by_cases known : head.name ∈ seen
      · rw [firstsBeyond_of_seen known, ih, List.map_cons,
          List.filter_cons_of_neg (by simpa using known)]
      · -- What follows the head is filtered twice on one side, by the seen names and by its own.
        rw [firstsBeyond_of_new known, List.map_cons, ih, List.map_cons,
          List.filter_cons_of_pos (by simpa using known), List.eraseDups_cons, List.filter_filter]
        congr 2
        apply List.filter_congr
        intro name _
        by_cases same : name = head.name <;> simp [same]

/-- The names that count are those that a hook is told, in the same order. -/
theorem map_name_firsts (selections : List Selection) :
    (firsts selections).map Selection.name = requested selections := by
  rw [firsts, map_name_firstsBeyond, requested]
  congr 1
  exact List.filter_eq_self.mpr (by simp)

end FieldQuery.Execution
