import FieldQuery.Proofs.Films.PartNumbers

/-!
# Requests for a part

A catalog that is asked for one part supplies the film of the number before. Down to the least
number, the part that a refusal names is the one asked for; there the number before is the number
itself, and the refusal names the part after it.
-/

set_option autoImplicit false

namespace FieldQuery.Films

open Query DataGraph Execution

variable {limit : DepthLimit} {path : Path} {depth : Nat}

theorem evalSelection_films (catalog : Catalog) (arguments : Arguments) (nested : List Selection) :
    evalSelection graph limit path depth (.catalog catalog) (.branch "films" arguments nested) = do
      let items ← (catalog.supplied arguments).mapM
        (evalLevel graph limit (path ++ ["films"]) (depth + 1) nested)
      return .array items := by
  rw [evalSelection_branch, field?_catalog, if_pos rfl]
  rfl

theorem supplied_of_part {arguments : Arguments} {number : Int64}
    (asked : arguments.get? "p" = some (.integer number)) (catalog : Catalog) :
    catalog.supplied arguments = [.film (.ofId (predecessor number))] := by
  rw [Catalog.supplied, resolveFilms, asked]
  rfl

/-- A query for one part is a query on its film. -/
theorem execute_part {arguments : Arguments} {number : Int64}
    (asked : arguments.get? "p" = some (.integer number)) (nested : List Selection)
    (catalog : Catalog) :
    execute graph .unlimited [.branch "films" arguments nested] (.catalog catalog) = do
      let film ←
        evalLevel graph .unlimited ["films"] 2 nested (.film (.ofId (predecessor number)))
      return .object [("films", .array [film])] := by
  have new : (Selection.branch "films" arguments nested).name ∉ ([] : List String) := nofun
  rw [execute, evalLevel, evalSelections_of_new new, evalSelections_nil, evalSelection_films,
    supplied_of_part asked]
  simp only [List.mapM_cons, List.mapM_nil, bind_assoc, pure_bind]
  rfl

/-- A query for one part asks nothing else of the catalog. A part below one is refused, whatever is
asked of it, and the refusal names it, but in place of the least number the one after it. Any other
part is the film of the number before, alone in the result. -/
theorem execute_partRequest (number : Int64) {arguments : Arguments}
    (asked : arguments.get? "p" = some (.integer number)) (nested : List Selection)
    (catalog : Catalog) :
    let request := execute graph .unlimited [.branch "films" arguments nested] (.catalog catalog)
    (number < 1 →
      request = throw (.batchResolve
        ("film part " ++
          Text.decimal (if number = Int64.minValue then number.toInt + 1 else number.toInt) ++
          " does not exist"))) ∧
      (1 ≤ number →
        (number - 1).toInt = number.toInt - 1 ∧
          request = do
            let film ← evalLevel graph .unlimited ["films"] 2 nested (.film (.ofId (number - 1)))
            return .object [("films", .array [film])]) := by
  intro request
  have single : request = _ := execute_part asked nested catalog
  rw [single]
  constructor
  · intro missing
    have negative : (Film.ofId (predecessor number)).id < 0 :=
      (predecessor_neg_iff number).mpr missing
    have named : (predecessor number).toInt + 1 =
        if number = Int64.minValue then number.toInt + 1 else number.toInt := by
      split
      · next least => rw [least, predecessor_minValue]
      · next above =>
          rw [toInt_predecessor above]
          omega
    have shallow : ¬ DepthLimit.unlimited.exceededBy 2 := by decide
    rw [evalLevel_film_of_negative shallow negative, Film.ofId, named]
    rfl
  · intro present
    have above : number ≠ Int64.minValue := by
      rintro rfl
      revert present
      decide
    have before : predecessor number = number - 1 := if_neg above
    refine ⟨?_, ?_⟩
    · rw [← before, toInt_predecessor above]
    · rw [before]

def partAndCount (part : Int64) : Arguments :=
  (Dict.empty.insert "p" (.integer part)).insert "count" (.integer 5)

theorem execute_partAndCount :
    (execute graph .unlimited [.branch "films" (partAndCount 0) [.leaf "budget"]]
        (.catalog (.ofCount 3))).outcome (.ok .empty) =
      (.error (.batchResolve "film part 0 does not exist"), .ok .empty) ∧
    (execute graph .unlimited [.branch "films" (partAndCount 7) [.leaf "id"]]
        (.catalog (.ofCount 3))).outcome (.ok .empty) =
      (.ok (.object [("films", .array [.object [("id", .integer 6)]])]), .ok .empty) := by
  have asked (part : Int64) : (partAndCount part).get? "p" = some (.integer part) := rfl
  have missing := (execute_partRequest 0 (asked 0) [.leaf "budget"] (.ofCount 3)).1 (by decide)
  have present := ((execute_partRequest 7 (asked 7) [.leaf "id"] (.ofCount 3)).2 (by decide)).2
  rw [missing, present]
  exact ⟨rfl, rfl⟩

/-- The refusal of the least number names the part after it. -/
theorem leastPart_misnamed :
    ∃ text, (execute graph .unlimited [.branch "films" (partAndCount Int64.minValue) []]
        (.catalog (.ofCount 3))).outcome (.ok .empty) = (.error (.batchResolve text), .ok .empty) ∧
      text ≠ "film part " ++ Text.decimal Int64.minValue.toInt ++ " does not exist" := by
  refine ⟨"film part -9223372036854775807 does not exist", rfl, ?_⟩
  decide

end FieldQuery.Films
