import FieldQuery.Proofs.Execution.DepthFilter

/-!
# Queries without repeated names

A query is normalized by dropping, at every level, each selection whose name occurred before it at
that level, of whatever kind the two are. What remains repeats no name, and an execution cannot
tell it from the query: it calls the same hooks and resolvers and ends in the same way.
-/

set_option autoImplicit false

namespace FieldQuery.Query

mutual

def Selection.normalize : Selection → Selection
  | .leaf name => .leaf name
  | .branch name arguments selections => .branch name arguments (normalizeBeyond [] selections)

def normalizeBeyond (seen : List String) : List Selection → List Selection
  | [] => []
  | selection :: rest =>
      if selection.name ∈ seen then normalizeBeyond seen rest
      else selection.normalize :: normalizeBeyond (selection.name :: seen) rest

end

/-- A query without the selections whose names occurred before at their level. -/
def normalized (selections : List Selection) : List Selection := normalizeBeyond [] selections

mutual

inductive Selection.Unrepeated : Selection → Prop where
  | leaf {name} : Selection.Unrepeated (.leaf name)
  | branch {name arguments selections} :
      AllUnrepeated selections → Selection.Unrepeated (.branch name arguments selections)

/-- No name occurs twice at a level or at one below it. -/
inductive AllUnrepeated : List Selection → Prop where
  | nil : AllUnrepeated []
  | cons {selection rest} :
      (∀ other ∈ rest, other.name ≠ selection.name) → Selection.Unrepeated selection →
      AllUnrepeated rest → AllUnrepeated (selection :: rest)

end

@[simp] theorem Selection.name_normalize (selection : Selection) :
    selection.normalize.name = selection.name := by
  cases selection <;> simp only [normalize, name]

theorem normalizeBeyond_of_seen {seen : List String} {selection : Selection}
    (known : selection.name ∈ seen) (rest : List Selection) :
    normalizeBeyond seen (selection :: rest) = normalizeBeyond seen rest := by
  rw [normalizeBeyond, if_pos known]

theorem normalizeBeyond_of_new {seen : List String} {selection : Selection}
    (new : selection.name ∉ seen) (rest : List Selection) :
    normalizeBeyond seen (selection :: rest) =
      selection.normalize :: normalizeBeyond (selection.name :: seen) rest := by
  rw [normalizeBeyond, if_neg new]

theorem name_notMem_of_mem_normalizeBeyond {seen : List String} {selections : List Selection}
    {selection : Selection} (member : selection ∈ normalizeBeyond seen selections) :
    selection.name ∉ seen := by
  induction selections generalizing seen with
  | nil => simp [normalizeBeyond] at member
  | cons head rest ih =>
      by_cases known : head.name ∈ seen
      · rw [normalizeBeyond_of_seen known] at member
        exact ih member
      · rw [normalizeBeyond_of_new known] at member
        rcases List.mem_cons.mp member with rfl | later
        · simpa using known
        · intro early
          exact ih later (List.mem_cons_of_mem _ early)

mutual

theorem Selection.unrepeated_normalize (selection : Selection) :
    selection.normalize.Unrepeated := by
  match selection with
  | .leaf name =>
      rw [Selection.normalize]
      exact .leaf
  | .branch name arguments selections =>
      rw [Selection.normalize]
      exact .branch (allUnrepeated_normalizeBeyond [] selections)

theorem allUnrepeated_normalizeBeyond (seen : List String) (selections : List Selection) :
    AllUnrepeated (normalizeBeyond seen selections) := by
  match selections with
  | [] =>
      rw [normalizeBeyond]
      exact .nil
  | selection :: rest =>
      by_cases known : selection.name ∈ seen
      · rw [normalizeBeyond_of_seen known]
        exact allUnrepeated_normalizeBeyond seen rest
      · rw [normalizeBeyond_of_new known]
        refine .cons ?_ selection.unrepeated_normalize
          (allUnrepeated_normalizeBeyond (selection.name :: seen) rest)
        intro other member same
        rw [Selection.name_normalize] at same
        exact name_notMem_of_mem_normalizeBeyond member (same ▸ List.mem_cons_self)

end

mutual

theorem Selection.Unrepeated.normalize_eq {selection : Selection}
    (unrepeated : selection.Unrepeated) : selection.normalize = selection := by
  cases unrepeated with
  | leaf => rw [Selection.normalize]
  | branch unrepeated => rw [Selection.normalize, unrepeated.normalizeBeyond_eq [] (by simp)]

theorem AllUnrepeated.normalizeBeyond_eq {selections : List Selection}
    (unrepeated : AllUnrepeated selections) (seen : List String)
    (new : ∀ selection ∈ selections, selection.name ∉ seen) :
    normalizeBeyond seen selections = selections := by
  cases unrepeated with
  | nil => rw [normalizeBeyond]
  | @cons selection rest others first later =>
      rw [normalizeBeyond_of_new (new selection List.mem_cons_self), first.normalize_eq,
        later.normalizeBeyond_eq]
      intro other member
      simp only [List.mem_cons, not_or]
      exact ⟨others other member, new other (List.mem_cons_of_mem _ member)⟩

end

theorem allUnrepeated_normalized (selections : List Selection) :
    AllUnrepeated (normalized selections) := allUnrepeated_normalizeBeyond [] selections

theorem AllUnrepeated.normalized_eq {selections : List Selection}
    (unrepeated : AllUnrepeated selections) : normalized selections = selections :=
  unrepeated.normalizeBeyond_eq [] (by simp)

end FieldQuery.Query

namespace FieldQuery.Execution

open Query DataGraph

theorem map_name_normalized (selections : List Selection) :
    (normalized selections).map Selection.name = requested selections := by
  rw [← map_name_firsts, normalized, firsts]
  generalize ([] : List String) = seen
  induction selections generalizing seen with
  | nil => rw [normalizeBeyond, firstsBeyond]
  | cons selection rest ih =>
      by_cases known : selection.name ∈ seen
      · rw [normalizeBeyond_of_seen known, firstsBeyond_of_seen known, ih]
      · rw [normalizeBeyond_of_new known, firstsBeyond_of_new known, List.map_cons, List.map_cons,
          ih, Selection.name_normalize]

/-- A hook is told the same names, since a normalized query has them in the same order. -/
theorem requested_normalized (selections : List Selection) :
    requested (normalized selections) = requested selections := by
  have again := map_name_normalized (normalized selections)
  rw [(allUnrepeated_normalized selections).normalized_eq] at again
  rw [← again, map_name_normalized]

variable {State Node : Type} {graph : DataGraph State Node} {limit : DepthLimit}

theorem evalLevel_normalized {path : Path} {depth : Nat} {selections : List Selection}
    {node : Node}
    (inside : evalSelections graph limit path depth node [] (normalized selections) =
      evalSelections graph limit path depth node [] selections) :
    evalLevel graph limit path depth (normalized selections) node =
      evalLevel graph limit path depth selections node := by
  rw [evalLevel, evalLevel, requested_normalized, inside]

mutual

theorem evalSelection_normalize (path : Path) (depth : Nat) (node : Node)
    (selection : Selection) :
    evalSelection graph limit path depth node selection.normalize =
      evalSelection graph limit path depth node selection := by
  match selection with
  | .leaf name => rw [Selection.normalize]
  | .branch name arguments selections =>
      have nested : evalLevel graph limit (path ++ [name]) (depth + 1) (normalized selections) =
          evalLevel graph limit (path ++ [name]) (depth + 1) selections := by
        funext child
        apply evalLevel_normalized
        exact evalSelections_normalizeBeyond (path ++ [name]) (depth + 1) child [] selections
      rw [Selection.normalize, ← normalized, evalSelection_branch, evalSelection_branch, nested]

/-- Both sides see the same names: what normalizing drops is what executing skips. -/
theorem evalSelections_normalizeBeyond (path : Path) (depth : Nat) (node : Node)
    (seen : List String) (selections : List Selection) :
    evalSelections graph limit path depth node seen (normalizeBeyond seen selections) =
      evalSelections graph limit path depth node seen selections := by
  match selections with
  | [] => rw [normalizeBeyond]
  | selection :: rest =>
      by_cases known : selection.name ∈ seen
      · rw [normalizeBeyond_of_seen known, evalSelections_of_seen known]
        exact evalSelections_normalizeBeyond path depth node seen rest
      · have new : selection.normalize.name ∉ seen := by simpa using known
        rw [normalizeBeyond_of_new known, evalSelections_of_new known, evalSelections_of_new new,
          Selection.name_normalize, evalSelection_normalize path depth node selection,
          evalSelections_normalizeBeyond path depth node (selection.name :: seen) rest]

end

theorem execute_normalized (graph : DataGraph State Node) (limit : DepthLimit)
    (selections : List Selection) (root : Node) :
    execute graph limit (normalized selections) root = execute graph limit selections root :=
  evalLevel_normalized (evalSelections_normalizeBeyond [] 1 root [] selections)

/-- Normalizing twice is normalizing once, and leaves no repeated name. On every graph a query and
its normal form have the same result, the same error included, leave the same state and make the
same calls. -/
theorem normalized_indistinguishable (selections : List Selection) :
    normalized (normalized selections) = normalized selections ∧
      AllUnrepeated (normalized selections) ∧
      ∀ {State Node : Type} (graph : DataGraph State Node) (limit : DepthLimit) (root : Node)
        (before : State),
        (execute graph limit (normalized selections) root).outcome before =
            (execute graph limit selections root).outcome before ∧
          watch graph limit (normalized selections) root before =
            watch graph limit selections root before := by
  have unrepeated := allUnrepeated_normalized selections
  refine ⟨unrepeated.normalized_eq, unrepeated, ?_⟩
  intro State Node graph limit root before
  constructor
  · rw [execute_normalized]
  · rw [watch, watch, execute_normalized]

/-- Of two branches of one name the first stays, and within it the first leaf of each name. -/
example :
    normalized
      [.branch "films" .empty [.leaf "name", .branch "name" .empty [], .leaf "year"], .leaf "films",
        .branch "films" .empty [.leaf "director"]] =
      [.branch "films" .empty [.leaf "name", .leaf "year"]] := by decide

end FieldQuery.Execution
