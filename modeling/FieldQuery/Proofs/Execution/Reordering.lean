import FieldQuery.Proofs.Execution.Filtering
import Mathlib.Logic.Relation

/-!
# Queries in another order

The selections of a set without repeated names can stand in any order, at every level of a query.
Where the selections of a set leave the shared state alone, its members do not show the order.
-/

set_option autoImplicit false

namespace FieldQuery.Query

/-- One change of order in a query: the selections of one of its sets, in which no name is
repeated, are permuted. -/
inductive Reordering : List Selection → List Selection → Prop where
  | permuted {selections others : List Selection}
      (distinct : (selections.map Selection.name).Nodup) (permutation : selections.Perm others) :
      Reordering selections others
  | nested {front back inner changed : List Selection} {name : String} {arguments : Arguments}
      (inside : Reordering inner changed) :
      Reordering (front ++ .branch name arguments inner :: back)
        (front ++ .branch name arguments changed :: back)

end FieldQuery.Query

namespace FieldQuery.Execution

open Query
open FieldQuery.Execution.Computation

variable {State Node : Type} {graph : DataGraph State Node} {limit : DepthLimit} {path : Path}
  {depth : Nat} {node : Node}

/-- Where a selection does what another one of its name does, unless it fails, so does the set
around it. -/
theorem filters_evalSelections_of_selection {selection changed : Selection}
    {stops : ExecutionError → Prop} (named : selection.name = changed.name)
    (filters : Filters stops (evalSelection graph limit path depth node selection)
      (evalSelection graph limit path depth node changed))
    (seen : List String) (front back : List Selection) :
    Filters stops
      (evalSelections graph limit path depth node seen (front ++ selection :: back))
      (evalSelections graph limit path depth node seen (front ++ changed :: back)) := by
  induction front generalizing seen with
  | nil =>
      rw [List.nil_append, List.nil_append]
      by_cases known : selection.name ∈ seen
      · rw [evalSelections_of_seen known, evalSelections_of_seen (named ▸ known)]
        exact filters_refl _ _
      · rw [evalSelections_of_new known, evalSelections_of_new (named ▸ known), named]
        exact filters.bind fun value => filters_refl _ _
  | cons first front ih =>
      rw [List.cons_append, List.cons_append]
      by_cases known : first.name ∈ seen
      · rw [evalSelections_of_seen known, evalSelections_of_seen known]
        exact ih seen
      · rw [evalSelections_of_new known, evalSelections_of_new known]
        apply (filters_refl _ _).bind
        intro value
        exact (ih (first.name :: seen)).bind fun members => filters_refl _ _

/-- What a set gives on a node when none of its selections touches the state: each selection gives
its member, and there are no others. -/
structure Assembled (graph : DataGraph State Node) (limit : DepthLimit) (path : Path)
    (depth : Nat) (node : Node) (state : State) (selections : List Selection)
    (members : Dict Value) : Prop where
  answered : ∀ selection ∈ selections, ∃ value,
    (evalSelection graph limit path depth node selection).outcome state = (.ok value, state) ∧
      members.get? selection.name = some value
  absent : ∀ name ∉ selections.map Selection.name, members.get? name = none

theorem Assembled.perm {state : State} {selections others : List Selection} {members : Dict Value}
    (assembled : Assembled graph limit path depth node state selections members)
    (permutation : selections.Perm others) :
    Assembled graph limit path depth node state others members where
  answered selection member := assembled.answered selection (permutation.mem_iff.mpr member)
  absent name missing :=
    assembled.absent name fun member => missing ((permutation.map _).mem_iff.mp member)

/-- Selections without repeated names that leave the state alone give members that do not depend on
their order. -/
theorem outcome_evalSelections_iff {state after : State} {seen : List String}
    {selections : List Selection} {members : Dict Value}
    (keeps : ∀ selection ∈ selections, ∀ value between,
      (evalSelection graph limit path depth node selection).outcome state = (.ok value, between) →
        between = state)
    (distinct : (selections.map Selection.name).Nodup)
    (new : ∀ selection ∈ selections, selection.name ∉ seen) :
    (evalSelections graph limit path depth node seen selections).outcome state =
        (.ok members, after) ↔
      after = state ∧ Assembled graph limit path depth node state selections members := by
  induction selections generalizing seen members after with
  | nil =>
      rw [evalSelections_nil, outcome_pure]
      constructor
      · intro returned
        cases returned
        exact ⟨rfl, nofun, fun _ _ => rfl⟩
      · intro both
        obtain ⟨rfl, assembled⟩ := both
        have isEmpty : members = .empty :=
          Dict.ext_get? fun name => assembled.absent name List.not_mem_nil
        rw [isEmpty]
  | cons selection rest ih =>
      obtain ⟨keepsFirst, keepsRest⟩ := List.forall_mem_cons.mp keeps
      obtain ⟨apart, distinctRest⟩ := List.nodup_cons.mp distinct
      obtain ⟨newFirst, newRest⟩ := List.forall_mem_cons.mp new
      have others : ∀ other ∈ rest, other.name ∉ selection.name :: seen := by
        intro other member early
        rcases List.mem_cons.mp early with same | early
        · exact apart (same ▸ List.mem_map_of_mem member)
        · exact newRest other member early
      have different : ∀ other ∈ rest, other.name ≠ selection.name := fun other member same =>
        others other member (same ▸ List.mem_cons_self)
      rw [evalSelections_of_new newFirst, outcome_bind_eq_ok_iff]
      constructor
      · intro parts
        obtain ⟨value, between, first, continued⟩ := parts
        obtain rfl := keepsFirst value between first
        obtain ⟨further, last, remaining, returned⟩ := outcome_bind_eq_ok_iff.mp continued
        obtain ⟨rfl, assembled⟩ := (ih keepsRest distinctRest others).mp remaining
        cases returned
        refine ⟨rfl, List.forall_mem_cons.mpr ⟨⟨value, first, ?_⟩, ?_⟩, ?_⟩
        · rw [Dict.get?_insert, if_pos rfl]
        · intro other member
          rw [Dict.get?_insert, if_neg (different other member)]
          exact assembled.answered other member
        · intro name missing
          rw [List.map_cons, List.mem_cons, not_or] at missing
          rw [Dict.get?_insert, if_neg missing.1]
          exact assembled.absent name missing.2
      · intro parts
        obtain ⟨rfl, answered, absent⟩ := parts
        obtain ⟨⟨value, first, stored⟩, later⟩ := List.forall_mem_cons.mp answered
        have assembled : Assembled graph limit path depth node after rest
            (members.erase selection.name) := by
          refine ⟨?_, ?_⟩
          · intro other member
            rw [Dict.get?_erase, if_neg (different other member)]
            exact later other member
          · intro name missing
            rw [Dict.get?_erase]
            split
            · rfl
            · next other => exact absent name (by simp [other, missing])
        refine ⟨value, after, first, outcome_bind_eq_ok_iff.mpr
          ⟨_, after, (ih keepsRest distinctRest others).mpr ⟨rfl, assembled⟩, ?_⟩⟩
        have whole : (members.erase selection.name).insert selection.name value = members := by
          apply Dict.ext_get?
          intro name
          rw [Dict.get?_insert, Dict.get?_erase]
          split
          · next same => rw [same, stored]
          · rfl
        rw [outcome_pure, whole]

theorem outcome_evalSelections_of_perm {state after : State} {selections others : List Selection}
    {members : Dict Value}
    (keeps : ∀ selection value between,
      (evalSelection graph limit path depth node selection).outcome state = (.ok value, between) →
        between = state)
    (distinct : (selections.map Selection.name).Nodup) (permutation : selections.Perm others)
    (evaluated : (evalSelections graph limit path depth node [] selections).outcome state =
      (.ok members, after)) :
    (evalSelections graph limit path depth node [] others).outcome state =
      (.ok members, after) := by
  have distinctOthers : (others.map Selection.name).Nodup :=
    (permutation.map Selection.name).nodup distinct
  rw [outcome_evalSelections_iff (fun selection _ => keeps selection) distinct (by simp)]
    at evaluated
  rw [outcome_evalSelections_iff (fun selection _ => keeps selection) distinctOthers (by simp)]
  exact ⟨evaluated.1, evaluated.2.perm permutation⟩

end FieldQuery.Execution
