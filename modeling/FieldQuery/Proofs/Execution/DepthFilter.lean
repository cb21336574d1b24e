import FieldQuery.Proofs.Execution.Filtering
import FieldQuery.Proofs.Execution.Watching
import FieldQuery.Sample.Tree

/-!
# The depth limit as a filter

A depth limit never changes what an execution does. It only ends executions that reach beyond it,
before anything is called there.
-/

set_option autoImplicit false

namespace FieldQuery.Execution

open Query DataGraph

variable {State Node : Type}

def Trips {α : Type} (result : Except ExecutionError α) : Prop :=
  ∃ limit path, result = .error (.depthLimitExceeded limit path)

/-- The result of an execution, the state behind it, and the calls that it made in order. -/
def watch (graph : DataGraph State Node) (limit : DepthLimit) (selections : List Selection)
    (root : Node) (before : State) : Except ExecutionError Value × Observed State Node :=
  (execute graph.observing limit selections (Visit.root root)).outcome (before, [])

theorem watch_eq (graph : DataGraph State Node) (limit : DepthLimit)
    (selections : List Selection) (root : Node) (before : State) :
    ∃ calls, (∀ event ∈ calls, Within limit event) ∧
      watch graph limit selections root before =
        (((execute graph limit selections root).outcome before).1,
          ((execute graph limit selections root).outcome before).2, calls) := by
  obtain ⟨calls, records, ran⟩ :=
    watches_execute (observes_observing graph) limit selections root before []
  refine ⟨calls, records.within, ?_⟩
  rw [watch, ran, Except.map_id, List.nil_append]
  rfl

theorem level_le_of_within {limit : DepthLimit} (limited : limit ≠ .unlimited)
    {event : Event Node} (within : Within limit event) :
    event.visit.level ≤ limit.maximum.toNat :=
  (DepthLimit.exceededBy_eq_false_iff limited _).mp within

theorem text_of_ne_nil {path : Path} (nonempty : path ≠ []) :
    path.text = ".".intercalate path := by
  rw [Path.text, if_neg]
  intro isEmpty
  exact nonempty (List.isEmpty_iff.mp isEmpty)

/-- An execution that the limit does not end does the same under every wider limit. -/
theorem outcome_eq_of_not_trips {graph : DataGraph State Node} {limit wider : DepthLimit}
    {selections : List Selection} {root : Node} {before : State} (limited : limit ≠ .unlimited)
    (isWider : limit.Wider wider)
    (passes : ¬ Trips ((execute graph limit selections root).outcome before).1) :
    (execute graph wider selections root).outcome before =
      (execute graph limit selections root).outcome before := by
  rcases filters_execute graph limited isWider selections root before with
    same | ⟨error, after, stopped, names, rfl, _⟩
  · exact same.symm
  · exact absurd ⟨limit, [] ++ names, congrArg Prod.fst stopped⟩ passes

/-- The depth limit is a filter: under it, an execution does exactly what it does without, or it
stops at the end of a chain of branches as long as the limit. All calls are made on nodes within
the limit. An execution that passes one limit does the same under all greater ones. -/
theorem execute_filtered_by_limit (graph : DataGraph State Node) (limit : DepthLimit)
    (limited : limit ≠ .unlimited) (selections : List Selection) (root : Node) (before : State) :
    ((execute graph limit selections root).outcome before =
        (execute graph .unlimited selections root).outcome before ∨
      ∃ path after,
        (execute graph limit selections root).outcome before =
          (.error (.depthLimitExceeded limit path), after) ∧
        path.length = limit.maximum.toNat ∧ Chain selections path ∧
        path.text = ".".intercalate path) ∧
    (∃ calls,
      watch graph limit selections root before =
        (((execute graph limit selections root).outcome before).1,
          ((execute graph limit selections root).outcome before).2, calls) ∧
      ∀ event ∈ calls, event.visit.level ≤ limit.maximum.toNat) ∧
    (¬ Trips ((execute graph limit selections root).outcome before).1 →
      (execute graph .unlimited selections root).outcome before =
          (execute graph limit selections root).outcome before ∧
        ∀ wider : DepthLimit, limit.maximum ≤ wider.maximum →
          ¬ Trips ((execute graph wider selections root).outcome before).1 ∧
            (execute graph wider selections root).outcome before =
              (execute graph limit selections root).outcome before) := by
  refine ⟨?_, ?_, ?_⟩
  · rcases filters_execute graph limited limit.wider_unlimited selections root before with
      same | ⟨error, after, stopped, path, rfl, reaches, chain⟩
    · exact .inl same
    · refine .inr ⟨path, after, stopped, reaches, chain, ?_⟩
      apply text_of_ne_nil
      intro empty
      have positive := DepthLimit.maximum_pos limited
      rw [← reaches, empty] at positive
      cases positive
  · obtain ⟨calls, kept, watched⟩ := watch_eq graph limit selections root before
    refine ⟨calls, watched, ?_⟩
    intro event member
    exact level_le_of_within limited (kept event member)
  · intro passes
    refine ⟨outcome_eq_of_not_trips limited limit.wider_unlimited passes, ?_⟩
    intro wider le
    have same := outcome_eq_of_not_trips limited (DepthLimit.wider_of_le limited le) passes
    rw [same]
    exact ⟨passes, rfl⟩

def nestedQuery : List Selection :=
  [.branch "pick" .empty [.leaf "name", .branch "children" .empty [.leaf "id"]]]

def grandparentVertex : Sample.Vertex :=
  .node (.mk 1 "grandparent" .null none none
    [.mk 2 "parent" .null none none [.mk 3 "child" .null none none [] []] []] [])

theorem nestedQuery_filtered :
    (∃ after calls,
      (execute Sample.tree ⟨2⟩ nestedQuery grandparentVertex).outcome .empty =
          (.error (.depthLimitExceeded ⟨2⟩ ["pick", "children"]), after) ∧
        Chain nestedQuery ["pick", "children"] ∧
        watch Sample.tree ⟨2⟩ nestedQuery grandparentVertex .empty =
          (.error (.depthLimitExceeded ⟨2⟩ ["pick", "children"]), after, calls) ∧
        calls.length = 4 ∧ ∀ event ∈ calls, event.visit.level ≤ 2) ∧
      (execute Sample.tree ⟨5⟩ nestedQuery grandparentVertex).outcome .empty =
        (execute Sample.tree ⟨3⟩ nestedQuery grandparentVertex).outcome .empty := by
  constructor
  · obtain ⟨filtered, ⟨calls, watched, within⟩, _⟩ :=
      execute_filtered_by_limit Sample.tree ⟨2⟩ (by decide) nestedQuery grandparentVertex .empty
    have number : (watch Sample.tree ⟨2⟩ nestedQuery grandparentVertex .empty).2.2.length = 4 :=
      rfl
    have ended : ((execute Sample.tree ⟨2⟩ nestedQuery grandparentVertex).outcome .empty).1 =
      .error (.depthLimitExceeded ⟨2⟩ ["pick", "children"]) := rfl
    rcases filtered with same | ⟨path, after, stopped, _, chain, _⟩
    · have passed : ((execute Sample.tree .unlimited nestedQuery grandparentVertex).outcome
        .empty).1.toOption.isSome = true := rfl
      rw [← same, ended] at passed
      cases passed
    · rw [stopped] at ended watched
      cases ended
      rw [watched] at number
      exact ⟨after, calls, stopped, chain, watched, number, within⟩
  · obtain ⟨_, _, passing⟩ :=
      execute_filtered_by_limit Sample.tree ⟨3⟩ (by decide) nestedQuery grandparentVertex .empty
    have passed : ((execute Sample.tree ⟨3⟩ nestedQuery grandparentVertex).outcome
      .empty).1.toOption.isSome = true := rfl
    have passes :
        ¬ Trips ((execute Sample.tree ⟨3⟩ nestedQuery grandparentVertex).outcome .empty).1 := by
      rintro ⟨limit, path, ended⟩
      rw [ended] at passed
      cases passed
    exact ((passing passes).2 ⟨5⟩ (by decide)).2

end FieldQuery.Execution
