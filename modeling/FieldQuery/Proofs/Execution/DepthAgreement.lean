import FieldQuery.CommandLine.Run
import FieldQuery.Proofs.Execution.DepthFilter
import FieldQuery.Proofs.Execution.Ensuring
import FieldQuery.Proofs.Query.Nesting
import FieldQuery.Proofs.Query.OnePassAgreement

/-!
# Depth limits of parsing and of execution

An execution stops at its depth limit only where the query has a branch that leads further. A query
that was parsed under a limit has no such branch, so its execution never stops at the same limit or
a wider one, whatever the graph does.
-/

set_option autoImplicit false

namespace FieldQuery.Execution

open Query DataGraph

variable {State Node : Type}

open FieldQuery.Execution.Computation

/-- If an error is that of a depth limit, then its path leads from a place through a selection set
to a level beyond the limit. -/
def LeadsBeyond (limit : DepthLimit) (path : Path) (selections : List Selection)
    (error : ExecutionError) : Prop :=
  ∀ bound place, error = .depthLimitExceeded bound place →
    limit.exceededBy (place.length + 1) = true ∧
      ∃ names, place = path ++ names ∧ Chain selections names

theorem LeadsBeyond.outwards {limit : DepthLimit} {path : Path} {name : String}
    {arguments : Arguments} {nested selections : List Selection} {error : ExecutionError}
    (first : .branch name arguments nested ∈ firsts selections)
    (leads : LeadsBeyond limit (path ++ [name]) nested error) :
    LeadsBeyond limit path selections error := by
  intro bound place same
  obtain ⟨beyond, names, rfl, chain⟩ := leads bound place same
  exact ⟨beyond, name :: names, by simp, .cons first chain⟩

section

variable {graph : DataGraph State Node} {limit : DepthLimit}

theorem failsWith_evalLevel {path : Path} {depth : Nat} {selections : List Selection} {node : Node}
    (aligned : depth = path.length + 1)
    (inside : FailsWith (LeadsBeyond limit path selections)
      (evalSelections graph limit path depth node [] selections)) :
    FailsWith (LeadsBeyond limit path selections)
      (evalLevel graph limit path depth selections node) := by
  rw [evalLevel]
  refine FailsWith.bind ?_ fun _ => inside.bind fun members => failsWith_pure _
  rw [enter]
  split
  · next tooDeep =>
      apply failsWith_throw
      intro bound place same
      cases same
      exact ⟨aligned ▸ tooDeep, [], (List.append_nil path).symm, .nil⟩
  split
  · exact failsWith_pure _
  · apply failsWith_adapt
    intro text bound place same
    cases same

mutual

theorem failsWith_evalSelection {path : Path} {depth : Nat} {node : Node}
    {surrounding : List Selection} (aligned : depth = path.length + 1) (selection : Selection)
    (first : selection ∈ firsts surrounding) :
    FailsWith (LeadsBeyond limit path surrounding)
      (evalSelection graph limit path depth node selection) := by
  match selection with
  | .leaf name =>
      rw [evalSelection_leaf]
      split
      · exact failsWith_liftM _
      · exact failsWith_throw nofun
  | .branch name arguments selections =>
      rw [evalSelection_branch]
      split
      · refine FailsWith.bind (failsWith_liftM _) fun children => ?_
        refine FailsWith.bind (.mapM ?_ children) fun items => failsWith_pure _
        intro child
        refine FailsWith.mono ?_ fun error => LeadsBeyond.outwards first
        have deeper : depth + 1 = (path ++ [name]).length + 1 := by simp [aligned]
        exact failsWith_evalLevel deeper
          (failsWith_evalSelections deeper [] selections fun _ member => member)
      · exact failsWith_throw nofun

theorem failsWith_evalSelections {path : Path} {depth : Nat} {node : Node}
    {surrounding : List Selection} (aligned : depth = path.length + 1) (seen : List String)
    (selections : List Selection)
    (ofFirsts : ∀ selection ∈ firstsBeyond seen selections, selection ∈ firsts surrounding) :
    FailsWith (LeadsBeyond limit path surrounding)
      (evalSelections graph limit path depth node seen selections) := by
  match selections with
  | [] =>
      rw [evalSelections_nil]
      exact failsWith_pure _
  | selection :: rest =>
      by_cases known : selection.name ∈ seen
      · rw [evalSelections_of_seen known]
        rw [firstsBeyond_of_seen known] at ofFirsts
        exact failsWith_evalSelections aligned seen rest ofFirsts
      · rw [evalSelections_of_new known]
        rw [firstsBeyond_of_new known] at ofFirsts
        apply (failsWith_evalSelection aligned selection
          (ofFirsts selection List.mem_cons_self)).bind
        intro value
        apply (failsWith_evalSelections aligned (selection.name :: seen) rest
          fun other member => ofFirsts other (List.mem_cons_of_mem _ member)).bind
        intro members
        exact failsWith_pure _

end

theorem failsWith_execute (selections : List Selection) (root : Node) :
    FailsWith (LeadsBeyond limit [] selections) (execute graph limit selections root) :=
  failsWith_evalLevel rfl (failsWith_evalSelections rfl [] selections fun _ member => member)

end

/-- A chain of branches ends above the last level of the selections. -/
theorem Chain.length_lt_levels {selections : List Selection} {names : List String}
    (chain : Chain selections names) : names.length < levels selections := by
  induction chain with
  | nil => exact levels_pos _
  | cons first further ih =>
      have member := List.mem_of_find?_eq_some (mem_firsts_iff.mp first)
      have fewer := levels_lt_of_mem member
      rw [List.length_cons]
      omega

/-- Selections that have no level beyond a limit are executed without stopping at it. -/
theorem not_trips_of_allowed {graph : DataGraph State Node} {limit : DepthLimit}
    {selections : List Selection} (allowed : limit.exceededBy (levels selections) = false)
    (root : Node) (before : State) :
    ¬ Trips ((execute graph limit selections root).outcome before).1 := by
  rintro ⟨bound, path, tripped⟩
  obtain ⟨beyond, names, rfl, chain⟩ :=
    (failsWith_execute selections root).of_outcome (Prod.ext tripped rfl) bound path rfl
  rw [DepthLimit.exceededBy_eq_false_of_le (Chain.length_lt_levels chain) allowed] at beyond
  cases beyond

theorem allowed_of_parse {limit : DepthLimit} {text : String} {selections : List Selection}
    (parsed : parse limit text = .ok selections) : limit.exceededBy (levels selections) = false := by
  by_cases limited : limit = .unlimited
  · rw [limited]
    exact DepthLimit.unlimited_exceededBy _
  · rw [DepthLimit.exceededBy_eq_false_iff limited]
    exact ((parse_eq_ok_iff_of_limited limited).mp parsed).2

/-- An execution error of a check comes from executing what was parsed. -/
theorem execute_of_check {settings : Settings} {seed : Int64} {syntaxOnly : Bool} {text : String}
    {error : ExecutionError}
    (checked : CommandLine.check settings seed syntaxOnly text = .error (.execution error)) :
    ∃ selections catalog store, parse settings.parser text = .ok selections ∧
      ((execute Films.graph settings.executor selections catalog).outcome store).1 =
        .error error := by
  rw [CommandLine.check] at checked
  cases parsed : parse settings.parser text with
  | error fault =>
      rw [parsed] at checked
      cases checked
  | ok selections =>
      rw [parsed] at checked
      cases syntaxOnly with
      | true => cases checked
      | false =>
          have ended : CommandLine.resultOf (CommandLine.executed settings seed selections) =
              .error (.execution error) := checked
          refine ⟨selections, _, _, rfl, (?_ : (CommandLine.executed settings seed selections).1 = _)⟩
          generalize CommandLine.executed settings seed selections = outcome at ended
          obtain ⟨result, store⟩ := outcome
          cases store with
          | error fault => cases ended
          | ok context =>
              cases result with
              | ok value => cases ended
              | error failed =>
                  cases ended
                  rfl

/-- What a parse lets pass, no execution under the same limit or a wider one stops at, on any graph.
So a check with one limit for both can report only the parse for going too deep. -/
theorem execution_passes_limit_of_parse (limit : DepthLimit) (text : String) :
    (limit ≠ .unlimited → ∀ selections, parse limit text = .ok selections →
      ∀ {State Node : Type} (graph : DataGraph State Node) (executionLimit : DepthLimit)
        (root : Node) (before : State),
        executionLimit = .unlimited ∨ limit.maximum ≤ executionLimit.maximum →
        ¬ Trips ((execute graph executionLimit selections root).outcome before).1) ∧
    ∀ (seed : Int64) (syntaxOnly : Bool) (bound : DepthLimit) (path : Path),
      CommandLine.check (.withMaxDepth limit) seed syntaxOnly text ≠
        .error (.execution (.depthLimitExceeded bound path)) := by
  constructor
  · intro limited selections parsed State Node graph executionLimit root before wide
    have isWider : limit.Wider executionLimit := by
      rcases wide with rfl | le
      · exact limit.wider_unlimited
      · exact DepthLimit.wider_of_le limited le
    exact not_trips_of_allowed (isWider _ (allowed_of_parse parsed)) root before
  · intro seed syntaxOnly bound path checked
    obtain ⟨selections, catalog, store, parsed, ended⟩ := execute_of_check checked
    exact not_trips_of_allowed (allowed_of_parse parsed) catalog store ⟨bound, path, ended⟩

/-- A text with a nameless set and an empty block on its third level. -/
def braceText : String := "\x7b pick \x7b \x7bname\x7d children \x7b\x7d \x7d \x7d"

theorem execution_passes_braceText :
    ∃ selections, parse ⟨3⟩ braceText = .ok selections ∧
      ¬ Trips ((execute Sample.tree ⟨3⟩ selections grandparentVertex).outcome .empty).1 ∧
      ¬ Trips ((execute Sample.tree .unlimited selections grandparentVertex).outcome .empty).1 ∧
      Trips ((execute Sample.tree ⟨2⟩ selections grandparentVertex).outcome .empty).1 := by
  let selections : List Selection :=
    [.branch "pick" .empty [.leaf "name", .branch "children" .empty []]]
  have parsed : parse ⟨3⟩ braceText = .ok selections := by
    rw [← Fallible.toOption_eq_some_iff, toOption_parse]
    decide +kernel
  have passes := (execution_passes_limit_of_parse ⟨3⟩ braceText).1 (by decide) selections parsed
    Sample.tree
  exact ⟨selections, parsed, passes ⟨3⟩ grandparentVertex .empty (.inr (by decide)),
    passes .unlimited grandparentVertex .empty (.inl rfl), ⟨2⟩, ["pick", "children"], rfl⟩

end FieldQuery.Execution
