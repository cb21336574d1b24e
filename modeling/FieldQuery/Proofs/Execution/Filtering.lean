import FieldQuery.Proofs.DepthLimit
import FieldQuery.Proofs.Execution.Equations
import FieldQuery.Proofs.Execution.Outcome
import FieldQuery.Proofs.Execution.Repetition

/-!
# Executions under two limits

An execution under a limit runs in step with an execution under a wider one until it stops at the
limit. Where it stops, the path holds as many branches as the limit allows, each the first of its
name in its set.
-/

set_option autoImplicit false

namespace FieldQuery.Execution

open Query

variable {State Node α β : Type}

/-- Names of branches that lead inwards from a selection set, each the first of its name. -/
inductive Chain : List Selection → List String → Prop where
  | nil {selections : List Selection} : Chain selections []
  | cons {selections nested : List Selection} {name : String} {arguments : Arguments}
      {inner : List String} (first : .branch name arguments nested ∈ firsts selections)
      (further : Chain nested inner) : Chain selections (name :: inner)

/-- An error stops at a limit, with a path that leads from a place through a selection set. -/
def StopsAt (limit : DepthLimit) (path : Path) (selections : List Selection)
    (error : ExecutionError) : Prop :=
  ∃ names, error = .depthLimitExceeded limit (path ++ names) ∧
    (path ++ names).length = limit.maximum.toNat ∧ Chain selections names

/-- Stopping inside a branch is stopping in the set that the branch belongs to. -/
theorem StopsAt.outwards {limit : DepthLimit} {path : Path} {name : String}
    {arguments : Arguments} {nested selections : List Selection} {error : ExecutionError}
    (first : .branch name arguments nested ∈ firsts selections)
    (stops : StopsAt limit (path ++ [name]) nested error) :
    StopsAt limit path selections error := by
  obtain ⟨names, rfl, reaches, chain⟩ := stops
  have joined : path ++ [name] ++ names = path ++ name :: names :=
    (List.append_cons path name names).symm
  rw [joined] at reaches ⊢
  exact ⟨name :: names, rfl, reaches, .cons first chain⟩

namespace Computation

/-- One computation does what another does, unless it stops with certain errors. -/
def Filters (stops : ExecutionError → Prop) (tight loose : Computation State α) : Prop :=
  ∀ before, outcome tight before = outcome loose before ∨
    ∃ error after, outcome tight before = (.error error, after) ∧ stops error

theorem filters_refl (stops : ExecutionError → Prop) (computation : Computation State α) :
    Filters stops computation computation := fun _ => .inl rfl

theorem Filters.eq {tight loose : Computation State α}
    (filters : Filters (fun _ => False) tight loose) : tight = loose := by
  apply ext_outcome
  intro before
  rcases filters before with same | ⟨_, _, _, stops⟩
  · exact same
  · exact stops.elim

theorem Filters.mono {stops others : ExecutionError → Prop} {tight loose : Computation State α}
    (filters : Filters stops tight loose) (weaker : ∀ error, stops error → others error) :
    Filters others tight loose := by
  intro before
  rcases filters before with same | ⟨error, after, stopped, stops⟩
  · exact .inl same
  · exact .inr ⟨error, after, stopped, weaker error stops⟩

theorem Filters.bind {stops : ExecutionError → Prop} {tight loose : Computation State α}
    {tightNext looseNext : α → Computation State β} (first : Filters stops tight loose)
    (next : ∀ value, Filters stops (tightNext value) (looseNext value)) :
    Filters stops (tight >>= tightNext) (loose >>= looseNext) := by
  intro before
  rw [outcome_bind, outcome_bind]
  rcases first before with same | ⟨error, after, stopped, stops⟩
  · rw [same]
    cases outcome loose before with
    | mk result between =>
        cases result with
        | ok value => exact next value between
        | error error => exact .inl rfl
  · rw [stopped]
    exact .inr ⟨error, after, rfl, stops⟩

/-- What follows a step has to be compared only on the values that the step gives. -/
theorem filters_liftM_bind {stops : ExecutionError → Prop} {step : StateM State α}
    {tightNext looseNext : α → Computation State β}
    (next : ∀ state, Filters stops (tightNext (step.run state).1) (looseNext (step.run state).1)) :
    Filters stops (liftM step >>= tightNext) (liftM step >>= looseNext) := by
  intro before
  rw [outcome_bind, outcome_bind, outcome_liftM]
  exact next before (step.run before).2

theorem Filters.mapM {stops : ExecutionError → Prop} {tight loose : α → Computation State β}
    {values : List α} (each : ∀ value ∈ values, Filters stops (tight value) (loose value)) :
    Filters stops (values.mapM tight) (values.mapM loose) := by
  induction values with
  | nil => exact filters_refl stops _
  | cons value values ih =>
      obtain ⟨first, others⟩ := List.forall_mem_cons.mp each
      rw [List.mapM_cons, List.mapM_cons]
      apply first.bind
      intro firstValue
      apply (ih others).bind
      intro rest
      exact filters_refl stops _

end Computation

open FieldQuery.Execution.Computation

section Limited

variable {graph : DataGraph State Node} {limit wider : DepthLimit}

theorem filters_evalLevel (limited : limit ≠ .unlimited) (isWider : limit.Wider wider)
    {path : Path} {depth : Nat} {selections : List Selection} {node : Node}
    (aligned : depth = path.length + 1) (reached : path.length ≤ limit.maximum.toNat)
    (inside : depth ≤ limit.maximum.toNat →
      Filters (StopsAt limit path selections)
        (evalSelections graph limit path depth node [] selections)
        (evalSelections graph wider path depth node [] selections)) :
    Filters (StopsAt limit path selections) (evalLevel graph limit path depth selections node)
      (evalLevel graph wider path depth selections node) := by
  cases exceeded : limit.exceededBy depth with
  | true =>
      -- The level is the first one too deep, so the path is as long as the limit.
      intro before
      have below : limit.maximum.toNat < depth :=
        (DepthLimit.exceededBy_iff limited depth).mp exceeded
      refine .inr ⟨.depthLimitExceeded limit path, before, ?_, [], ?_, ?_, .nil⟩
      · rw [evalLevel, enter, exceeded, if_pos rfl, outcome_bind, outcome_throw, continued]
      · rw [List.append_nil]
      · rw [List.append_nil]
        omega
  | false =>
      have within : depth ≤ limit.maximum.toNat :=
        (DepthLimit.exceededBy_eq_false_iff limited depth).mp exceeded
      have allowed : wider.exceededBy depth = false := isWider depth exceeded
      have entered : enter graph limit path depth (requested selections) node =
          enter graph wider path depth (requested selections) node := by
        rw [enter, enter, exceeded, allowed]
        rfl
      rw [evalLevel, evalLevel, entered]
      apply (filters_refl _ _).bind
      intro _
      apply (inside within).bind
      intro members
      exact filters_refl _ _

mutual

theorem filters_evalSelection (limited : limit ≠ .unlimited) (isWider : limit.Wider wider)
    {path : Path} {depth : Nat} {node : Node} {surrounding : List Selection}
    (aligned : depth = path.length + 1) (within : depth ≤ limit.maximum.toNat)
    (selection : Selection) (first : selection ∈ firsts surrounding) :
    Filters (StopsAt limit path surrounding) (evalSelection graph limit path depth node selection)
      (evalSelection graph wider path depth node selection) := by
  match selection with
  | .leaf name =>
      rw [evalSelection_leaf, evalSelection_leaf]
      exact filters_refl _ _
  | .branch name arguments selections =>
      rw [evalSelection_branch, evalSelection_branch]
      split
      · next stored resolver declared =>
          apply (filters_refl _ _).bind
          intro children
          refine Filters.bind (.mapM ?_) fun items => filters_refl _ _
          intro child _
          refine Filters.mono ?_ fun error => StopsAt.outwards first
          have length : (path ++ [name]).length = depth := by
            rw [aligned, List.length_append, List.length_singleton]
          apply filters_evalLevel limited isWider (by rw [length]) (by rw [length]; exact within)
          intro deeper
          exact filters_evalSelections limited isWider (by rw [length]) deeper []
            selections fun _ member => member
      · exact filters_refl _ _

theorem filters_evalSelections (limited : limit ≠ .unlimited) (isWider : limit.Wider wider)
    {path : Path} {depth : Nat} {node : Node} {surrounding : List Selection}
    (aligned : depth = path.length + 1) (within : depth ≤ limit.maximum.toNat)
    (seen : List String) (selections : List Selection)
    (ofFirsts : ∀ selection ∈ firstsBeyond seen selections, selection ∈ firsts surrounding) :
    Filters (StopsAt limit path surrounding)
      (evalSelections graph limit path depth node seen selections)
      (evalSelections graph wider path depth node seen selections) := by
  match selections with
  | [] =>
      rw [evalSelections_nil, evalSelections_nil]
      exact filters_refl _ _
  | selection :: rest =>
      by_cases known : selection.name ∈ seen
      · rw [evalSelections_of_seen known, evalSelections_of_seen known]
        rw [firstsBeyond_of_seen known] at ofFirsts
        exact filters_evalSelections limited isWider aligned within seen rest ofFirsts
      · rw [evalSelections_of_new known, evalSelections_of_new known]
        rw [firstsBeyond_of_new known] at ofFirsts
        apply (filters_evalSelection limited isWider aligned within selection
          (ofFirsts selection List.mem_cons_self)).bind
        intro value
        apply (filters_evalSelections limited isWider aligned within (selection.name :: seen)
          rest fun other member => ofFirsts other (List.mem_cons_of_mem _ member)).bind
        intro members
        exact filters_refl _ _

end

/-- Under a limit, an execution does what it does under a wider limit, or stops. -/
theorem filters_execute (graph : DataGraph State Node) (limited : limit ≠ .unlimited)
    (isWider : limit.Wider wider) (selections : List Selection) (root : Node) :
    Filters (StopsAt limit [] selections) (execute graph limit selections root)
      (execute graph wider selections root) := by
  apply filters_evalLevel limited isWider rfl (Nat.zero_le _)
  intro within
  exact filters_evalSelections limited isWider rfl within [] selections fun _ member => member

end Limited

end FieldQuery.Execution
