import FieldQuery.Proofs.Entries
import FieldQuery.Proofs.Execution.HookedGraphs
import FieldQuery.Proofs.Execution.Shape

/-!
# One query after another

On a root without a hook, two queries that have no name in common can be executed as one. This does
what executing them one after another does, the second in the state that the first one left, and
it makes the same calls. It ends with the first error, and otherwise with the members of both.
-/

set_option autoImplicit false

namespace FieldQuery.Execution

open Query DataGraph
open FieldQuery.Execution.Computation

variable {State Node : Type}

def Apart (front back : List Selection) : Prop :=
  ∀ first ∈ front, ∀ second ∈ back, first.name ≠ second.name

instance (front back : List Selection) : Decidable (Apart front back) :=
  inferInstanceAs (Decidable (∀ first ∈ front, ∀ second ∈ back, first.name ≠ second.name))

section

variable {graph : DataGraph State Node} {limit : DepthLimit} {path : Path} {depth : Nat}
  {node : Node}

theorem evalSelections_congr_seen {seen others : List String} {selections : List Selection}
    (alike : ∀ selection ∈ selections, selection.name ∈ seen ↔ selection.name ∈ others) :
    evalSelections graph limit path depth node seen selections =
      evalSelections graph limit path depth node others selections := by
  induction selections generalizing seen others with
  | nil => rw [evalSelections_nil, evalSelections_nil]
  | cons selection rest ih =>
      obtain ⟨alikeFirst, alikeRest⟩ := List.forall_mem_cons.mp alike
      by_cases known : selection.name ∈ seen
      · rw [evalSelections_of_seen known, evalSelections_of_seen (alikeFirst.mp known)]
        exact ih alikeRest
      · rw [evalSelections_of_new known, evalSelections_of_new (mt alikeFirst.mpr known)]
        have later : ∀ other ∈ rest,
            other.name ∈ selection.name :: seen ↔ other.name ∈ selection.name :: others := by
          intro other member
          rw [List.mem_cons, List.mem_cons, alikeRest other member]
        rw [ih later]

theorem evalSelections_append {front back : List Selection} (apart : Apart front back)
    (seen : List String) :
    evalSelections graph limit path depth node seen (front ++ back) = do
      let members ← evalSelections graph limit path depth node seen front
      let others ← evalSelections graph limit path depth node seen back
      return members.union others := by
  induction front generalizing seen with
  | nil =>
      rw [List.nil_append, evalSelections_nil, pure_bind]
      simp only [Dict.empty_union, bind_pure]
  | cons selection front ih =>
      obtain ⟨apartFirst, apartRest⟩ := List.forall_mem_cons.mp apart
      by_cases known : selection.name ∈ seen
      · rw [List.cons_append, evalSelections_of_seen known, evalSelections_of_seen known]
        exact ih apartRest seen
      · -- What is seen in the front is not in the back, so the back is the same behind it.
        have unseen : evalSelections graph limit path depth node (selection.name :: seen) back =
            evalSelections graph limit path depth node seen back := by
          apply evalSelections_congr_seen
          intro other member
          rw [List.mem_cons, or_iff_right (Ne.symm (apartFirst other member))]
        rw [List.cons_append, evalSelections_of_new known, evalSelections_of_new known,
          ih apartRest, unseen]
        simp only [bind_assoc, pure_bind, Dict.insert_union]

end

section

variable {graph : DataGraph State Node} {limit : DepthLimit} {root : Node}
  {front back : List Selection}

theorem execute_of_hookless (hookless : (graph.view root).hook = none)
    (selections : List Selection) :
    execute graph limit selections root = do
      let members ← evalSelections graph limit [] 1 root [] selections
      return .ofDict members := by
  rw [execute, evalLevel, enter, hookless, DepthLimit.exceededBy_one, if_neg (by decide), pure_bind]

theorem outcome_execute_append (hookless : (graph.view root).hook = none)
    (apart : Apart front back) (limit : DepthLimit) (before : State) :
    (∀ error between, (execute graph limit front root).outcome before = (.error error, between) →
      (execute graph limit (front ++ back) root).outcome before = (.error error, between)) ∧
    ∀ left between, (execute graph limit front root).outcome before = (.ok left, between) →
      (∀ error after, (execute graph limit back root).outcome between = (.error error, after) →
        (execute graph limit (front ++ back) root).outcome before = (.error error, after)) ∧
      ∀ right after, (execute graph limit back root).outcome between = (.ok right, after) →
        ∃ members others : Dict Value, left = .ofDict members ∧ right = .ofDict others ∧
          (execute graph limit (front ++ back) root).outcome before =
            (.ok (.ofDict (members.union others)), after) := by
  rw [execute_of_hookless hookless, execute_of_hookless hookless, execute_of_hookless hookless,
    evalSelections_append apart, outcome_bind, outcome_bind, outcome_bind]
  cases outcome (evalSelections graph limit [] 1 root [] front) before with
  | mk result between =>
      cases result with
      | error fault =>
          constructor
          · intro error there failed
            cases failed
            rfl
          · intro left there succeeded
            cases succeeded
      | ok members =>
          constructor
          · intro error there failed
            cases failed
          · intro left there succeeded
            cases succeeded
            simp only [continued, outcome_bind]
            cases outcome (evalSelections graph limit [] 1 root [] back) between with
            | mk result last =>
                cases result with
                | error fault =>
                    constructor
                    · intro error after failed
                      cases failed
                      rfl
                    · intro right after succeeded
                      cases succeeded
                | ok others =>
                    constructor
                    · intro error after failed
                      cases failed
                    · intro right after succeeded
                      cases succeeded
                      exact ⟨members, others, rfl, rfl, rfl⟩

def behindCalls (earlier : List (Event Node)) (now : Observed State Node) : Observed State Node :=
  (now.1, earlier ++ now.2)

theorem graphCarries_behindCalls (graph : DataGraph State Node) (earlier : List (Event Node)) :
    GraphCarries (behindCalls earlier) graph.observing graph.observing := by
  have carries {α : Type} (event : α → Event Node) (step : StateM State α) :
      StepCarries (behindCalls earlier) (observed event step) (observed event step) := by
    intro now
    have joined := List.append_assoc earlier now.2 [event (step.run now.1).1]
    exact congrArg (fun events => ((step.run now.1).1, (step.run now.1).2, events)) joined
  constructor
  · intro visit names
    rw [hook_observing]
    cases (graph.view visit.node).hook with
    | none => exact stepCarries_pure (Except.ok ())
    | some hook =>
        exact carries (fun result => ⟨visit, .hook names (refusal? result)⟩) (hook names).run
  · intro visit name
    exact fieldCarries_observed (carries _) (fun arguments => carries _) _

/-- An observed execution adds its calls to those made before, and does not look at them. -/
theorem outcome_observing (graph : DataGraph State Node) (limit : DepthLimit)
    (selections : List Selection) (root : Node) (before : State) (earlier : List (Event Node)) :
    (execute graph.observing limit selections (Visit.root root)).outcome (before, earlier) =
      ((watch graph limit selections root before).1,
        (watch graph limit selections root before).2.1,
        earlier ++ (watch graph limit selections root before).2.2) := by
  have carried := carries_execute (graphCarries_behindCalls graph earlier) limit selections
    (Visit.root root) (before, [])
  rw [behindCalls, List.append_nil] at carried
  exact carried

theorem mem_keys_iff_of_execute {members : Dict Value} {selections : List Selection}
    {before after : State}
    (succeeded : (execute graph limit selections root).outcome before =
      (.ok (.ofDict members), after)) (name : String) :
    name ∈ members.keys ↔ name ∈ selections.map Selection.name := by
  have shaped := shaped_of_execute succeeded
  generalize given : Value.ofDict members = value at shaped
  cases shaped with
  | @object _ _ others _ _ _ _ _ _ keys _ =>
      obtain rfl : members = others := Dict.eq_of_entries_eq (Value.object.inj given)
      exact keys name

theorem disjoint_of_execute {members others : Dict Value} {before between after : State}
    (apart : Apart front back)
    (ran : (execute graph limit front root).outcome before = (.ok (.ofDict members), between))
    (ranLater : (execute graph limit back root).outcome between = (.ok (.ofDict others), after))
    (name : String) : members.get? name = none ∨ others.get? name = none := by
  cases held : members.get? name with
  | none => exact .inl rfl
  | some value =>
      right
      cases heldLater : others.get? name with
      | none => rfl
      | some other =>
          have inFront : name ∈ members.keys :=
            Dict.isSome_get?_iff.mp (Option.isSome_of_eq_some held)
          have inBack : name ∈ others.keys :=
            Dict.isSome_get?_iff.mp (Option.isSome_of_eq_some heldLater)
          rw [mem_keys_iff_of_execute ran] at inFront
          rw [mem_keys_iff_of_execute ranLater] at inBack
          obtain ⟨first, memberFirst, rfl⟩ := List.mem_map.mp inFront
          obtain ⟨second, memberSecond, same⟩ := List.mem_map.mp inBack
          exact absurd same.symm (apart first memberFirst second memberSecond)

theorem calls_execute_append (hookless : (graph.view root).hook = none) (apart : Apart front back)
    (limit : DepthLimit) (before : State) :
    let first := (execute graph limit front root).outcome before
    let calls (selections : List Selection) (state : State) : List (Event Node) :=
      (watch graph limit selections root state).2.2
    (∀ error, first.1 = .error error → calls (front ++ back) before = calls front before) ∧
    ∀ left, first.1 = .ok left →
      calls (front ++ back) before = calls front before ++ calls back first.2 := by
  intro first calls
  have unhooked : (graph.observing.view (Visit.root root)).hook = none := by
    rw [hook_observing, Visit.root, hookless, Option.map_none]
  obtain ⟨failing, succeeding⟩ :=
    outcome_execute_append unhooked apart limit (before, [])
  obtain ⟨made, _, watched⟩ := watch_eq graph limit front root before
  have madeCalls : calls front before = made := congrArg (fun record => record.2.2) watched
  rw [watch] at watched
  rw [madeCalls]
  constructor
  · intro error failed
    have ended := failing error (first.2, made) (by rw [watched, failed])
    exact congrArg (fun record => record.2.2) ended
  · intro left succeeded
    obtain ⟨laterFails, laterSucceeds⟩ :=
      succeeding left (first.2, made) (by rw [watched, succeeded])
    have observed := outcome_observing graph limit back root first.2 made
    cases result : (watch graph limit back root first.2).1 with
    | error error =>
        rw [result] at observed
        have ended := laterFails error _ observed
        exact congrArg (fun record => record.2.2) ended
    | ok right =>
        rw [result] at observed
        obtain ⟨_, _, _, _, ended⟩ := laterSucceeds right _ observed
        exact congrArg (fun record => record.2.2) ended

/-- On a root without a hook, executing two queries that have no name in common as one is executing
one after the other. If the first fails, the whole fails with its error, in the state that it left,
and without a call for the second. If the first succeeds, the calls for the second follow in the
state that it left, and the whole ends as the second does, with the members of both objects. -/
theorem execute_append (hookless : (graph.view root).hook = none) (apart : Apart front back)
    (limit : DepthLimit) (before : State) :
    let first := (execute graph limit front root).outcome before
    let second := (execute graph limit back root).outcome first.2
    let whole := (execute graph limit (front ++ back) root).outcome before
    let calls (selections : List Selection) (state : State) : List (Event Node) :=
      (watch graph limit selections root state).2.2
    (∀ error, first.1 = .error error →
      whole = (.error error, first.2) ∧ calls (front ++ back) before = calls front before) ∧
    ∀ left, first.1 = .ok left →
      calls (front ++ back) before = calls front before ++ calls back first.2 ∧
      (∀ error, second.1 = .error error → whole = (.error error, second.2)) ∧
      ∀ right, second.1 = .ok right →
        ∃ members others joined : Dict Value, left = .ofDict members ∧ right = .ofDict others ∧
          whole = (.ok (.ofDict joined), second.2) ∧
          ∀ name value, joined.get? name = some value ↔
            members.get? name = some value ∨ others.get? name = some value := by
  intro first second whole calls
  obtain ⟨failing, succeeding⟩ := outcome_execute_append hookless apart limit before
  obtain ⟨callsFailing, callsSucceeding⟩ := calls_execute_append hookless apart limit before
  constructor
  · intro error failed
    exact ⟨failing error first.2 (Prod.ext failed rfl), callsFailing error failed⟩
  · intro left succeeded
    have ran : (execute graph limit front root).outcome before = (.ok left, first.2) :=
      Prod.ext succeeded rfl
    obtain ⟨laterFails, laterSucceeds⟩ := succeeding left first.2 ran
    refine ⟨callsSucceeding left succeeded, ?_, ?_⟩
    · intro error failed
      exact laterFails error second.2 (Prod.ext failed rfl)
    · intro right completed
      have ranLater : (execute graph limit back root).outcome first.2 = (.ok right, second.2) :=
        Prod.ext completed rfl
      obtain ⟨members, others, rfl, rfl, ended⟩ := laterSucceeds right second.2 ranLater
      refine ⟨members, others, members.union others, rfl, rfl, ended, ?_⟩
      intro name value
      rw [Dict.get?_union]
      rcases disjoint_of_execute apart ran ranLater name with absent | absent <;> simp [absent]

end

/-- An item, which has no hook, with two nodes, which have one. -/
def boxVertex : Sample.Vertex :=
  .item (.mk "box" .null
    [.mk 1 "first" .null none none [] [], .mk 2 "second" .null none none [] []])

def namesQuery : List Selection := [.leaf "label", .branch "nodes" .empty [.leaf "name"]]

def numbersQuery : List Selection := [.branch "flip" .empty [.leaf "id"], .leaf "dup"]

def missingQuery : List Selection := [.branch "nodes" .empty [.leaf "name", .leaf "missing"]]

theorem execute_append_boxVertex :
    (Sample.tree.view boxVertex).hook = none ∧
      Apart namesQuery numbersQuery ∧ Apart missingQuery numbersQuery ∧
      (∃ joined after,
        (execute Sample.tree ⟨2⟩ (namesQuery ++ numbersQuery) boxVertex).outcome .empty =
            (.ok (.ofDict joined), after) ∧
          joined.get? "label" = some (.string "box") ∧ joined.get? "dup" = some (.string "second") ∧
          (watch Sample.tree ⟨2⟩ (namesQuery ++ numbersQuery) boxVertex .empty).2.2.length = 6) ∧
      (execute Sample.tree ⟨2⟩ (missingQuery ++ numbersQuery) boxVertex).outcome .empty =
        (.error (.fieldNotFound ["nodes", "missing"]),
          ((execute Sample.tree ⟨2⟩ missingQuery boxVertex).outcome .empty).2) ∧
      (watch Sample.tree ⟨2⟩ (missingQuery ++ numbersQuery) boxVertex .empty).2.2 =
        (watch Sample.tree ⟨2⟩ missingQuery boxVertex .empty).2.2 := by
  have hookless : (Sample.tree.view boxVertex).hook = none := rfl
  have namesApart : Apart namesQuery numbersQuery := by decide
  have missingApart : Apart missingQuery numbersQuery := by decide
  obtain ⟨_, succeeding⟩ := execute_append hookless namesApart ⟨2⟩ .empty
  obtain ⟨failing, _⟩ := execute_append hookless missingApart ⟨2⟩ .empty
  refine ⟨hookless, namesApart, missingApart, ?_, failing _ rfl⟩
  obtain ⟨calls, _, both⟩ := succeeding
    (.object [("label", .string "box"),
      ("nodes", .array
        [.object [("name", .string "first")], .object [("name", .string "second")]])])
    rfl
  obtain ⟨members, others, joined, ofMembers, ofOthers, ended, holds⟩ := both
    (.object [("dup", .string "second"),
      ("flip", .array [.object [("id", .integer 1)], .object [("id", .integer 2)]])])
    rfl
  refine ⟨joined, _, ended, (holds _ _).mpr (.inl ?_), (holds _ _).mpr (.inr ?_), ?_⟩
  · rw [Dict.get?, ← Value.object.inj ofMembers]
    rfl
  · rw [Dict.get?, ← Value.object.inj ofOthers]
    rfl
  · exact congrArg List.length calls

end FieldQuery.Execution
