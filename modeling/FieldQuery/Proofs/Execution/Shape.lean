import FieldQuery.Proofs.Entries
import FieldQuery.Proofs.Execution.Equations
import FieldQuery.Proofs.Execution.Outcome
import FieldQuery.Proofs.Execution.Repetition
import FieldQuery.Sample.Tree

/-!
# The shape of results

What a query asks of a node and what the node gives, as relations between the state before, the
result and the state behind it. They follow the selections that count and the nodes that
collections supply, and know neither depths nor paths nor how members are collected. Every
successful execution stands in them.
-/

set_option autoImplicit false

namespace FieldQuery.Execution

open Query DataGraph

variable {State Node : Type}

/-- A field gives a value: what its resolver overrides with, or else what is stored. -/
inductive Gives {α : Type} (stored : α) :
    Option (StateM State (Resolution α)) → State → α → State → Prop where
  | plain {state : State} : Gives stored none state stored state
  | override {resolver : StateM State (Resolution α)} {before after : State} {value : α}
      (resolved : resolver.run before = (.override value, after)) :
      Gives stored (some resolver) before value after
  | useStored {resolver : StateM State (Resolution α)} {before after : State}
      (resolved : resolver.run before = (.useStored, after)) :
      Gives stored (some resolver) before stored after

/-- A node is entered: its hook, if there is one, takes the names asked for. -/
inductive Enters (view : NodeView State Node) (names : List String) : State → State → Prop where
  | free {state : State} (without : view.hook = none) : Enters view names state state
  | passed {hook : Hook State} {before after : State} (declared : view.hook = some hook)
      (accepted : ((hook names).run).run before = (.ok (), after)) :
      Enters view names before after

mutual

/-- A selection gets a value from a node: a leaf what the scalar gives, a branch an array with one
element for each node that the collection gives. -/
inductive Answers (graph : DataGraph State Node) :
    Node → Selection → State → Value → State → Prop where
  | leaf {node : Node} {name : String} {stored value : Value}
      {resolver : Option (StateM State (Resolution Value))} {before after : State}
      (declared : (graph.view node).field? name = some (.scalar stored resolver))
      (given : Gives stored resolver before value after) :
      Answers graph node (.leaf name) before value after
  | branch {node : Node} {name : String} {arguments : Arguments} {selections : List Selection}
      {stored children : List Node}
      {resolver : Option (Arguments → StateM State (Resolution (List Node)))}
      {items : List Value} {before between after : State}
      (declared : (graph.view node).field? name = some (.collection stored resolver))
      (given : Gives stored (resolver.map fun resolve => resolve arguments)
        before children between)
      (elements : Elements graph selections children between items after) :
      Answers graph node (.branch name arguments selections) before (.array items) after

inductive Elements (graph : DataGraph State Node) :
    List Selection → List Node → State → List Value → State → Prop where
  | nil {selections : List Selection} {state : State} :
      Elements graph selections [] state [] state
  | cons {selections : List Selection} {child : Node} {children : List Node} {item : Value}
      {items : List Value} {before between after : State}
      (first : Shaped graph child selections before item between)
      (rest : Elements graph selections children between items after) :
      Elements graph selections (child :: children) before (item :: items) after

inductive AllAnswer (graph : DataGraph State Node) :
    Node → List Selection → State → List (String × Value) → State → Prop where
  | nil {node : Node} {state : State} : AllAnswer graph node [] state [] state
  | cons {node : Node} {selection : Selection} {selections : List Selection} {value : Value}
      {answers : List (String × Value)} {before between after : State}
      (first : Answers graph node selection before value between)
      (rest : AllAnswer graph node selections between answers after) :
      AllAnswer graph node (selection :: selections) before
        ((selection.name, value) :: answers) after

/-- A node that is entered for a selection set gives an object. Its keys are the names in the set,
and the first selection of each name decides what stands under it. -/
inductive Shaped (graph : DataGraph State Node) :
    Node → List Selection → State → Value → State → Prop where
  | object {node : Node} {selections : List Selection} {members : Dict Value}
      {answers : List (String × Value)} {before between after : State}
      (entered : Enters (graph.view node) (requested selections) before between)
      (answered : AllAnswer graph node (firsts selections) between answers after)
      (keys : ∀ name, name ∈ members.keys ↔ name ∈ selections.map Selection.name)
      (values : ∀ name, members.get? name = answers.lookup name) :
      Shaped graph node selections before (.ofDict members) after

end

theorem gives_of_supply {α : Type} {stored value : α}
    {resolver : Option (StateM State (Resolution α))} {before after : State}
    (supplied : (supply stored resolver).run before = (value, after)) :
    Gives stored resolver before value after := by
  cases resolver with
  | none =>
      cases supplied
      exact .plain
  | some resolver =>
      have supplied : ((resolver.run before).1.getD stored, (resolver.run before).2) =
        (value, after) := supplied
      cases resolved : resolver.run before with
      | mk resolution between =>
          rw [resolved] at supplied
          cases resolution with
          | override replacement =>
              cases supplied
              exact .override resolved
          | useStored =>
              cases supplied
              exact .useStored resolved

theorem enters_of_enter {graph : DataGraph State Node} {limit : DepthLimit} {path : Path}
    {depth : Nat} {names : List String} {node : Node} {before after : State}
    (entered : (enter graph limit path depth names node).outcome before = (.ok (), after)) :
    Enters (graph.view node) names before after := by
  unfold enter at entered
  split at entered
  · rw [Computation.outcome_throw] at entered
    cases entered
  split at entered
  · next without =>
      rw [Computation.outcome_pure] at entered
      cases entered
      exact .free without
  · next hook declared =>
      rw [Computation.outcome_adapt] at entered
      cases ran : (hook names).run.run before with
      | mk result between =>
          rw [ran] at entered
          cases result with
          | error refusal => cases entered
          | ok done =>
              cases entered
              exact .passed declared ran

theorem elements_of_mapM {graph : DataGraph State Node} {selections : List Selection}
    {visit : Node → Computation State Value}
    (shaped : ∀ child before value after,
      (visit child).outcome before = (.ok value, after) →
        Shaped graph child selections before value after)
    {children : List Node} {items : List Value} {before after : State}
    (visited : Computation.outcome (children.mapM visit) before = (.ok items, after)) :
    Elements graph selections children before items after := by
  induction children generalizing items before with
  | nil =>
      rw [List.mapM_nil, Computation.outcome_pure] at visited
      cases visited
      exact .nil
  | cons child children ih =>
      rw [List.mapM_cons] at visited
      obtain ⟨item, between, first, visited⟩ :=
        Computation.outcome_bind_eq_ok_iff.mp visited
      obtain ⟨rest, last, remaining, returned⟩ :=
        Computation.outcome_bind_eq_ok_iff.mp visited
      rw [Computation.outcome_pure] at returned
      cases returned
      exact .cons (shaped child before item between first) (ih remaining)

theorem names_of_allAnswer {graph : DataGraph State Node} {node : Node}
    {selections : List Selection} {answers : List (String × Value)} {before after : State}
    (answered : AllAnswer graph node selections before answers after) :
    answers.map Prod.fst = selections.map Selection.name := by
  induction selections generalizing answers before with
  | nil =>
      cases answered
      rfl
  | cons selection selections ih =>
      cases answered with
      | cons first rest => rw [List.map_cons, List.map_cons, ih rest]

theorem mem_keys_iff_of_answers {graph : DataGraph State Node} {node : Node}
    {selections : List Selection} {answers : List (String × Value)} {members : Dict Value}
    {before after : State}
    (answered : AllAnswer graph node (firsts selections) before answers after)
    (values : ∀ name, members.get? name = answers.lookup name) (name : String) :
    name ∈ members.keys ↔ name ∈ selections.map Selection.name := by
  rw [← Dict.isSome_get?_iff, values, Entries.isSome_lookup_iff,
    names_of_allAnswer answered, map_name_firsts, requested, List.mem_eraseDups]

theorem shaped_of_evalLevel {graph : DataGraph State Node} {limit : DepthLimit} {path : Path}
    {depth : Nat} {selections : List Selection} {node : Node} {value : Value}
    {before after : State}
    (answered : ∀ members between,
      (evalSelections graph limit path depth node [] selections).outcome between =
          (.ok members, after) →
        ∃ answers, AllAnswer graph node (firsts selections) between answers after ∧
          ∀ name, members.get? name = answers.lookup name)
    (succeeded : (evalLevel graph limit path depth selections node).outcome before =
      (.ok value, after)) :
    Shaped graph node selections before value after := by
  obtain ⟨_, between, entered, succeeded⟩ := Computation.outcome_bind_eq_ok_iff.mp succeeded
  obtain ⟨members, last, evaluated, returned⟩ :=
    Computation.outcome_bind_eq_ok_iff.mp succeeded
  rw [Computation.outcome_pure] at returned
  cases returned
  obtain ⟨answers, answered, values⟩ := answered members between evaluated
  exact .object (enters_of_enter entered) answered (mem_keys_iff_of_answers answered values) values

mutual

theorem answers_of_evalSelection {graph : DataGraph State Node} {limit : DepthLimit} {path : Path}
    {depth : Nat} {node : Node} (selection : Selection) {value : Value} {before after : State}
    (succeeded : (evalSelection graph limit path depth node selection).outcome before =
      (.ok value, after)) :
    Answers graph node selection before value after := by
  match selection with
  | .leaf name =>
      rw [evalSelection_leaf] at succeeded
      split at succeeded
      · next stored resolver declared =>
          rw [Computation.outcome_liftM] at succeeded
          cases succeeded
          exact .leaf declared (gives_of_supply rfl)
      · rw [Computation.outcome_throw] at succeeded
        cases succeeded
  | .branch name arguments selections =>
      rw [evalSelection_branch] at succeeded
      split at succeeded
      · next stored resolver declared =>
          obtain ⟨children, between, supplied, succeeded⟩ :=
            Computation.outcome_bind_eq_ok_iff.mp succeeded
          obtain ⟨items, last, visited, returned⟩ :=
            Computation.outcome_bind_eq_ok_iff.mp succeeded
          rw [Computation.outcome_liftM] at supplied
          rw [Computation.outcome_pure] at returned
          cases supplied
          cases returned
          refine .branch declared (gives_of_supply rfl) (elements_of_mapM ?_ visited)
          intro child entry item exit shaped
          apply shaped_of_evalLevel _ shaped
          intro members begun evaluated
          exact allAnswer_of_evalSelections [] selections evaluated
      · rw [Computation.outcome_throw] at succeeded
        cases succeeded

theorem allAnswer_of_evalSelections {graph : DataGraph State Node} {limit : DepthLimit}
    {path : Path} {depth : Nat} {node : Node} (seen : List String) (selections : List Selection)
    {members : Dict Value} {before after : State}
    (succeeded : (evalSelections graph limit path depth node seen selections).outcome before =
      (.ok members, after)) :
    ∃ answers, AllAnswer graph node (firstsBeyond seen selections) before answers after ∧
      ∀ name, members.get? name = answers.lookup name := by
  match selections with
  | [] =>
      rw [evalSelections_nil, Computation.outcome_pure] at succeeded
      cases succeeded
      exact ⟨[], .nil, fun _ => rfl⟩
  | selection :: rest =>
      by_cases known : selection.name ∈ seen
      · rw [evalSelections_of_seen known] at succeeded
        rw [firstsBeyond_of_seen known]
        exact allAnswer_of_evalSelections seen rest succeeded
      · rw [evalSelections_of_new known] at succeeded
        obtain ⟨value, between, evaluated, succeeded⟩ :=
          Computation.outcome_bind_eq_ok_iff.mp succeeded
        obtain ⟨others, last, remaining, returned⟩ :=
          Computation.outcome_bind_eq_ok_iff.mp succeeded
        rw [Computation.outcome_pure] at returned
        cases returned
        obtain ⟨answers, answered, values⟩ :=
          allAnswer_of_evalSelections (selection.name :: seen) rest remaining
        refine ⟨(selection.name, value) :: answers, ?_, ?_⟩
        · rw [firstsBeyond_of_new known]
          exact .cons (answers_of_evalSelection selection evaluated) answered
        · -- The value is inserted last and the answer stands first, so both win.
          intro name
          rw [Dict.get?_insert, Entries.lookup_cons_pair, values]

end

/-- A successful execution gives a value of the shape of the query. -/
theorem shaped_of_execute {graph : DataGraph State Node} {limit : DepthLimit}
    {selections : List Selection} {root : Node} {value : Value} {before after : State}
    (succeeded : (execute graph limit selections root).outcome before = (.ok value, after)) :
    Shaped graph root selections before value after := by
  apply shaped_of_evalLevel _ succeeded
  intro members between evaluated
  exact allAnswer_of_evalSelections [] selections evaluated

/-- A set with a leaf under the name of a branch, a repeated leaf and an empty block. -/
def repeatedNames : List Selection :=
  [.branch "children" .empty [.leaf "name", .leaf "any"], .leaf "children", .leaf "void",
    .branch "pick" (Dict.empty.insert "make" (.integer 2)) [], .leaf "void"]

def parentVertex : Sample.Vertex :=
  .node (.mk 1 "parent" .null none none [.mk 2 "child" (.boolean true) none none [] []] [])

def repeatedNamesValue : Value :=
  .object
    [("children", .array [.object [("any", .boolean true), ("name", .string "child")]]),
      ("pick", .array [.object [], .object []]), ("void", .null)]

theorem shaped_repeatedNamesValue :
    ∃ after,
      (execute Sample.tree .unlimited repeatedNames parentVertex).outcome .empty =
          (.ok repeatedNamesValue, after) ∧
        Shaped Sample.tree parentVertex repeatedNames .empty repeatedNamesValue after := by
  have succeeded :
      (execute Sample.tree .unlimited repeatedNames parentVertex).outcome .empty =
        (.ok repeatedNamesValue,
          ((execute Sample.tree .unlimited repeatedNames parentVertex).outcome .empty).2) := rfl
  exact ⟨_, succeeded, shaped_of_execute succeeded⟩

end FieldQuery.Execution
