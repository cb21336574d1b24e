import FieldQuery.DataGraph.Context
import FieldQuery.Proofs.DataGraph.Projection
import FieldQuery.Proofs.Execution.Reordering

/-!
# Executions on plain graphs

Where nothing but stored data is met, an execution neither reads nor changes the state. Whether it
succeeds depends on the stages that it can reach, each a node with what is asked of it at some
depth, and what it gives is the projection of the stored data on the query.
-/

set_option autoImplicit false

namespace FieldQuery.Execution

open Query DataGraph
open FieldQuery.Execution.Computation

variable {State Node α β : Type}

namespace Computation

/-- A computation does not touch the state. It gives a value if a condition holds, and otherwise it
fails. -/
inductive Yields (computation : Computation State α) (condition : Prop) (value : α) : Prop where
  | ok (holds : condition) (returned : ∀ state, outcome computation state = (.ok value, state))
  | error (fails : ¬condition) (error : ExecutionError)
      (thrown : ∀ state, outcome computation state = (.error error, state))

theorem yields_pure (value : α) : Yields (pure value : Computation State α) True value :=
  .ok trivial fun state => outcome_pure value state

theorem yields_throw (error : ExecutionError) (value : α) :
    Yields (throw error : Computation State α) False value :=
  .error not_false error fun state => outcome_throw error state

theorem Yields.congr {computation : Computation State α} {condition other : Prop} {value : α}
    (yields : Yields computation condition value) (same : condition ↔ other) :
    Yields computation other value := propext same ▸ yields

theorem Yields.bind {first : Computation State α} {next : α → Computation State β}
    {condition later : Prop} {value : α} {result : β} (yields : Yields first condition value)
    (yieldsNext : Yields (next value) later result) :
    Yields (first >>= next) (condition ∧ later) result := by
  cases yields with
  | error fails error thrown =>
      refine .error (mt And.left fails) error fun state => ?_
      rw [outcome_bind, thrown, continued]
  | ok holds returned =>
      have follows (state : State) :
          outcome (first >>= next) state = outcome (next value) state := by
        rw [outcome_bind, returned, continued]
      cases yieldsNext with
      | ok holdsNext returnedNext =>
          exact .ok ⟨holds, holdsNext⟩ fun state => (follows state).trans (returnedNext state)
      | error failsNext error thrown =>
          exact .error (mt And.right failsNext) error fun state =>
            (follows state).trans (thrown state)

theorem Yields.map {first : Computation State α} {condition : Prop} {value : α}
    (yields : Yields first condition value) (make : α → β) :
    Yields (do return make (← first)) condition (make value) :=
  (yields.bind (yields_pure (make value))).congr (and_iff_left trivial)

theorem Yields.mapM {visit : α → Computation State β} {condition : α → Prop} {value : α → β}
    {elements : List α}
    (each : ∀ element ∈ elements, Yields (visit element) (condition element) (value element)) :
    Yields (elements.mapM visit) (∀ element ∈ elements, condition element)
      (elements.map value) := by
  induction elements with
  | nil =>
      rw [List.mapM_nil]
      exact (yields_pure []).congr (by simp)
  | cons element elements ih =>
      obtain ⟨first, rest⟩ := List.forall_mem_cons.mp each
      rw [List.mapM_cons, List.map_cons]
      apply (first.bind ((ih rest).map (value element :: ·))).congr
      exact List.forall_mem_cons.symm

end Computation

/-- A node with the selections that are made on it and the depth at which it is reached. -/
structure Stage (Node : Type) where
  node : Node
  selections : List Selection
  depth : Nat

/-- Within the limit, a branch that counts leads to every node that its collection stores. -/
inductive Leads (graph : DataGraph State Node) (limit : DepthLimit) :
    Stage Node → Stage Node → Prop where
  | into {node child : Node} {selections nested : List Selection} {depth : Nat} {name : String}
      {arguments : Arguments} {stored : List Node}
      {resolver : Option (Arguments → StateM State (Resolution (List Node)))}
      (within : limit.exceededBy depth = false)
      (first : .branch name arguments nested ∈ firsts selections)
      (declared : (graph.view node).field? name = some (.collection stored resolver))
      (member : child ∈ stored) :
      Leads graph limit ⟨node, selections, depth⟩ ⟨child, nested, depth + 1⟩

/-- A stage is within the limit, and the selections that count ask for fields of their kind. -/
structure Served (graph : DataGraph State Node) (limit : DepthLimit) (stage : Stage Node) :
    Prop where
  within : limit.exceededBy stage.depth = false
  leaves {name : String} (first : .leaf name ∈ firsts stage.selections) :
    ∃ stored resolver, (graph.view stage.node).field? name = some (.scalar stored resolver)
  branches {name : String} {arguments : Arguments} {nested : List Selection}
    (first : .branch name arguments nested ∈ firsts stage.selections) :
    ∃ stored resolver, (graph.view stage.node).field? name = some (.collection stored resolver)

def AllServed (graph : DataGraph State Node) (limit : DepthLimit) (stage : Stage Node) : Prop :=
  ∀ other, Relation.ReflTransGen (Leads graph limit) stage other → Served graph limit other

section

variable {graph : DataGraph State Node} {limit : DepthLimit} {depth : Nat} {node : Node}

inductive Answerable (graph : DataGraph State Node) (limit : DepthLimit) (depth : Nat)
    (node : Node) : Selection → Prop where
  | leaf {name : String} {stored : Value} {resolver : Option (StateM State (Resolution Value))}
      (declared : (graph.view node).field? name = some (.scalar stored resolver)) :
      Answerable graph limit depth node (.leaf name)
  | branch {name : String} {arguments : Arguments} {nested : List Selection} {stored : List Node}
      {resolver : Option (Arguments → StateM State (Resolution (List Node)))}
      (declared : (graph.view node).field? name = some (.collection stored resolver))
      (behind : ∀ child ∈ stored, AllServed graph limit ⟨child, nested, depth + 1⟩) :
      Answerable graph limit depth node (.branch name arguments nested)

theorem answerable_leaf_iff {name : String} :
    Answerable graph limit depth node (.leaf name) ↔
      ∃ stored resolver, (graph.view node).field? name = some (.scalar stored resolver) := by
  constructor
  · rintro ⟨declared⟩
    exact ⟨_, _, declared⟩
  · rintro ⟨stored, resolver, declared⟩
    exact .leaf declared

theorem answerable_branch_iff {name : String} {arguments : Arguments} {nested : List Selection}
    {stored : List Node} {resolver : Option (Arguments → StateM State (Resolution (List Node)))}
    (declared : (graph.view node).field? name = some (.collection stored resolver)) :
    Answerable graph limit depth node (.branch name arguments nested) ↔
      ∀ child ∈ stored, AllServed graph limit ⟨child, nested, depth + 1⟩ := by
  constructor
  · intro answerable
    cases answerable with
    | branch found behind =>
        cases declared.symm.trans found
        exact behind
  · exact .branch declared

theorem allServed_iff {selections : List Selection} :
    AllServed graph limit ⟨node, selections, depth⟩ ↔
      limit.exceededBy depth = false ∧
        ∀ selection ∈ firsts selections, Answerable graph limit depth node selection := by
  constructor
  · intro served
    obtain ⟨within, leaves, branches⟩ := served _ .refl
    refine ⟨within, fun selection first => ?_⟩
    cases selection with
    | leaf name => exact answerable_leaf_iff.mpr (leaves first)
    | branch name arguments nested =>
        obtain ⟨stored, resolver, declared⟩ := branches first
        refine .branch declared fun child member other reached => ?_
        exact served other (.head (.into within first declared member) reached)
  · rintro ⟨within, answerable⟩ other reached
    rcases Relation.ReflTransGen.cases_head reached with rfl | ⟨between, step, onwards⟩
    · refine ⟨within, fun first => answerable_leaf_iff.mp (answerable _ first), fun first => ?_⟩
      cases answerable _ first with
      | branch declared behind => exact ⟨_, _, declared⟩
    · cases step with
      | into within first declared member =>
          exact (answerable_branch_iff declared).mp (answerable _ first) _ member other onwards

theorem projectedMembers_firstsBeyond (selections : List Selection) (seen : List String)
    (name : String) :
    (projectedMembers graph node (firstsBeyond seen selections)).get? name =
      if name ∈ seen then none else (projectedMembers graph node selections).get? name := by
  induction selections generalizing seen with
  | nil =>
      rw [firstsBeyond, projectedMembers, Dict.get?_empty, ite_self]
  | cons selection rest ih =>
      by_cases known : selection.name ∈ seen
      · rw [firstsBeyond_of_seen known, ih, get?_projectedMembers_cons]
        split
        · rfl
        · next absent =>
            have different : name ≠ selection.name := fun same => absent (same ▸ known)
            rw [if_neg different]
      · rw [firstsBeyond_of_new known, get?_projectedMembers_cons, get?_projectedMembers_cons, ih]
        by_cases same : name = selection.name
        · rw [if_pos same, if_pos same, if_neg (same ▸ known)]
        · rw [if_neg same, if_neg same]
          simp only [List.mem_cons, same, false_or]

theorem projectedMembers_firsts (selections : List Selection) :
    projectedMembers graph node (firsts selections) = projectedMembers graph node selections := by
  apply Dict.ext_get?
  intro name
  rw [firsts, projectedMembers_firstsBeyond, if_neg (by simp)]

theorem yields_evalLevel (plain : PlainFrom graph node) {path : Path}
    {selections : List Selection}
    (inside : Yields (evalSelections graph limit path depth node [] selections)
      (∀ selection ∈ firsts selections, Answerable graph limit depth node selection)
      (projectedMembers graph node (firsts selections))) :
    Yields (evalLevel graph limit path depth selections node)
      (AllServed graph limit ⟨node, selections, depth⟩) (projection graph node selections) := by
  rw [evalLevel, enter, plain.here.hookless, projection, ← projectedMembers_firsts]
  apply Yields.congr _ allServed_iff.symm
  cases limit.exceededBy depth with
  | true => exact ((yields_throw _ ()).bind (inside.map Value.ofDict)).congr (by simp)
  | false => exact ((yields_pure ()).bind (inside.map Value.ofDict)).congr (by simp)

end

mutual

theorem yields_evalSelection {graph : DataGraph State Node} {limit : DepthLimit} {path : Path}
    {depth : Nat} {node : Node} (plain : PlainFrom graph node) (selection : Selection) :
    Yields (evalSelection graph limit path depth node selection)
      (Answerable graph limit depth node selection) (projected graph node selection) := by
  match selection with
  | .leaf name =>
      rw [evalSelection_leaf]
      split
      · next stored resolver declared =>
          cases plain.here.fields declared
          rw [projected_leaf declared]
          exact (yields_pure stored).congr (iff_of_true trivial (.leaf declared))
      · next undeclared =>
          apply (yields_throw _ _).congr
          refine iff_of_false not_false fun answerable => ?_
          cases answerable with
          | leaf declared => exact undeclared _ _ declared
  | .branch name arguments selections =>
      rw [evalSelection_branch]
      split
      · next stored resolver declared =>
          cases plain.here.fields declared
          rw [projected_branch declared]
          have items : Yields
              (stored.mapM (evalLevel graph limit (path ++ [name]) (depth + 1) selections))
              (∀ child ∈ stored, AllServed graph limit ⟨child, selections, depth + 1⟩)
              (stored.map fun child => projection graph child selections) := by
            -- A graph that is plain behind a node is plain behind the nodes stored there.
            refine Yields.mapM fun child member => ?_
            have plainChild : PlainFrom graph child := plain.child (.collection declared member)
            exact yields_evalLevel plainChild (yields_evalSelections plainChild [] selections)
          apply ((yields_pure stored).bind (items.map Value.array)).congr
          rw [true_and, answerable_branch_iff declared]
      · next undeclared =>
          apply (yields_throw _ _).congr
          refine iff_of_false not_false fun answerable => ?_
          cases answerable with
          | branch declared behind => exact undeclared _ _ declared

theorem yields_evalSelections {graph : DataGraph State Node} {limit : DepthLimit} {path : Path}
    {depth : Nat} {node : Node} (plain : PlainFrom graph node) (seen : List String)
    (selections : List Selection) :
    Yields (evalSelections graph limit path depth node seen selections)
      (∀ selection ∈ firstsBeyond seen selections, Answerable graph limit depth node selection)
      (projectedMembers graph node (firstsBeyond seen selections)) := by
  match selections with
  | [] =>
      rw [evalSelections_nil]
      exact (yields_pure Dict.empty).congr (by simp [firstsBeyond])
  | selection :: rest =>
      by_cases known : selection.name ∈ seen
      · rw [evalSelections_of_seen known, firstsBeyond_of_seen known]
        exact yields_evalSelections plain seen rest
      · rw [evalSelections_of_new known, firstsBeyond_of_new known, projectedMembers]
        refine ((yields_evalSelection plain selection).bind
          ((yields_evalSelections plain _ rest).map fun members => members.insert _ _)).congr ?_
        exact List.forall_mem_cons.symm

end

theorem yields_execute {graph : DataGraph State Node} {root : Node} (plain : PlainFrom graph root)
    (limit : DepthLimit) (query : List Selection) :
    Yields (execute graph limit query root) (AllServed graph limit ⟨root, query, 1⟩)
      (projection graph root query) :=
  yields_evalLevel plain (yields_evalSelections plain [] query)

section

variable {graph : DataGraph State Node} {limit : DepthLimit} {path : Path} {depth : Nat}
  {node : Node}

theorem evalLevel_of_empty {name : String}
    (empty : (graph.view node).field? name = some (.collection [] none)) (arguments : Arguments)
    (nested others front back : List Selection) :
    evalLevel graph limit path depth (front ++ .branch name arguments nested :: back) node =
      evalLevel graph limit path depth (front ++ .branch name arguments others :: back) node := by
  have same : Filters (fun _ => False)
      (evalSelection graph limit path depth node (.branch name arguments nested))
      (evalSelection graph limit path depth node (.branch name arguments others)) := by
    rw [evalSelection_branch, evalSelection_branch, empty]
    exact filters_refl _ _
  have names : requested (front ++ .branch name arguments nested :: back) =
      requested (front ++ .branch name arguments others :: back) := by
    simp only [requested, List.map_append, List.map_cons, Selection.name]
  have members := (filters_evalSelections_of_selection (by rfl) same [] front back).eq
  rw [evalLevel, evalLevel, names, members]

end

/-- An execution on stored data leaves every state as it is, and its result is the same in all
states. It succeeds exactly if every stage that it can reach is served, and it then gives the
projection of the stored data on the query. What is asked below an empty collection plays no part
at any level. -/
theorem execute_plain {graph : DataGraph State Node} {root : Node} (plain : PlainFrom graph root)
    (limit : DepthLimit) (query : List Selection) :
    (∃ result, (∀ state, (execute graph limit query root).outcome state = (result, state)) ∧
      ((∃ value, result = .ok value) ↔
        ∀ stage, Relation.ReflTransGen (Leads graph limit) ⟨root, query, 1⟩ stage →
          Served graph limit stage) ∧
      ∀ value, result = .ok value → value = projection graph root query) ∧
    ∀ path depth node name arguments nested others front back,
      (graph.view node).field? name = some (.collection [] none) →
      evalLevel graph limit path depth (front ++ .branch name arguments nested :: back) node =
        evalLevel graph limit path depth (front ++ .branch name arguments others :: back) node := by
  constructor
  · cases yields_execute plain limit query with
    | ok served returned =>
        refine ⟨_, returned, iff_of_true ⟨_, rfl⟩ served, ?_⟩
        rintro value ⟨⟩
        rfl
    | error unserved error thrown =>
        refine ⟨_, thrown, iff_of_false ?_ unserved, nofun⟩
        rintro ⟨value, ⟨⟩⟩
  · intro path depth node name arguments nested others front back empty
    exact evalLevel_of_empty empty arguments nested others front back

inductive Folder where
  | mk (label : String) (folders : List Folder)

namespace Folder

def label : Folder → String
  | .mk label _ => label

def folders : Folder → List Folder
  | .mk _ folders => folders

def table : FieldTable Context Folder Folder :=
  FieldTable.empty
    |>.scalar "label" (fun folder => .string folder.label)
    |>.collection "folders" Folder.folders

def graph : DataGraph Context Folder := ⟨table.view⟩

theorem plainFrom (root : Folder) : PlainFrom graph root :=
  fun node _ => ((FieldTable.plain_empty.scalar _ _).collection _ _).view node

def cabinet : Folder := .mk "cabinet" [.mk "bills" [], .mk "letters" []]

/-- A query with a repeated name, and with a field that no folder has below the empty folders. -/
def listing : List Selection :=
  [.branch "folders" .empty [.leaf "label", .branch "folders" .empty [.leaf "color"]],
    .leaf "folders"]

end Folder

theorem execute_plain_cabinet :
    PlainFrom Folder.graph Folder.cabinet ∧
      (∀ context, (execute Folder.graph ⟨2⟩ Folder.listing Folder.cabinet).outcome context =
        (.ok (.object [("folders", .array
          [.object [("folders", .array []), ("label", .string "bills")],
            .object [("folders", .array []), ("label", .string "letters")]])]), context)) ∧
      AllServed Folder.graph ⟨2⟩ ⟨Folder.cabinet, Folder.listing, 1⟩ ∧
      (∀ context, (execute Folder.graph ⟨1⟩ Folder.listing Folder.cabinet).outcome context =
        (.error (.depthLimitExceeded ⟨1⟩ ["folders"]), context)) ∧
      ¬ AllServed Folder.graph ⟨1⟩ ⟨Folder.cabinet, Folder.listing, 1⟩ := by
  have plain : PlainFrom Folder.graph Folder.cabinet := Folder.plainFrom Folder.cabinet
  obtain ⟨⟨result, leaves, served, _⟩, _⟩ := execute_plain plain ⟨2⟩ Folder.listing
  obtain ⟨⟨refused, leavesToo, unserved, _⟩, _⟩ := execute_plain plain ⟨1⟩ Folder.listing
  -- One run gives the result for all contexts.
  have given : _ = result := congrArg Prod.fst (leaves .empty)
  have failed : _ = refused := congrArg Prod.fst (leavesToo .empty)
  subst given failed
  exact ⟨plain, leaves, served.mp ⟨_, rfl⟩, leavesToo, fun all => nomatch unserved.mpr all⟩

end FieldQuery.Execution
