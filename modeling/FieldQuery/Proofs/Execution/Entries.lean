import FieldQuery.Proofs.DataGraph.Observation
import FieldQuery.Proofs.Execution.Equations

/-!
# Entered nodes

The nodes that an execution enters, in order: the root, and the children of every collection that
is walked, as far as they lie within the limit and no error has ended the execution before. The
recursion is that of the query and of the graph. It looks at parts of the execution only for whether
they succeed and for the state in which the next one begins, and at no calls.
-/

set_option autoImplicit false

namespace FieldQuery.Execution

open Query DataGraph
open FieldQuery.Execution.Computation

variable {State Node α : Type}

/-- What is entered after a computation, if it succeeds. -/
def entriesAfter (first : Computation State α) (next : α → State → List (Visit Node))
    (state : State) : List (Visit Node) :=
  match first.outcome state with
  | (.ok value, between) => next value between
  | (.error _, _) => []

/-- What is entered for nodes that are executed one after another, from what is entered for each. -/
def entriesInTurn (executed : Visit Node → Computation State α)
    (each : Visit Node → State → List (Visit Node)) :
    List (Visit Node) → State → List (Visit Node)
  | [], _ => []
  | visit :: visits, state =>
      each visit state ++
        entriesAfter (executed visit) (fun _ => entriesInTurn executed each visits) state

/-- A node within the limit is entered, and what is entered below it once its hook has run. -/
def entriesFrom (graph : DataGraph State Node) (limit : DepthLimit) (selections : List Selection)
    (below : State → List (Visit Node)) (visit : Visit Node) (state : State) :
    List (Visit Node) :=
  if limit.exceededBy visit.level then []
  else
    visit ::
      entriesAfter (enter graph limit visit.names visit.level (requested selections) visit.node)
        (fun _ => below) state

mutual

def entriesOfSelection (graph : DataGraph State Node) (limit : DepthLimit) (visit : Visit Node) :
    Selection → State → List (Visit Node)
  | .leaf _, _ => []
  | .branch name arguments selections, state =>
      match (graph.view visit.node).nodes? name with
      | none => []
      | some nodes =>
          let (children, between) := (nodes arguments).run state
          entriesInTurn
            (fun child => evalLevel graph limit child.names child.level selections child.node)
            (fun child => entriesFrom graph limit selections
              (entriesOfSelections graph limit child [] selections) child)
            (visit.children name children) between

def entriesOfSelections (graph : DataGraph State Node) (limit : DepthLimit) (visit : Visit Node)
    (seen : List String) : List Selection → State → List (Visit Node)
  | [], _ => []
  | selection :: rest, state =>
      if seen.contains selection.name then
        entriesOfSelections graph limit visit seen rest state
      else
        entriesOfSelection graph limit visit selection state ++
          entriesAfter
            (evalSelection graph limit visit.names visit.level visit.node selection)
            (fun _ => entriesOfSelections graph limit visit (selection.name :: seen) rest) state

end

/-- The nodes that the execution of a query enters, in order. -/
def entries (graph : DataGraph State Node) (limit : DepthLimit) (query : List Selection)
    (root : Node) (before : State) : List (Visit Node) :=
  entriesFrom graph limit query
    (entriesOfSelections graph limit (Visit.root root) [] query) (Visit.root root) before

/-! ## Equations -/

section

variable {graph : DataGraph State Node} {limit : DepthLimit} {visit : Visit Node}

theorem entriesFrom_of_exceeded {selections : List Selection} {below : State → List (Visit Node)}
    (exceeded : limit.exceededBy visit.level = true) :
    entriesFrom graph limit selections below visit = fun _ => [] := by
  funext state
  rw [entriesFrom, if_pos exceeded]

theorem entriesFrom_of_within {selections : List Selection} {below : State → List (Visit Node)}
    (within : limit.exceededBy visit.level = false) :
    entriesFrom graph limit selections below visit = fun state =>
      visit :: entriesAfter
        (enter graph limit visit.names visit.level (requested selections) visit.node)
        (fun _ => below) state := by
  funext state
  rw [entriesFrom, if_neg (Bool.eq_false_iff.mp within)]

theorem entriesOfSelection_leaf (name : String) :
    entriesOfSelection graph limit visit (.leaf name) = fun _ => [] := by
  funext state
  rw [entriesOfSelection]

theorem entriesOfSelection_branch (name : String) (arguments : Arguments)
    (selections : List Selection) :
    entriesOfSelection graph limit visit (.branch name arguments selections) =
      match (graph.view visit.node).field? name with
      | some (.collection stored resolver) => fun state =>
          let step := supply stored (resolver.map fun resolve => resolve arguments)
          entriesInTurn
            (fun child => evalLevel graph limit child.names child.level selections child.node)
            (fun child => entriesFrom graph limit selections
              (entriesOfSelections graph limit child [] selections) child)
            (visit.children name (step.run state).1) (step.run state).2
      | _ => fun _ => [] := by
  funext state
  rw [entriesOfSelection, NodeView.nodes?]
  cases (graph.view visit.node).field? name with
  | none => rfl
  | some field =>
      cases field with
      | scalar stored resolver => rfl
      | collection stored resolver => cases resolver <;> rfl

theorem entriesOfSelections_nil (seen : List String) :
    entriesOfSelections graph limit visit seen [] = fun _ => [] := by
  funext state
  rw [entriesOfSelections]

variable {seen : List String} {selection : Selection} {rest : List Selection}

theorem entriesOfSelections_of_seen (known : selection.name ∈ seen) :
    entriesOfSelections graph limit visit seen (selection :: rest) =
      entriesOfSelections graph limit visit seen rest := by
  funext state
  rw [entriesOfSelections, if_pos (List.contains_iff_mem.mpr known)]

theorem entriesOfSelections_of_new (new : selection.name ∉ seen) :
    entriesOfSelections graph limit visit seen (selection :: rest) = fun state =>
      entriesOfSelection graph limit visit selection state ++
        entriesAfter (evalSelection graph limit visit.names visit.level visit.node selection)
          (fun _ => entriesOfSelections graph limit visit (selection.name :: seen) rest) state := by
  funext state
  rw [entriesOfSelections, if_neg fun contained => new (List.contains_iff_mem.mp contained)]

end

/-! ## Kinds of nodes -/

/-- A kind of nodes whose collections give no others. -/
def Closed (graph : DataGraph State Node) (kind : Node → Prop) : Prop :=
  ∀ node, kind node → ∀ name stored resolver,
    (graph.view node).field? name = some (.collection stored resolver) →
      ∀ arguments state,
        ∀ child ∈ ((supply stored (resolver.map fun resolve => resolve arguments)).run state).1,
          kind child

theorem forall_mem_entriesAfter {holds : Visit Node → Prop} {first : Computation State α}
    {next : α → State → List (Visit Node)}
    (each : ∀ value between, ∀ visit ∈ next value between, holds visit) (state : State) :
    ∀ visit ∈ entriesAfter first next state, holds visit := by
  rw [entriesAfter]
  split
  · exact each _ _
  · exact nofun

theorem forall_mem_entriesInTurn {holds : Visit Node → Prop}
    {executed : Visit Node → Computation State α} {own : Visit Node → State → List (Visit Node)}
    {visits : List (Visit Node)}
    (each : ∀ child ∈ visits, ∀ state, ∀ visit ∈ own child state, holds visit) (state : State) :
    ∀ visit ∈ entriesInTurn executed own visits state, holds visit := by
  induction visits generalizing state with
  | nil => exact nofun
  | cons child children ih =>
      obtain ⟨first, others⟩ := List.forall_mem_cons.mp each
      rw [entriesInTurn, List.forall_mem_append]
      exact ⟨first state, forall_mem_entriesAfter (fun _ => ih others) state⟩

section

variable {graph : DataGraph State Node} {limit : DepthLimit} {kind : Node → Prop}

theorem kind_of_mem_entriesFrom {visit : Visit Node} (own : kind visit.node)
    {selections : List Selection} {below : State → List (Visit Node)}
    (inside : ∀ state, ∀ other ∈ below state, kind other.node) (state : State) :
    ∀ other ∈ entriesFrom graph limit selections below visit state, kind other.node := by
  rw [entriesFrom]
  split
  · exact nofun
  · exact List.forall_mem_cons.mpr ⟨own, forall_mem_entriesAfter (fun _ => inside) state⟩

mutual

theorem kind_of_mem_entriesOfSelection (closed : Closed graph kind) {visit : Visit Node}
    (own : kind visit.node) (selection : Selection) (state : State) :
    ∀ other ∈ entriesOfSelection graph limit visit selection state, kind other.node := by
  match selection with
  | .leaf name =>
      rw [entriesOfSelection_leaf]
      exact nofun
  | .branch name arguments selections =>
      rw [entriesOfSelection_branch]
      split
      · next stored resolver declared =>
          apply forall_mem_entriesInTurn
          intro child member
          have among : child.node ∈ (visit.children name _).map Visit.node :=
            List.mem_map_of_mem member
          rw [Visit.map_node_children] at among
          have ofKind := closed visit.node own name stored resolver declared arguments state _ among
          exact kind_of_mem_entriesFrom ofKind
            (kind_of_mem_entriesOfSelections closed ofKind [] selections)
      · exact nofun

theorem kind_of_mem_entriesOfSelections (closed : Closed graph kind) {visit : Visit Node}
    (own : kind visit.node) (seen : List String) (selections : List Selection) (state : State) :
    ∀ other ∈ entriesOfSelections graph limit visit seen selections state, kind other.node := by
  match selections with
  | [] =>
      rw [entriesOfSelections_nil]
      exact nofun
  | selection :: rest =>
      by_cases known : selection.name ∈ seen
      · rw [entriesOfSelections_of_seen known]
        exact kind_of_mem_entriesOfSelections closed own seen rest state
      · rw [entriesOfSelections_of_new known, List.forall_mem_append]
        refine ⟨kind_of_mem_entriesOfSelection closed own selection state, ?_⟩
        apply forall_mem_entriesAfter
        intro _
        exact kind_of_mem_entriesOfSelections closed own (selection.name :: seen) rest

end

/-- An execution that begins on a node of a closed kind enters no others. -/
theorem kind_of_mem_entries (closed : Closed graph kind) {root : Node} (own : kind root)
    (limit : DepthLimit) (query : List Selection) (before : State) :
    ∀ visit ∈ entries graph limit query root before, kind visit.node :=
  kind_of_mem_entriesFrom own (kind_of_mem_entriesOfSelections closed own [] query) before

end

end FieldQuery.Execution
