import FieldQuery.Proofs.Execution.CallTraversal
import FieldQuery.Sample.Tree

/-!
# Where executions fail

An execution that fails for want of a field names the field by a path. The path consists of the
branches that led to the node at hand and of the selection that failed there. Nothing of branches
or nodes that are finished is left in it, because the nodes on the way are still being executed:
whatever was entered after one of them lies below it.
-/

set_option autoImplicit false

namespace FieldQuery

open DataGraph

variable {State Node : Type}

def Query.Selection.fieldKind : Query.Selection → FieldKind
  | .leaf _ => .scalar
  | .branch _ _ _ => .collection

namespace Execution

open Query

/-- Branches that lead from a query to a set inside it, each the first of its name in its set. -/
inductive Descends (query : List Selection) : Path → List Selection → Prop where
  | root : Descends query [] query
  | branch {path selections name arguments nested} :
      Descends query path selections → .branch name arguments nested ∈ firsts selections →
      Descends query (path ++ [name]) nested

/-- A node was entered, and all nodes entered after it lie below it. -/
def Current (entries : List (Visit Node)) (visit : Visit Node) : Prop :=
  ∃ earlier later, entries = earlier ++ visit :: later ∧
    ∀ other ∈ later, visit.place <+: other.place

/-- A node that is being executed lacks the field of a selection. The branches that led to the node
lead through the query to the set in which the selection is the first of its name. -/
structure Lacks (graph : DataGraph State Node) (query : List Selection)
    (entries : List (Visit Node)) (visit : Visit Node) (selection : Selection) : Prop where
  current : Current entries visit
  asked : ∃ selections, Descends query visit.names selections ∧ selection ∈ firsts selections
  lacking : ((graph.view visit.node).field? selection.name).map Field.kind ≠
    some selection.fieldKind

/-- What an error says of the execution that it ends. An execution is given a query that is already
read, so it never complains of the form of one. -/
def Places (graph : DataGraph State Node) (query : List Selection)
    (entries : List (Visit Node)) : ExecutionError → Prop
  | .fieldNotFound path =>
      ∃ visit name, Lacks graph query entries visit (.leaf name) ∧ path = visit.names ++ [name]
  | .collectionNotFound path =>
      ∃ visit name arguments nested,
        Lacks graph query entries visit (.branch name arguments nested) ∧
          path = visit.names ++ [name]
  | .malformedQuery _ => False
  | .depthLimitExceeded _ _ | .batchResolve _ => True

variable {graph : DataGraph State Node} {query : List Selection} {limit : DepthLimit}
  {path : Path} {depth : Nat} {trail above : List (Visit Node)} {visit : Visit Node}

theorem Current.append {events : List (Event Node)} {event : Event Node}
    (current : Current (hookVisits events) visit) (below : visit.place <+: event.visit.place) :
    Current (hookVisits (events ++ [event])) visit := by
  obtain ⟨earlier, later, split, after⟩ := current
  rw [hookVisits_append, split]
  obtain ⟨own, call⟩ := event
  cases call with
  | hook names refusal =>
      refine ⟨earlier, later ++ [own], by simp [hookVisits, hookVisit?], ?_⟩
      intro other member
      rcases List.mem_append.mp member with old | new
      · exact after other old
      · rw [List.mem_singleton.mp new]
        exact below
  | scalar name => exact ⟨earlier, later, by simp [hookVisits, hookVisit?], after⟩
  | collection name arguments => exact ⟨earlier, later, by simp [hookVisits, hookVisit?], after⟩

def Holding (trail : List (Visit Node)) (now : Observed State Node) : Prop :=
  ∀ visit ∈ trail, Current (hookVisits now.2) visit

def Above (trail : List (Visit Node)) (visit : Visit Node) : Prop :=
  ∀ other ∈ trail, other.place <+: visit.place

theorem Above.child {node : Node} {step : String × Nat} (isAbove : Above trail visit) :
    Above trail ⟨node, visit.place ++ [step]⟩ :=
  fun other member => (isAbove other member).trans (List.prefix_append _ _)

theorem Above.cons (isAbove : Above trail visit) : Above (visit :: trail) visit := by
  intro other member
  rcases List.mem_cons.mp member with rfl | outer
  · exact List.prefix_refl _
  · exact isAbove other outer

/-- Calls below all nodes of a trail leave these nodes being executed. -/
theorem Holding.calls {state next : State} {events calls : List (Event Node)}
    (holding : Holding trail (state, events))
    (below : ∀ event ∈ calls, Above trail event.visit) : Holding trail (next, events ++ calls) := by
  induction calls generalizing state events with
  | nil => simpa [Holding] using holding
  | cons call calls ih =>
      rw [List.append_cons]
      have called : Holding trail (state, events ++ [call]) := by
        intro visit member
        exact (holding visit member).append (below call List.mem_cons_self visit member)
      exact ih called fun event member => below event (List.mem_cons_of_mem _ member)

theorem Holding.enter {state next : State} {events : List (Event Node)} {names : List String}
    {refusal : Option String} (holding : Holding above (state, events))
    (isAbove : Above above visit) :
    Holding (visit :: above) (next, events ++ [⟨visit, .hook names refusal⟩]) := by
  intro other member
  rcases List.mem_cons.mp member with rfl | outer
  · exact ⟨hookVisits events, [], by simp [hookVisits, hookVisit?], by simp⟩
  · exact (holding other outer).append (isAbove other outer)

theorem Holding.outer {now : Observed State Node} (holding : Holding (visit :: above) now) :
    Holding above now := fun other member => holding other (List.mem_cons_of_mem _ member)

open FieldQuery.Execution.Computation

abbrev Placed (graph : DataGraph State Node) (query : List Selection) (error : ExecutionError)
    (now : Observed State Node) : Prop := Places graph query (hookVisits now.2) error

theorem places_enter (isAbove : Above above visit) (names : List String) :
    Ensures (Holding above) (enter graph.hooked.observing limit path depth names visit)
      (fun _ => Holding (visit :: above)) (Placed graph query) := by
  rw [enter_eq]
  split
  · exact ensures_throw fun _ _ => trivial
  · rw [runHook_observing_hooked]
    apply ensures_adapt
    rintro ⟨state, events⟩ holding
    rw [run_observed_hook]
    cases ((runHook (graph.view visit.node).hook names).run.run state).1 with
    | ok value => exact holding.enter isAbove
    | error text => trivial

def On (visit : Visit Node) (event : Event Node) : Prop := event.visit = visit

theorem places_supply {α β : Type} {lift : β → α} {watched : StateM (Observed State Node) α}
    {plain : StateM State β} (isAbove : Above trail visit)
    (watches : StepWatches (On visit) lift watched plain) :
    Ensures (Holding trail) (liftM watched)
      (fun value now => (∃ source, value = lift source) ∧ Holding trail now)
      (Placed graph query) := by
  apply ensures_liftM
  rintro ⟨state, events⟩ holding
  obtain ⟨calls, own, ran⟩ := watches state events
  rw [ran]
  refine ⟨⟨_, rfl⟩, holding.calls ?_⟩
  intro event member
  rw [own event member]
  exact isAbove

theorem on_own (visit : Visit Node) (call : Call) : On visit ⟨visit, call⟩ := rfl

theorem places_evalLevel (isAbove : Above above visit) {selections : List Selection}
    (inside : Ensures (Holding (visit :: above))
      (evalSelections graph.hooked.observing limit path depth visit [] selections)
      (fun _ => Holding (visit :: above)) (Placed graph query)) :
    Ensures (Holding above)
      (evalLevel graph.hooked.observing limit path depth selections visit)
      (fun _ => Holding above) (Placed graph query) := by
  apply (places_enter isAbove _).bind
  intro _
  apply inside.bind
  intro members
  exact ensures_pure fun now holding => holding.outer

theorem places_missing {error : ExecutionError} {selection : Selection}
    (places : ∀ entries, Lacks graph query entries visit selection →
      Places graph query entries error)
    {selections : List Selection} (descends : Descends query visit.names selections)
    (first : selection ∈ firsts selections)
    (lacking : ((graph.view visit.node).field? selection.name).map Field.kind ≠
      some selection.fieldKind)
    {α : Type} {ensured : α → Observed State Node → Prop} :
    Ensures (Holding (visit :: above)) (throw error) ensured (Placed graph query) :=
  ensures_throw fun _ holding =>
    places _ ⟨holding visit List.mem_cons_self, ⟨selections, descends, first⟩, lacking⟩

mutual

theorem places_evalSelection {above : List (Visit Node)} {visit : Visit Node} {path : Path}
    {depth : Nat} (isAbove : Above above visit) (isPath : path = visit.names)
    {selections : List Selection} (descends : Descends query visit.names selections)
    (selection : Selection) (first : selection ∈ firsts selections) :
    Ensures (Holding (visit :: above))
      (evalSelection graph.hooked.observing limit path depth visit selection)
      (fun _ => Holding (visit :: above)) (Placed graph query) := by
  match selection with
  | .leaf name =>
      have places (entries : List (Visit Node)) (lacks : Lacks graph query entries visit (.leaf name)) :
          Places graph query entries (.fieldNotFound (path ++ [name])) :=
        ⟨visit, name, lacks, by rw [isPath]⟩
      rw [evalSelection_leaf, field?_observing_hooked]
      cases declared : (graph.view visit.node).field? name with
      | none => exact places_missing places descends first (by simp [Selection.name, declared])
      | some field =>
          cases field with
          | collection stored resolver =>
              exact places_missing places descends first
                (by simp [Selection.name, declared, Field.kind, Selection.fieldKind])
          | scalar stored resolver =>
              have watches := stepWatches_scalar (fun _ => on_own visit (.scalar name)) stored resolver
              exact (places_supply isAbove.cons watches).weaken (fun _ _ supplied => supplied.2)
                fun _ _ => id
  | .branch name arguments nested =>
      have places (entries : List (Visit Node))
          (lacks : Lacks graph query entries visit (.branch name arguments nested)) :
          Places graph query entries (.collectionNotFound (path ++ [name])) :=
        ⟨visit, name, arguments, nested, lacks, by rw [isPath]⟩
      rw [evalSelection_branch, field?_observing_hooked]
      cases declared : (graph.view visit.node).field? name with
      | none => exact places_missing places descends first (by simp [Selection.name, declared])
      | some field =>
          cases field with
          | scalar stored resolver =>
              exact places_missing places descends first
                (by simp [Selection.name, declared, Field.kind, Selection.fieldKind])
          | collection stored resolver =>
              have watches :=
                stepWatches_collection (on_own visit (.collection name arguments)) stored resolver
              apply (places_supply isAbove.cons watches).bind
              intro children
              apply ensures_of_fact
              rintro ⟨nodes, rfl⟩
              refine Ensures.bind
                (ensures_mapM (fun _ => Holding (visit :: above)) _ ?_) fun items => ?_
              · intro index child found
                rw [Visit.children, List.getElem?_mapIdx, Option.map_eq_some_iff] at found
                obtain ⟨node, _, rfl⟩ := found
                have named : (⟨node, visit.place ++ [(name, index)]⟩ : Visit Node).names =
                    visit.names ++ [name] := List.map_append
                apply places_evalLevel isAbove.cons.child
                exact places_evalSelections isAbove.cons.child (by rw [named, isPath])
                  (named ▸ descends.branch first) [] nested fun _ member => member
              · exact ensures_pure fun now holding => holding

theorem places_evalSelections {above : List (Visit Node)} {visit : Visit Node} {path : Path}
    {depth : Nat} (isAbove : Above above visit) (isPath : path = visit.names)
    {selections : List Selection} (descends : Descends query visit.names selections)
    (seen : List String) (rest : List Selection)
    (ofFirsts : ∀ selection ∈ firstsBeyond seen rest, selection ∈ firsts selections) :
    Ensures (Holding (visit :: above))
      (evalSelections graph.hooked.observing limit path depth visit seen rest)
      (fun _ => Holding (visit :: above)) (Placed graph query) := by
  match rest with
  | [] =>
      rw [evalSelections_nil]
      exact ensures_pure fun now holding => holding
  | selection :: rest =>
      by_cases known : selection.name ∈ seen
      · rw [firstsBeyond_of_seen known] at ofFirsts
        rw [evalSelections_of_seen known]
        exact places_evalSelections isAbove isPath descends seen rest ofFirsts
      · rw [firstsBeyond_of_new known] at ofFirsts
        rw [evalSelections_of_new known]
        apply (places_evalSelection isAbove isPath descends selection
          (ofFirsts selection List.mem_cons_self)).bind
        intro value
        apply (places_evalSelections isAbove isPath descends (selection.name :: seen) rest
          fun other member => ofFirsts other (List.mem_cons_of_mem _ member)).bind
        intro members
        exact ensures_pure fun now holding => holding

end

theorem places_watch {before : State} {root : Node} {error : ExecutionError}
    (failed : (watch graph.hooked limit query root before).1 = .error error) :
    Places graph query (entries graph limit query root before) error := by
  have isAbove : Above [] (Visit.root root) := by simp [Above]
  have ensures : Ensures (Holding [])
      (execute graph.hooked.observing limit query (Visit.root root))
      (fun _ => Holding []) (Placed graph query) :=
    places_evalLevel isAbove
      (places_evalSelections isAbove rfl .root [] query fun _ member => member)
  have ends := ensures (before, []) (by simp [Holding])
  rw [← watch] at ends
  rw [← hookVisits_watch_hooked]
  generalize watch graph.hooked limit query root before = record at ends failed
  cases ends with
  | ok => cases failed
  | error placed =>
      cases failed
      exact placed

/-- A failed execution names the right place. For want of a field, the path leads over first
selections of their names to the one that failed, on a node that is being executed and that the
branches of the path have led to; that node has no field of the name and of the kind asked for. In
texts the names of the path are joined by dots. An execution never fails by the form of its query. -/
theorem execute_names_place {graph : DataGraph State Node} {limit : DepthLimit}
    {query : List Selection} {root : Node} {before after : State} {error : ExecutionError}
    (failed : (execute graph limit query root).outcome before = (.error error, after)) :
    Places graph query (entries graph limit query root before) error ∧
      ∀ path, error = .fieldNotFound path ∨ error = .collectionNotFound path →
        path.text = ".".intercalate path := by
  have seen := watch_eq_of_hooked graph limit query root before
  obtain ⟨calls, _, plain⟩ := watch_eq graph limit query root before
  have hooked : (watch graph.hooked limit query root before).1 = .error error := by
    rw [plain, failed] at seen
    exact (congrArg Prod.fst seen).symm
  have places := places_watch hooked
  refine ⟨places, ?_⟩
  rintro path (rfl | rfl)
  · obtain ⟨visit, name, _, rfl⟩ := places
    exact text_of_ne_nil (by simp)
  · obtain ⟨visit, name, _, _, _, rfl⟩ := places
    exact text_of_ne_nil (by simp)

/-- A query that asks for a collection as a leaf, behind branches of other names. -/
def misplacedLeaf : List Selection :=
  [.branch "children" .empty [.leaf "id"],
    .branch "pick" .empty [.branch "children" .empty [.leaf "name"], .leaf "items"]]

theorem misplacedLeaf_names_place :
    ∃ after,
      (execute Sample.tree .unlimited misplacedLeaf grandparentVertex).outcome .empty =
          (.error (.fieldNotFound ["pick", "items"]), after) ∧
        (entries Sample.tree .unlimited misplacedLeaf grandparentVertex .empty).map Visit.place =
          [[], [("children", 0)], [("pick", 0)], [("pick", 0), ("children", 0)]] ∧
        Places Sample.tree misplacedLeaf
          (entries Sample.tree .unlimited misplacedLeaf grandparentVertex .empty)
          (.fieldNotFound ["pick", "items"]) := by
  have failed :
      (execute Sample.tree .unlimited misplacedLeaf grandparentVertex).outcome .empty =
        (.error (.fieldNotFound ["pick", "items"]),
          ((execute Sample.tree .unlimited misplacedLeaf grandparentVertex).outcome .empty).2) := rfl
  exact ⟨_, failed, rfl, (execute_names_place failed).1⟩

end Execution

end FieldQuery
