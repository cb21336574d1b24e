import FieldQuery.Proofs.DataGraph.TableCalls
import FieldQuery.Proofs.Execution.CallTraversal

/-!
# Graphs of tables

In a graph of tables the subjects of one kind share a table, which calls have built. An execution
misses a field exactly where the last call for its name has declared none of the kind asked for. It
runs the hooks and resolvers of last calls only: if each call notes what it supplies, then nothing
is noted of a call whose slot a later one has filled.
-/

set_option autoImplicit false

namespace FieldQuery.Execution

open Query DataGraph

variable {State Node : Type}

/-! ## Conditions that calls keep -/

/-- The hooks and resolvers of a graph keep a condition on states. -/
structure Keeps (condition : State → Prop) (graph : DataGraph State Node) : Prop where
  hook {node : Node} {hook : Hook State} (declared : (graph.view node).hook = some hook)
    (names : List String) {state : State} (holds : condition state) :
      condition ((hook names).run.run state).2
  scalar {node : Node} {name : String} {stored : Value}
    {resolver : StateM State (Resolution Value)}
    (declared : (graph.view node).field? name = some (.scalar stored (some resolver)))
    {state : State} (holds : condition state) : condition (resolver.run state).2
  collection {node : Node} {name : String} {stored : List Node}
    {resolver : Arguments → StateM State (Resolution (List Node))}
    (declared : (graph.view node).field? name = some (.collection stored (some resolver)))
    (arguments : Arguments) {state : State} (holds : condition state) :
      condition ((resolver arguments).run state).2

namespace Keeps

variable {condition : State → Prop} {graph : DataGraph State Node}

theorem leaves (keeps : Keeps condition graph) {state : State} (holds : condition state)
    (event : Event Node) : condition (graph.leaves state event) := by
  obtain ⟨visit, call⟩ := event
  cases call with
  | hook names refusal =>
      rw [DataGraph.leaves]
      cases declared : (graph.view visit.node).hook with
      | none => exact holds
      | some hook => exact keeps.hook declared names holds
  | scalar name =>
      simp only [DataGraph.leaves]
      split
      · next declared => exact keeps.scalar declared holds
      · exact holds
  | collection name arguments =>
      simp only [DataGraph.leaves]
      split
      · next declared => exact keeps.collection declared arguments holds
      · exact holds

theorem execute (keeps : Keeps condition graph) (limit : DepthLimit) (selections : List Selection)
    (root : Node) {before : State} (holds : condition before) :
    condition ((execute graph limit selections root).outcome before).2 := by
  rw [state_eq_replay]
  generalize (watch graph.hooked limit selections root before).2.2 = events
  induction events using List.reverseRecOn with
  | nil => exact holds
  | append_singleton events event ih =>
      rw [replay_concat]
      exact keeps.leaves ih event

end Keeps

/-! ## Missing fields -/

open FieldQuery.Execution.Computation

def missing? : ExecutionError → Option Path
  | .fieldNotFound path | .collectionNotFound path => some path
  | .malformedQuery _ | .depthLimitExceeded _ _ | .batchResolve _ => none

def MissesBelow (path : Path) (error : ExecutionError) : Prop :=
  ∀ place, missing? error = some place → path.length < place.length

theorem missesBelow_of_none {path : Path} {error : ExecutionError} (other : missing? error = none) :
    MissesBelow path error := by
  intro place same
  rw [other] at same
  cases same

theorem missesBelow_here {path : Path} {name : String} {error : ExecutionError}
    (here : missing? error = some (path ++ [name])) : MissesBelow path error := by
  intro place same
  cases here.symm.trans same
  rw [List.length_append]
  exact Nat.lt_succ_self _

theorem MissesBelow.outwards {path : Path} {name : String} {error : ExecutionError}
    (misses : MissesBelow (path ++ [name]) error) : MissesBelow path error := by
  intro place same
  have longer := misses place same
  rw [List.length_append] at longer
  omega

section

variable {graph : DataGraph State Node} {limit : DepthLimit} {path : Path} {depth : Nat}
  {node : Node}

theorem missesBelow_evalLevel {selections : List Selection}
    (inside : FailsWith (MissesBelow path)
      (evalSelections graph limit path depth node [] selections)) :
    FailsWith (MissesBelow path) (evalLevel graph limit path depth selections node) := by
  rw [evalLevel, enter_eq]
  refine FailsWith.bind ?_ fun _ => inside.bind fun members => failsWith_pure _
  split
  · exact failsWith_throw (missesBelow_of_none rfl)
  · exact failsWith_adapt _ fun _ => missesBelow_of_none rfl

theorem missesBelow_children {selections : List Selection}
    (inside : ∀ child, FailsWith (MissesBelow path)
      (evalSelections graph limit path depth child [] selections))
    (supplied : StateM State (List Node)) :
    FailsWith (MissesBelow path) (do
      let children ← liftM supplied
      let items ← children.mapM (evalLevel graph limit path depth selections)
      return Value.array items : Computation State Value) := by
  refine FailsWith.bind (failsWith_liftM _) fun children => ?_
  refine FailsWith.bind (.mapM ?_ children) fun items => failsWith_pure _
  exact fun child => missesBelow_evalLevel (inside child)

mutual

theorem missesBelow_evalSelection {path : Path} {depth : Nat} {node : Node}
    (selection : Selection) :
    FailsWith (MissesBelow path) (evalSelection graph limit path depth node selection) := by
  match selection with
  | .leaf name =>
      rw [evalSelection_leaf]
      split
      · exact failsWith_liftM _
      · exact failsWith_throw (missesBelow_here rfl)
  | .branch name arguments selections =>
      rw [evalSelection_branch]
      split
      · have below (child : Node) : FailsWith (MissesBelow (path ++ [name]))
            (evalSelections graph limit (path ++ [name]) (depth + 1) child [] selections) :=
          missesBelow_evalSelections [] selections
        exact (missesBelow_children below _).mono fun _ => MissesBelow.outwards
      · exact failsWith_throw (missesBelow_here rfl)

theorem missesBelow_evalSelections {path : Path} {depth : Nat} {node : Node}
    (seen : List String) (selections : List Selection) :
    FailsWith (MissesBelow path)
      (evalSelections graph limit path depth node seen selections) := by
  match selections with
  | [] =>
      rw [evalSelections_nil]
      exact failsWith_pure _
  | selection :: rest =>
      by_cases known : selection.name ∈ seen
      · rw [evalSelections_of_seen known]
        exact missesBelow_evalSelections seen rest
      · rw [evalSelections_of_new known]
        apply (missesBelow_evalSelection selection).bind
        intro value
        apply (missesBelow_evalSelections (selection.name :: seen) rest).bind
        intro members
        exact failsWith_pure _

end

theorem misses_leaf_iff {name : String} {state : State} :
    (outcome (evalSelection graph limit path depth node (.leaf name)) state).1 =
        .error (.fieldNotFound (path ++ [name])) ↔
      ((graph.view node).field? name).map Field.kind ≠ some .scalar := by
  rw [evalSelection_leaf]
  cases (graph.view node).field? name with
  | none => simp
  | some field => cases field <;> simp [Field.kind]

/-- Behind a collection that is there, what may be missing lies further down. -/
theorem misses_branch_iff {name : String} {arguments : Arguments} {selections : List Selection}
    {state : State} :
    (outcome (evalSelection graph limit path depth node (.branch name arguments selections))
          state).1 =
        .error (.collectionNotFound (path ++ [name])) ↔
      ((graph.view node).field? name).map Field.kind ≠ some .collection := by
  rw [evalSelection_branch]
  cases (graph.view node).field? name with
  | none => simp
  | some field =>
      cases field with
      | scalar stored resolver => simp [Field.kind]
      | collection stored resolver =>
          refine iff_of_false ?_ (by simp [Field.kind])
          intro missing
          have below (child : Node) : FailsWith (MissesBelow (path ++ [name]))
              (evalSelections graph limit (path ++ [name]) (depth + 1) child [] selections) :=
            missesBelow_evalSelections [] selections
          have longer :=
            (missesBelow_children below _).of_outcome (Prod.ext missing rfl) _ rfl
          exact absurd longer (Nat.lt_irrefl _)

end

end FieldQuery.Execution

namespace FieldQuery

/-! ## Graphs whose calls are noted -/

namespace DataGraph

open FieldTable

variable {State Kind α : Type}

/-- The graph of subjects of several kinds, each kind with a table of its own. -/
def ofTables {Subject : Kind → Type}
    (calls : (kind : Kind) → List (BuilderCall State (Subject kind) (Sigma Subject))) :
    DataGraph State (Sigma Subject) where
  view node := (build (calls node.1)).view node.2

/-- A state with notes on what was run: the kind of the table, and the index among its calls. -/
abbrev Traced (State Kind : Type) := State × List (Kind × Nat)

def traced (note : Kind × Nat) (step : StateM State α) : StateM (Traced State Kind) α :=
  fun (state, notes) =>
    let (value, after) := step.run state
    (value, after, notes ++ [note])

def FieldTable.BuilderCall.traced {Subject Node : Type} (note : Kind × Nat) :
    BuilderCall State Subject Node → BuilderCall (Traced State Kind) Subject Node
  | .scalar name stored => .scalar name stored
  | .scalarWith name stored resolver =>
      .scalarWith name stored fun subject => DataGraph.traced note (resolver subject)
  | .collection name stored => .collection name stored
  | .collectionWith name stored resolver =>
      .collectionWith name stored fun subject arguments =>
        DataGraph.traced note (resolver subject arguments)
  | .batchResolve hook =>
      .batchResolve fun subject names => ExceptT.mk (DataGraph.traced note (hook subject names).run)

theorem FieldTable.BuilderCall.slot_traced {Subject Node : Type} (note : Kind × Nat)
    (call : BuilderCall State Subject Node) : (call.traced note).slot = call.slot := by
  cases call <;> rfl

variable {Subject : Kind → Type}

def tracedCalls (calls : (kind : Kind) → List (BuilderCall State (Subject kind) (Sigma Subject)))
    (kind : Kind) : List (BuilderCall (Traced State Kind) (Subject kind) (Sigma Subject)) :=
  (calls kind).mapIdx fun index call => call.traced (kind, index)

end DataGraph

namespace Execution

open Query DataGraph FieldTable

variable {State Kind α : Type} {Subject : Kind → Type}
  {calls : (kind : Kind) → List (BuilderCall State (Subject kind) (Sigma Subject))}

theorem stepCarries_traced (note : Kind × Nat) (step : StateM State α) :
    StepCarries Prod.fst (DataGraph.traced note step) step := fun _ => rfl

theorem lastCall?_tracedCalls
    (calls : (kind : Kind) → List (BuilderCall State (Subject kind) (Sigma Subject))) (kind : Kind)
    (slot : Option String) :
    (lastCall? (calls kind) slot = none ∧ lastCall? (tracedCalls calls kind) slot = none) ∨
      ∃ index call, InForce (calls kind) index ∧ (calls kind)[index]? = some call ∧
        lastCall? (calls kind) slot = some call ∧
        lastCall? (tracedCalls calls kind) slot = some (call.traced (kind, index)) :=
  lastCall?_mapIdx _ (fun index call => call.slot_traced (kind, index)) (calls kind) slot

/-- What is noted does not matter for what is computed. -/
theorem graphCarries_traced
    (calls : (kind : Kind) → List (BuilderCall State (Subject kind) (Sigma Subject))) :
    GraphCarries Prod.fst (ofTables (tracedCalls calls)) (ofTables calls) := by
  constructor
  · intro node names
    simp only [ofTables, hook_view_build]
    rcases lastCall?_tracedCalls calls node.1 none with ⟨without, same⟩ | found
    · rw [without, same]
      exact fun _ => rfl
    · obtain ⟨index, call, _, _, last, same⟩ := found
      rw [last, same]
      cases call with
      | batchResolve hook => exact stepCarries_traced _ _
      | scalar | scalarWith | collection | collectionWith => exact fun _ => rfl
  · intro node name
    simp only [ofTables, field?_view_build]
    rcases lastCall?_tracedCalls calls node.1 (some name) with ⟨without, same⟩ | found
    · rw [without, same]
      exact .none
    · obtain ⟨index, call, _, _, last, same⟩ := found
      rw [last, same]
      cases call with
      | scalar name stored => exact .scalar (stepCarries_pure _)
      | scalarWith name stored resolver => exact .scalar ((stepCarries_traced _ _).map _)
      | collection name stored => exact .collection fun _ => stepCarries_pure _
      | collectionWith name stored resolver =>
          exact .collection fun _ => (stepCarries_traced _ _).map _
      | batchResolve hook => exact .none

/-- All that is noted are calls whose slots no later calls fill. -/
def NotesInForce
    (calls : (kind : Kind) → List (BuilderCall State (Subject kind) (Sigma Subject)))
    (now : Traced State Kind) : Prop :=
  ∀ note ∈ now.2, InForce (calls note.1) note.2

theorem notesInForce_traced {kind : Kind} {index : Nat} (inForce : InForce (calls kind) index)
    {step : StateM State α} {now : Traced State Kind} (holds : NotesInForce calls now) :
    NotesInForce calls ((DataGraph.traced (kind, index) step).run now).2 :=
  List.forall_mem_append.mpr ⟨holds, List.forall_mem_singleton.mpr inForce⟩

theorem exists_call_of_hook {node : Sigma Subject} {hook : Hook (Traced State Kind)}
    (declared : ((ofTables (tracedCalls calls)).view node).hook = some hook) :
    ∃ (index : Nat) (call : BuilderCall State (Subject node.1) (Sigma Subject)),
      InForce (calls node.1) index ∧
      (call.traced (node.1, index)).hook?.map (fun hook => hook node.2) = some hook := by
  simp only [ofTables, hook_view_build] at declared
  rcases lastCall?_tracedCalls calls node.1 none with ⟨_, without⟩ | found
  · rw [without] at declared
    cases declared
  · obtain ⟨index, call, inForce, _, _, last⟩ := found
    rw [last] at declared
    exact ⟨index, call, inForce, declared⟩

theorem exists_call_of_field? {node : Sigma Subject} {name : String}
    {field : Field (Traced State Kind) (Sigma Subject)}
    (declared : ((ofTables (tracedCalls calls)).view node).field? name = some field) :
    ∃ (index : Nat) (call : BuilderCall State (Subject node.1) (Sigma Subject)),
      InForce (calls node.1) index ∧
      (call.traced (node.1, index)).declaration?.map (Declaration.of node.2) = some field := by
  simp only [ofTables, field?_view_build] at declared
  rcases lastCall?_tracedCalls calls node.1 (some name) with ⟨_, without⟩ | found
  · rw [without] at declared
    cases declared
  · obtain ⟨index, call, inForce, _, _, last⟩ := found
    rw [last] at declared
    exact ⟨index, call, inForce, declared⟩

theorem keeps_notesInForce
    (calls : (kind : Kind) → List (BuilderCall State (Subject kind) (Sigma Subject))) :
    Keeps (NotesInForce calls) (ofTables (tracedCalls calls)) := by
  constructor
  · intro node hook declared names now holds
    obtain ⟨index, call, inForce, given⟩ := exists_call_of_hook declared
    cases call <;> cases given
    exact notesInForce_traced inForce holds
  · intro node name stored resolver declared now holds
    obtain ⟨index, call, inForce, given⟩ := exists_call_of_field? declared
    cases call <;> cases given
    exact notesInForce_traced inForce holds
  · intro node name stored resolver declared arguments now holds
    obtain ⟨index, call, inForce, given⟩ := exists_call_of_field? declared
    cases call <;> cases given
    exact notesInForce_traced inForce holds

/-- A graph of tables does what the last calls of each table say. Its tables tell and show what they
say, an execution misses a field exactly where they declare none of its kind, and it runs the hooks
and resolvers of no other calls. -/
theorem tables_follow_last_calls
    (calls : (kind : Kind) → List (BuilderCall State (Subject kind) (Sigma Subject))) :
    (∀ kind, AsLastDeclared (calls kind) (build (calls kind))) ∧
    (∀ limit path depth (node : Sigma Subject) name state,
      ((evalSelection (ofTables calls) limit path depth node (.leaf name)).outcome state).1 =
          .error (.fieldNotFound (path ++ [name])) ↔
        (build (calls node.1)).kind? name ≠ some .scalar) ∧
    (∀ limit path depth (node : Sigma Subject) name arguments selections state,
      ((evalSelection (ofTables calls) limit path depth node
          (.branch name arguments selections)).outcome state).1 =
          .error (.collectionNotFound (path ++ [name])) ↔
        (build (calls node.1)).kind? name ≠ some .collection) ∧
    ∀ limit selections root before, ∃ result after notes,
      (execute (ofTables calls) limit selections root).outcome before = (result, after) ∧
      (execute (ofTables (tracedCalls calls)) limit selections root).outcome (before, []) =
          (result, after, notes) ∧
        ∀ note ∈ notes, InForce (calls note.1) note.2 := by
  refine ⟨fun kind => asLastDeclared_build (calls kind), ?_, ?_, ?_⟩
  · intro limit path depth node name state
    rw [misses_leaf_iff, kind?_eq_view _ node.2]
    rfl
  · intro limit path depth node name arguments selections state
    rw [misses_branch_iff, kind?_eq_view _ node.2]
    rfl
  · intro limit selections root before
    have same := carries_execute (graphCarries_traced calls) limit selections root (before, [])
    have kept : NotesInForce calls
        ((execute (ofTables (tracedCalls calls)) limit selections root).outcome (before, [])).2 :=
      (keeps_notesInForce calls).execute limit selections root nofun
    exact ⟨_, _, _, same, rfl, kept⟩

end Execution

end FieldQuery
