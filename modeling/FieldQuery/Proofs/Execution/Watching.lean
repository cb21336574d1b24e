import FieldQuery.Proofs.Execution.Entries
import FieldQuery.Proofs.Execution.Outcome

/-!
# Watching executions

Executing a query on an observed graph is executing it on the graph itself, with the calls as an
additional result. All of these calls are made on nodes within the limit, and the hooks that are
called are those of the nodes that are entered. An observed graph may also tell of entering a node
that declares no hook.
-/

set_option autoImplicit false

namespace FieldQuery.Execution

open Query DataGraph

variable {State Node α β γ δ : Type} {kept : Event Node → Prop}

def hookVisit? (event : Event Node) : Option (Visit Node) :=
  match event.call with
  | .hook _ _ => some event.visit
  | .scalar _ | .collection _ _ => none

theorem hookVisit?_eq_some_iff {event : Event Node} {visit : Visit Node} :
    hookVisit? event = some visit ↔ ∃ names refusal, event = ⟨visit, .hook names refusal⟩ := by
  obtain ⟨own, call⟩ := event
  constructor
  · intro calls
    cases call with
    | hook names refusal =>
        cases calls
        exact ⟨names, refusal, rfl⟩
    | scalar => cases calls
    | collection => cases calls
  · rintro ⟨names, refusal, same⟩
    cases same
    rfl

/-- The visits on which hooks are called, in order. -/
def hookVisits (events : List (Event Node)) : List (Visit Node) := events.filterMap hookVisit?

theorem hookVisits_append (front back : List (Event Node)) :
    hookVisits (front ++ back) = hookVisits front ++ hookVisits back := List.filterMap_append

theorem mem_hookVisits_iff {events : List (Event Node)} {visit : Visit Node} :
    visit ∈ hookVisits events ↔ ∃ names refusal, ⟨visit, .hook names refusal⟩ ∈ events := by
  rw [hookVisits, List.mem_filterMap]
  constructor
  · rintro ⟨event, member, calls⟩
    obtain ⟨names, refusal, rfl⟩ := hookVisit?_eq_some_iff.mp calls
    exact ⟨names, refusal, member⟩
  · rintro ⟨names, refusal, member⟩
    exact ⟨_, member, rfl⟩

/-! ## Steps -/

/-- A step does what another one does, apart from the calls that it keeps. -/
def StepWatches (kept : Event Node → Prop) (lift : β → α)
    (watched : StateM (Observed State Node) α) (plain : StateM State β) : Prop :=
  ∀ state events, ∃ calls, (∀ event ∈ calls, kept event) ∧
    watched.run (state, events) =
      (lift (plain.run state).1, (plain.run state).2, events ++ calls)

theorem stepWatches_pure (lift : β → α) (value : β) :
    StepWatches kept lift (pure (lift value) : StateM (Observed State Node) α)
      (pure value : StateM State β) := by
  intro state events
  refine ⟨[], nofun, ?_⟩
  rw [List.append_nil]
  rfl

theorem stepWatches_observed {event : α → Event Node} (allowed : ∀ value, kept (event value))
    (step : StateM State α) : StepWatches kept id (observed event step) step := by
  intro state events
  refine ⟨[event (step.run state).1], ?_, rfl⟩
  intro call member
  rw [List.mem_singleton.mp member]
  exact allowed (step.run state).1

theorem stepWatches_scalar {event : Resolution Value → Event Node}
    (allowed : ∀ value, kept (event value)) (stored : Value)
    (resolver : Option (StateM State (Resolution Value))) :
    StepWatches kept id (supply stored (resolver.map (observed event)))
      (supply stored resolver) := by
  cases resolver with
  | none => exact stepWatches_pure id stored
  | some resolve =>
      intro state events
      obtain ⟨calls, allKept, ran⟩ := stepWatches_observed allowed resolve state events
      exact ⟨calls, allKept, congrArg (Prod.map (Resolution.getD stored) id) ran⟩

theorem stepWatches_collection {visit : Visit Node} {name : String} {arguments : Arguments}
    (allowed : kept ⟨visit, .collection name arguments⟩) (stored : List Node)
    (resolver : Option (Arguments → StateM State (Resolution (List Node)))) :
    StepWatches kept (visit.children name)
      (supply (visit.children name stored)
        ((resolver.map (Field.observedNodes visit name)).map fun resolve => resolve arguments))
      (supply stored (resolver.map fun resolve => resolve arguments)) := by
  cases resolver with
  | none => exact stepWatches_pure (visit.children name) stored
  | some resolve =>
      intro state events
      obtain ⟨calls, allKept, ran⟩ :=
        stepWatches_observed (fun _ => allowed) (resolve arguments) state events
      refine ⟨calls, allKept, ?_⟩
      have given := Resolution.getD_map (visit.children name) stored
        ((resolve arguments).run state).1
      have watched := congrArg (Prod.map (fun resolution : Resolution (List Node) =>
        (resolution.map (visit.children name)).getD (visit.children name stored)) id) ran
      exact watched.trans (congrArg (fun visits => (visits, _)) given)

def Resolves (visit : Visit Node) (event : Event Node) : Prop :=
  event.visit = visit ∧ hookVisit? event = none

/-! ## Records -/

def Within (limit : DepthLimit) (event : Event Node) : Prop :=
  limit.exceededBy event.visit.level = false

variable {limit : DepthLimit} {tells : Node → Bool}

/-- What calls have to do with the nodes that are entered: all are made within the limit, and those
of hooks are made on the entered nodes that tell. -/
structure Records (limit : DepthLimit) (tells : Node → Bool) (visits : List (Visit Node))
    (calls : List (Event Node)) : Prop where
  within : ∀ event ∈ calls, Within limit event
  hooks : hookVisits calls = visits.filter fun visit => tells visit.node

theorem records_nil : Records limit tells [] [] := ⟨nofun, rfl⟩

theorem Records.append {front back : List (Visit Node)} {calls later : List (Event Node)}
    (first : Records limit tells front calls) (second : Records limit tells back later) :
    Records limit tells (front ++ back) (calls ++ later) where
  within := List.forall_mem_append.mpr ⟨first.within, second.within⟩
  hooks := by rw [hookVisits_append, first.hooks, second.hooks, List.filter_append]

/-- Resolvers are called on a node that is entered already. -/
theorem records_of_resolves {visit : Visit Node} (within : limit.exceededBy visit.level = false)
    {calls : List (Event Node)} (resolve : ∀ event ∈ calls, Resolves visit event) :
    Records limit tells [] calls where
  within event member := by rw [Within, (resolve event member).1, within]
  hooks := List.filterMap_eq_nil_iff.mpr fun event member => (resolve event member).2

theorem records_hook {visit : Visit Node} (within : limit.exceededBy visit.level = false)
    (told : tells visit.node = true) (names : List String) (refusal : Option String) :
    Records limit tells [visit] [⟨visit, .hook names refusal⟩] where
  within event member := by rw [List.mem_singleton.mp member, Within, within]
  hooks := by simp [hookVisits, hookVisit?, told]

theorem records_silent {visit : Visit Node} (silent : tells visit.node = false) :
    Records limit tells [visit] [] where
  within := nofun
  hooks := by simp [hookVisits, silent]

namespace Computation

/-- A computation does what another one does, apart from the calls that it records. -/
def Watches (limit : DepthLimit) (tells : Node → Bool) (entered : State → List (Visit Node))
    (lift : β → α) (watched : Computation (Observed State Node) α) (plain : Computation State β) :
    Prop :=
  ∀ state events, ∃ calls, Records limit tells (entered state) calls ∧
    outcome watched (state, events) =
      ((outcome plain state).1.map lift, (outcome plain state).2, events ++ calls)

theorem watches_pure (lift : β → α) (value : β) :
    Watches limit tells (fun _ => []) lift
      (pure (lift value) : Computation (Observed State Node) α)
      (pure value : Computation State β) := by
  intro state events
  refine ⟨[], records_nil, ?_⟩
  rw [List.append_nil]
  rfl

theorem watches_throw (lift : β → α) (error : ExecutionError) :
    Watches limit tells (fun _ => []) lift
      (throw error : Computation (Observed State Node) α)
      (throw error : Computation State β) := by
  intro state events
  refine ⟨[], records_nil, ?_⟩
  rw [List.append_nil]
  rfl

theorem watches_liftM {visit : Visit Node} (within : limit.exceededBy visit.level = false)
    {lift : β → α} {watched : StateM (Observed State Node) α} {plain : StateM State β}
    (step : StepWatches (Resolves visit) lift watched plain) :
    Watches limit tells (fun _ => []) lift
      (liftM watched : Computation (Observed State Node) α)
      (liftM plain : Computation State β) := by
  intro state events
  obtain ⟨calls, resolve, ran⟩ := step state events
  exact ⟨calls, records_of_resolves within resolve, congrArg (Prod.map Except.ok id) ran⟩

theorem Watches.bind {lift : β → α} {later : δ → γ} {entered : State → List (Visit Node)}
    {enteredNext : β → State → List (Visit Node)}
    {watched : Computation (Observed State Node) α} {plain : Computation State β}
    {watchedNext : α → Computation (Observed State Node) γ} {plainNext : β → Computation State δ}
    (first : Watches limit tells entered lift watched plain)
    (next : ∀ value, Watches limit tells (enteredNext value) later (watchedNext (lift value))
      (plainNext value)) :
    Watches limit tells (fun state => entered state ++ entriesAfter plain enteredNext state) later
      (watched >>= watchedNext) (plain >>= plainNext) := by
  intro state events
  simp only [outcome_bind, entriesAfter]
  obtain ⟨calls, records, ran⟩ := first state events
  rw [ran]
  cases outcome plain state with
  | mk result between =>
      cases result with
      | error error =>
          refine ⟨calls, ?_, rfl⟩
          rw [List.append_nil]
          exact records
      | ok value =>
          obtain ⟨further, recordsFurther, ranFurther⟩ := next value between (events ++ calls)
          -- The calls of the continuation stand behind those of the first computation.
          refine ⟨calls ++ further, records.append recordsFurther, ?_⟩
          rw [← List.append_assoc]
          exact ranFurther

theorem watches_liftM_bind {visit : Visit Node} (within : limit.exceededBy visit.level = false)
    {lift : β → α} {later : δ → γ} {entered : State → List (Visit Node)}
    {enteredNext : β → State → List (Visit Node)}
    {watched : StateM (Observed State Node) α} {plain : StateM State β}
    {watchedNext : α → Computation (Observed State Node) γ} {plainNext : β → Computation State δ}
    (step : StepWatches (Resolves visit) lift watched plain)
    (next : ∀ value, Watches limit tells (enteredNext value) later (watchedNext (lift value))
      (plainNext value))
    (behind : ∀ state, entered state = enteredNext (plain.run state).1 (plain.run state).2) :
    Watches limit tells entered later (liftM watched >>= watchedNext)
      (liftM plain >>= plainNext) := by
  rw [funext behind]
  exact (watches_liftM within step).bind next

theorem Watches.map {entered : State → List (Visit Node)}
    {watched : Computation (Observed State Node) α} {plain : Computation State α}
    (watches : Watches limit tells entered id watched plain) (change : α → β) :
    Watches limit tells entered id (do return change (← watched))
      (do return change (← plain)) := by
  intro state events
  obtain ⟨calls, records, ran⟩ := watches state events
  refine ⟨calls, records, ?_⟩
  rw [outcome_bind, outcome_bind, ran]
  cases outcome plain state with
  | mk result after => cases result <;> rfl

theorem Watches.mapM {watched : Visit Node → Computation (Observed State Node) α}
    {executed : Visit Node → Computation State α} {plain : Node → Computation State α}
    {each : Visit Node → State → List (Visit Node)} {visits : List (Visit Node)}
    {nodes : List Node} (same : visits.map Visit.node = nodes)
    (agree : ∀ visit ∈ visits, executed visit = plain visit.node)
    (watches : ∀ visit ∈ visits,
      Watches limit tells (each visit) id (watched visit) (plain visit.node)) :
    Watches limit tells (entriesInTurn executed each visits) id (visits.mapM watched)
      (nodes.mapM plain) := by
  subst same
  induction visits with
  | nil => exact watches_pure id []
  | cons visit visits ih =>
      obtain ⟨agreesFirst, agreesRest⟩ := List.forall_mem_cons.mp agree
      obtain ⟨watchesFirst, watchesRest⟩ := List.forall_mem_cons.mp watches
      rw [List.map_cons, List.mapM_cons, List.mapM_cons]
      have inTurn : entriesInTurn executed each (visit :: visits) = fun state =>
          each visit state ++ entriesAfter (plain visit.node)
            (fun _ => entriesInTurn executed each visits) state := by
        funext state
        rw [entriesInTurn, agreesFirst]
      rw [inTurn]
      apply watchesFirst.bind
      intro first
      exact (ih agreesRest watchesRest).map (first :: ·)

end Computation

open FieldQuery.Execution.Computation

/-! ## Graphs -/

/-- A graph of visits observes a graph: its fields are those of the nodes with their calls kept, and
so are its hooks. A node that tells keeps a call of its hook also if it declares none. -/
structure Observes (tells : Node → Bool) (watched : DataGraph (Observed State Node) (Visit Node))
    (graph : DataGraph State Node) : Prop where
  field : ∀ visit name,
    (watched.view visit).field? name =
      ((graph.view visit.node).field? name).map (Field.observed visit name)
  telling : ∀ visit, tells visit.node = true → ∀ names,
    runHook (watched.view visit).hook names =
      (runHook (graph.view visit.node).hook).observed visit names
  silent : ∀ visit, tells visit.node = false →
    (watched.view visit).hook = none ∧ (graph.view visit.node).hook = none

/-- An observed graph tells of its nodes with hooks. -/
theorem observes_observing (graph : DataGraph State Node) :
    Observes (fun node => (graph.view node).hook.isSome) graph.observing graph where
  field _ _ := rfl
  telling visit told names := by
    obtain ⟨hook, declared⟩ := Option.isSome_iff_exists.mp told
    rw [hook_observing, declared]
    rfl
  silent visit untold := by
    have none := Option.isSome_eq_false_iff.mp untold
    rw [hook_observing, Option.isNone_iff_eq_none.mp none]
    exact ⟨rfl, rfl⟩

section

variable {graph : DataGraph State Node} {watched : DataGraph (Observed State Node) (Visit Node)}
  {visit : Visit Node}

theorem watches_enter (observes : Observes tells watched graph)
    (within : limit.exceededBy visit.level = false) (path : Path) (names : List String) :
    Watches limit tells (fun _ => [visit]) id (enter watched limit path visit.level names visit)
      (enter graph limit path visit.level names visit.node) := by
  have shallow := Bool.eq_false_iff.mp within
  rw [enter_eq, enter_eq, if_neg shallow, if_neg shallow]
  intro state events
  cases told : tells visit.node with
  | true =>
      let refusal := refusal? ((runHook (graph.view visit.node).hook names).run.run state).1
      refine ⟨[⟨visit, .hook names refusal⟩], records_hook within told names refusal, ?_⟩
      rw [observes.telling visit told, Except.map_id]
      rfl
  | false =>
      obtain ⟨watchedNone, plainNone⟩ := observes.silent visit told
      refine ⟨[], records_silent told, ?_⟩
      rw [watchedNone, plainNone, List.append_nil]
      rfl

theorem watches_evalLevel (observes : Observes tells watched graph) {selections : List Selection}
    {below : State → List (Visit Node)}
    (inside : limit.exceededBy visit.level = false →
      Watches limit tells below id
        (evalSelections watched limit visit.names visit.level visit [] selections)
        (evalSelections graph limit visit.names visit.level visit.node [] selections)) :
    Watches limit tells (entriesFrom graph limit selections below visit) id
      (evalLevel watched limit visit.names visit.level selections visit)
      (evalLevel graph limit visit.names visit.level selections visit.node) := by
  cases exceeded : limit.exceededBy visit.level with
  | true =>
      rw [entriesFrom_of_exceeded exceeded, evalLevel_of_exceeded exceeded,
        evalLevel_of_exceeded exceeded]
      exact watches_throw id _
  | false =>
      rw [entriesFrom_of_within exceeded, evalLevel, evalLevel]
      apply (watches_enter observes exceeded visit.names (requested selections)).bind
      intro _
      exact (inside exceeded).map Value.ofDict

mutual

theorem watches_evalSelection (observes : Observes tells watched graph) {visit : Visit Node}
    (within : limit.exceededBy visit.level = false) (selection : Selection) :
    Watches limit tells (entriesOfSelection graph limit visit selection) id
      (evalSelection watched limit visit.names visit.level visit selection)
      (evalSelection graph limit visit.names visit.level visit.node selection) := by
  match selection with
  | .leaf name =>
      rw [evalSelection_leaf, evalSelection_leaf, entriesOfSelection_leaf, observes.field]
      cases (graph.view visit.node).field? name with
      | none => exact watches_throw id _
      | some field =>
          cases field with
          | scalar stored resolver =>
              exact watches_liftM within (stepWatches_scalar (fun _ => ⟨rfl, rfl⟩) stored resolver)
          | collection stored resolver => exact watches_throw id _
  | .branch name arguments selections =>
      rw [evalSelection_branch, evalSelection_branch, entriesOfSelection_branch, observes.field]
      cases (graph.view visit.node).field? name with
      | none => exact watches_throw id _
      | some field =>
          cases field with
          | scalar stored resolver => exact watches_throw id _
          | collection stored resolver =>
              have step := stepWatches_collection
                (show Resolves visit ⟨visit, .collection name arguments⟩ from ⟨rfl, rfl⟩) stored
                resolver
              have inTurn (children : List Node) :
                  Watches limit tells
                    (entriesInTurn
                      (fun child =>
                        evalLevel graph limit child.names child.level selections child.node)
                      (fun child => entriesFrom graph limit selections
                        (entriesOfSelections graph limit child [] selections) child)
                      (visit.children name children))
                    id
                    ((visit.children name children).mapM
                      (evalLevel watched limit (visit.names ++ [name]) (visit.level + 1)
                        selections))
                    (children.mapM
                      (evalLevel graph limit (visit.names ++ [name]) (visit.level + 1)
                        selections)) := by
                apply Watches.mapM (visit.map_node_children name children)
                · intro child member
                  rw [Visit.names_of_mem_children member, Visit.level_of_mem_children member]
                · intro child member
                  rw [← Visit.names_of_mem_children member, ← Visit.level_of_mem_children member]
                  apply watches_evalLevel observes
                  intro allowed
                  exact watches_evalSelections observes allowed [] selections
              exact watches_liftM_bind within step
                (fun children => (inTurn children).map Value.array) fun _ => rfl

theorem watches_evalSelections (observes : Observes tells watched graph) {visit : Visit Node}
    (within : limit.exceededBy visit.level = false) (seen : List String)
    (selections : List Selection) :
    Watches limit tells (entriesOfSelections graph limit visit seen selections) id
      (evalSelections watched limit visit.names visit.level visit seen selections)
      (evalSelections graph limit visit.names visit.level visit.node seen selections) := by
  match selections with
  | [] =>
      rw [evalSelections_nil, evalSelections_nil, entriesOfSelections_nil]
      exact watches_pure id Dict.empty
  | selection :: rest =>
      by_cases known : selection.name ∈ seen
      · rw [evalSelections_of_seen known, evalSelections_of_seen known,
          entriesOfSelections_of_seen known]
        exact watches_evalSelections observes within seen rest
      · rw [evalSelections_of_new known, evalSelections_of_new known,
          entriesOfSelections_of_new known]
        apply (watches_evalSelection observes within selection).bind
        intro value
        exact (watches_evalSelections observes within (selection.name :: seen) rest).map
          fun members => members.insert selection.name value

end

/-- Watched or not, an execution does the same. It makes all its calls within the limit, and those
of hooks on the nodes that it enters. -/
theorem watches_execute (observes : Observes tells watched graph) (limit : DepthLimit)
    (selections : List Selection) (root : Node) :
    Watches limit tells (entries graph limit selections root) id
      (execute watched limit selections (Visit.root root))
      (execute graph limit selections root) := by
  refine watches_evalLevel observes fun allowed => ?_
  exact watches_evalSelections observes allowed [] selections

end

end FieldQuery.Execution
