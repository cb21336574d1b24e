import FieldQuery.Proofs.Execution.Addresses
import FieldQuery.Proofs.Execution.Ensuring
import FieldQuery.Proofs.Execution.HookedGraphs

/-!
# The order of calls

Every call of an execution is asked for by the query and stands behind all calls with smaller
addresses, on a node that was entered before. Calls change the shared state one after another, and
nothing else does. A hook that refuses makes the last call.
-/

set_option autoImplicit false

namespace FieldQuery

open DataGraph

variable {State Node : Type}

/-- The text with which a call refused. Only hooks refuse. -/
def DataGraph.Call.refusal? : Call → Option String
  | .hook _ refusal => refusal
  | .scalar _ | .collection _ _ => none

def DataGraph.leaves (graph : DataGraph State Node) (state : State) (event : Event Node) : State :=
  match event.call with
  | .hook names _ =>
      ((Execution.runHook (graph.view event.visit.node).hook names).run.run state).2
  | .scalar name =>
      match (graph.view event.visit.node).field? name with
      | some (.scalar _ (some resolver)) => (resolver.run state).2
      | _ => state
  | .collection name arguments =>
      match (graph.view event.visit.node).field? name with
      | some (.collection _ (some resolver)) => ((resolver arguments).run state).2
      | _ => state

def DataGraph.replay (graph : DataGraph State Node) (before : State) (events : List (Event Node)) :
    State :=
  events.foldl graph.leaves before

theorem DataGraph.replay_concat (graph : DataGraph State Node) (before : State)
    (events : List (Event Node)) (event : Event Node) :
    graph.replay before (events ++ [event]) =
      graph.leaves (graph.replay before events) event := List.foldl_append

namespace Execution

open Query

/-- Visits among which a visit and one at every place on the way to it are found. -/
def Covers (trail : List (Visit Node)) (visit : Visit Node) : Prop :=
  visit ∈ trail ∧ ∀ place, place <+: visit.place → ∃ other ∈ trail, other.place = place

theorem covers_root (node : Node) : Covers [Visit.root node] (Visit.root node) := by
  refine ⟨List.mem_cons_self, ?_⟩
  intro place within
  exact ⟨_, List.mem_cons_self, (List.prefix_nil.mp within).symm⟩

theorem Covers.child {trail : List (Visit Node)} {visit : Visit Node} (covers : Covers trail visit)
    (node : Node) (step : String × Nat) :
    Covers (⟨node, visit.place ++ [step]⟩ :: trail) ⟨node, visit.place ++ [step]⟩ := by
  refine ⟨List.mem_cons_self, ?_⟩
  intro place within
  rcases List.prefix_concat_iff.mp within with rfl | outer
  · exact ⟨_, List.mem_cons_self, rfl⟩
  · obtain ⟨other, member, same⟩ := covers.2 place outer
    exact ⟨other, List.mem_cons_of_mem _ member, same⟩

/-- What holds of the calls of an execution at all times. -/
structure Orderly (graph : DataGraph State Node) (query : List Selection) (before : State)
    (now : Observed State Node) : Prop where
  asked : ∀ event ∈ now.2, Asks (askedAt query event.visit.place) event.call
  ordered : (now.2.map (address query)).Pairwise (· < ·)
  entered : ∀ event ∈ now.2, Covers (hookVisits now.2) event.visit
  replayed : now.1 = graph.replay before now.2

/-- The last call is that of a hook, which refuses with a text. All calls before it accept. -/
def EndsRefused (graph : DataGraph State Node) (before : State) (text : String)
    (now : Observed State Node) : Prop :=
  ∃ earlier visit names hook,
    now.2 = earlier ++ [⟨visit, .hook names (some text)⟩] ∧
      (∀ event ∈ earlier, event.call.refusal? = none) ∧
      (graph.view visit.node).hook = some hook ∧
      (hook names).run.run (graph.replay before earlier) = (.error text, now.1)

structure Stopped (graph : DataGraph State Node) (query : List Selection) (before : State)
    (error : ExecutionError) (now : Observed State Node) : Prop where
  orderly : Orderly graph query before now
  refused : ∀ text, error = .batchResolve text → EndsRefused graph before text now
  accepted : (∀ text, error ≠ .batchResolve text) → ∀ event ∈ now.2, event.call.refusal? = none

/-- What holds as long as an execution goes on: the nodes of a trail are entered, and the next call
may have an address from a bound onwards. -/
structure Standing (graph : DataGraph State Node) (query : List Selection) (before : State)
    (trail : List (Visit Node)) (bound : List Nat) (now : Observed State Node) : Prop where
  orderly : Orderly graph query before now
  accepted : ∀ event ∈ now.2, event.call.refusal? = none
  earlier : ∀ event ∈ now.2, address query event < bound
  entered : ∀ visit ∈ trail, visit ∈ hookVisits now.2

variable {graph : DataGraph State Node} {query : List Selection} {before state : State}
  {events : List (Event Node)} {trail above : List (Visit Node)} {visit : Visit Node}
  {bound next : List Nat}

theorem Covers.of_subset {wider : List (Visit Node)} (covers : Covers trail visit)
    (subset : ∀ other ∈ trail, other ∈ wider) : Covers wider visit := by
  refine ⟨subset visit covers.1, ?_⟩
  intro place within
  obtain ⟨other, member, same⟩ := covers.2 place within
  exact ⟨other, subset other member, same⟩

theorem mem_hookVisits_append {other : Visit Node} (member : other ∈ hookVisits events)
    (event : Event Node) : other ∈ hookVisits (events ++ [event]) := by
  rw [hookVisits_append]
  exact List.mem_append_left _ member

theorem Orderly.append {event : Event Node} (orderly : Orderly graph query before (state, events))
    (asks : Asks (askedAt query event.visit.place) event.call)
    (later : ∀ other ∈ events, address query other < address query event)
    (covers : Covers trail event.visit)
    (reached : ∀ visit ∈ trail, visit ∈ hookVisits (events ++ [event])) :
    Orderly graph query before (graph.leaves state event, events ++ [event]) := by
  constructor
  · exact List.forall_mem_append.mpr ⟨orderly.asked, List.forall_mem_singleton.mpr asks⟩
  · rw [List.map_append, List.pairwise_append]
    refine ⟨orderly.ordered, List.pairwise_singleton _ _, ?_⟩
    intro first firstMember last lastMember
    obtain ⟨other, member, rfl⟩ := List.mem_map.mp firstMember
    rw [List.mem_singleton.mp lastMember]
    exact later other member
  · rw [List.forall_mem_append, List.forall_mem_singleton]
    refine ⟨?_, covers.of_subset reached⟩
    intro other member
    exact (orderly.entered other member).of_subset fun _ found => mem_hookVisits_append found event
  · rw [replay_concat]
    exact congrArg (graph.leaves · event) orderly.replayed

namespace Standing

theorem stopped (standing : Standing graph query before trail bound (state, events))
    {error : ExecutionError} (own : ∀ text, error ≠ .batchResolve text) :
    Stopped graph query before error (state, events) :=
  ⟨standing.orderly, fun text refused => absurd refused (own text), fun _ => standing.accepted⟩

theorem later {now : Observed State Node} (standing : Standing graph query before trail bound now)
    (lt : bound < next) : Standing graph query before trail next now :=
  { standing with earlier := fun event member => List.lt_trans (standing.earlier event member) lt }

theorem outer {now : Observed State Node}
    (standing : Standing graph query before (visit :: above) bound now) :
    Standing graph query before above bound now :=
  { standing with
    entered := fun other member => standing.entered other (List.mem_cons_of_mem _ member) }

/-- A call that does not refuse moves the bound behind itself. -/
theorem append {event : Event Node} {earlierBound : List Nat} {entered : List (Visit Node)}
    (standing : Standing graph query before trail earlierBound (state, events))
    (orderly : Orderly graph query before (graph.leaves state event, events ++ [event]))
    (accepts : event.call.refusal? = none) (le : earlierBound < next)
    (lt : address query event < next)
    (reached : ∀ visit ∈ entered, visit ∈ hookVisits (events ++ [event])) :
    Standing graph query before entered next (graph.leaves state event, events ++ [event]) := by
  refine ⟨orderly, ?_, ?_, reached⟩
  · exact List.forall_mem_append.mpr ⟨standing.accepted, List.forall_mem_singleton.mpr accepts⟩
  · exact List.forall_mem_append.mpr
      ⟨(standing.later le).earlier, List.forall_mem_singleton.mpr lt⟩

/-- A resolver is called on a node that is entered. -/
theorem call {event : Event Node}
    (standing : Standing graph query before trail (address query event) (state, events))
    (covers : Covers trail event.visit) (asks : Asks (askedAt query event.visit.place) event.call)
    (accepts : event.call.refusal? = none) (lt : address query event < next) :
    Standing graph query before trail next (graph.leaves state event, events ++ [event]) := by
  have reached (visit : Visit Node) (member : visit ∈ trail) :
      visit ∈ hookVisits (events ++ [event]) :=
    mem_hookVisits_append (standing.entered visit member) event
  exact standing.append (standing.orderly.append asks standing.earlier covers reached) accepts lt lt
    reached

section

variable (covers : Covers (visit :: above) visit) (refusal : Option String)
  (standing : Standing graph query before above (placeAddress query visit.place) (state, events))
include covers standing

/-- The call of a node's hook, before anything else happens on the node. -/
theorem orderly_hook :
    let event : Event Node := ⟨visit, .hook (requested (askedAt query visit.place)) refusal⟩
    Orderly graph query before (graph.leaves state event, events ++ [event]) ∧
      address query event = placeAddress query visit.place ∧
      ∀ other ∈ visit :: above, other ∈ hookVisits (events ++ [event]) := by
  intro event
  have atPlace : address query event = placeAddress query visit.place := address_hook _ _ _ _
  have reached (other : Visit Node) (member : other ∈ visit :: above) :
      other ∈ hookVisits (events ++ [event]) := by
    rcases List.mem_cons.mp member with rfl | outer
    · rw [hookVisits_append]
      exact List.mem_append_right _ List.mem_cons_self
    · exact mem_hookVisits_append (standing.entered other outer) event
  refine ⟨standing.orderly.append rfl ?_ covers reached, atPlace, reached⟩
  rw [atPlace]
  exact standing.earlier

theorem accept {names : List String} (isAll : names = requested (askedAt query visit.place))
    (accepts : ((runHook (graph.view visit.node).hook names).run.run state).1 = .ok ()) :
    Standing graph query before (visit :: above) (placeAddress query visit.place ++ [0])
      (((runHook (graph.view visit.node).hook names).run.run state).2,
        events ++ [⟨visit, .hook names none⟩]) := by
  subst isAll
  obtain ⟨orderly, atPlace, reached⟩ := orderly_hook covers none standing
  have behind := lt_append_cons (placeAddress query visit.place) 0 []
  exact standing.append orderly rfl behind (atPlace ▸ behind) reached

theorem refuse {names : List String} {text : String}
    (isAll : names = requested (askedAt query visit.place))
    (refuses : ((runHook (graph.view visit.node).hook names).run.run state).1 = .error text) :
    Stopped graph query before (.batchResolve text)
      (((runHook (graph.view visit.node).hook names).run.run state).2,
        events ++ [⟨visit, .hook names (some text)⟩]) := by
  subst isAll
  refine ⟨(orderly_hook covers (some text) standing).1, ?_, fun own => absurd rfl (own text)⟩
  rintro other ⟨rfl⟩
  cases declared : (graph.view visit.node).hook with
  | none =>
      rw [declared] at refuses
      cases refuses
  | some hook =>
      rw [declared] at refuses
      refine ⟨events, visit, _, hook, rfl, standing.accepted, declared, ?_⟩
      rw [← standing.orderly.replayed]
      exact Prod.ext refuses rfl

end

end Standing

open FieldQuery.Execution.Computation

variable {limit : DepthLimit} {path : Path} {depth : Nat}

theorem run_observed_hook (hook : Hook State) (visit : Visit Node) (names : List String)
    (state : State) (events : List (Event Node)) :
    (hook.observed visit names).run.run (state, events) =
      (((hook names).run.run state).1, ((hook names).run.run state).2,
        events ++ [⟨visit, .hook names (refusal? ((hook names).run.run state).1)⟩]) := rfl

theorem ensures_enter (covers : Covers (visit :: above) visit) {selections : List Selection}
    (asked : askedAt query visit.place = selections) :
    Ensures (Standing graph query before above (placeAddress query visit.place))
      (enter graph.hooked.observing limit path depth (requested selections) visit)
      (fun _ =>
        Standing graph query before (visit :: above) (placeAddress query visit.place ++ [0]))
      (Stopped graph query before) := by
  rw [enter_eq]
  split
  · exact ensures_throw fun now standing => standing.stopped nofun
  · rw [runHook_observing_hooked]
    apply ensures_adapt
    rintro ⟨state, events⟩ standing
    have isAll : requested selections = requested (askedAt query visit.place) := by rw [asked]
    rw [run_observed_hook]
    cases ended : ((runHook (graph.view visit.node).hook (requested selections)).run.run state).1
      with
    | ok value => exact standing.accept covers isAll ended
    | error text => exact standing.refuse covers isAll ended

end Execution

end FieldQuery
