import FieldQuery.Proofs.Execution.CallTraversal

/-!
# The record of an execution

Which calls an execution makes on the nodes that it enters, in which order, and what they leave.
Only what the graph declares is on record. Calls of hooks are put in order together with the entries
of other nodes, on the graph in which every node has a hook.
-/

set_option autoImplicit false

namespace FieldQuery.Execution

open Query DataGraph
open FieldQuery.Execution.Computation

variable {State Node : Type} {graph : DataGraph State Node} {query : List Selection}
  {before : State}

def fieldName? : Call → Option String
  | .hook _ _ => none
  | .scalar name | .collection name _ => some name

/-- The calls that an execution makes on the nodes that it enters. -/
structure WellOrdered (graph : DataGraph State Node) (query : List Selection)
    (entries : List (Visit Node)) (calls : List (Event Node)) : Prop where
  /-- The hook of a node is called once, with all names of its level, and before anything else on
  the node and below it. -/
  hooked : ∀ visit ∈ entries, (graph.view visit.node).hook.isSome = true →
    ∃ earlier refusal later,
      calls =
          earlier ++ ⟨visit, .hook (requested (askedAt query visit.place)) refusal⟩ :: later ∧
        (∀ event ∈ earlier, ¬ visit.place <+: event.visit.place) ∧
        ∀ event ∈ later, event.visit.place = visit.place → fieldName? event.call ≠ none
  /-- Calls are made on entered nodes, which lie below entered nodes. -/
  entered : ∀ event ∈ calls, Covers entries event.visit
  asked : ∀ event ∈ calls, Asks (askedAt query event.visit.place) event.call
  /-- No field of a node is called twice, and no hook. -/
  once : calls.Pairwise fun first second =>
    first.visit.place = second.visit.place → fieldName? first.call ≠ fieldName? second.call
  /-- Calls and entries follow the order of the query and of the children. -/
  ordered : (calls.map (address query)).Pairwise (· < ·) ∧
    (entries.map fun visit => placeAddress query visit.place).Pairwise (· < ·)

theorem address_eq {first second : Event Node} (place : first.visit.place = second.visit.place)
    (field : fieldName? first.call = fieldName? second.call) :
    address query first = address query second := by
  have within : callAddress (askedAt query first.visit.place) first.call =
      callAddress (askedAt query first.visit.place) second.call := by
    generalize first.call = call at field ⊢
    generalize second.call = other at field ⊢
    cases call <;> cases other <;> cases field <;> rfl
  rw [address, address, within, place]

theorem Orderly.wellOrdered {now : Observed State Node} (orderly : Orderly graph query before now) :
    WellOrdered graph query (hookVisits now.2) (now.2.filter graph.declares) := by
  have kept {event : Event Node} (member : event ∈ now.2.filter graph.declares) : event ∈ now.2 :=
    (List.mem_filter.mp member).1
  have ordered : ((now.2.filter graph.declares).map (address query)).Pairwise (· < ·) :=
    orderly.ordered.sublist (List.filter_sublist.map _)
  refine ⟨?_, fun event member => orderly.entered event (kept member),
    fun event member => orderly.asked event (kept member), ?_, ordered, ?_⟩
  · intro visit member declared
    obtain ⟨names, refusal, called⟩ := mem_hookVisits_iff.mp member
    obtain rfl : names = requested (askedAt query visit.place) := orderly.asked _ called
    have isDeclared : ⟨visit, .hook (requested (askedAt query visit.place)) refusal⟩ ∈
        now.2.filter graph.declares := List.mem_filter.mpr ⟨called, declared⟩
    obtain ⟨earlier, later, split⟩ := List.append_of_mem isDeclared
    rw [split, List.map_append, List.map_cons, List.pairwise_append, List.pairwise_cons] at ordered
    obtain ⟨_, ⟨behind, _⟩, before⟩ := ordered
    refine ⟨earlier, refusal, later, split, ?_, ?_⟩
    · intro event member within
      have lt := before _ (List.mem_map_of_mem member) _ List.mem_cons_self
      rw [address_hook] at lt
      exact not_address_lt within lt
    · intro event member place isHook
      let hook : Event Node :=
        ⟨visit, .hook (requested (askedAt query visit.place)) refusal⟩
      have same : address query hook = address query event := address_eq place.symm isHook.symm
      have lt := behind _ (List.mem_map_of_mem member)
      rw [same] at lt
      exact List.lt_irrefl _ lt
  · rw [List.pairwise_map] at ordered
    apply ordered.imp
    intro first second lt place field
    rw [address_eq place field] at lt
    exact List.lt_irrefl _ lt
  · have places := orderly.ordered
    rw [List.pairwise_map] at places ⊢
    rw [hookVisits, List.pairwise_filterMap]
    apply places.imp
    intro first second lt outer isOuter inner isInner
    obtain ⟨_, _, rfl⟩ := hookVisit?_eq_some_iff.mp isOuter
    obtain ⟨_, _, rfl⟩ := hookVisit?_eq_some_iff.mp isInner
    rwa [address_hook, address_hook] at lt

/-- A hook that is not declared leaves the state alone. -/
theorem leaves_of_undeclared {event : Event Node} (undeclared : graph.declares event = false)
    (state : State) : graph.leaves state event = state := by
  obtain ⟨visit, call⟩ := event
  cases call with
  | scalar => cases undeclared
  | collection => cases undeclared
  | hook names refusal =>
      have noHook : (graph.view visit.node).hook = none :=
        Option.isNone_iff_eq_none.mp (by simpa [DataGraph.declares] using undeclared)
      rw [DataGraph.leaves, noHook]
      rfl

theorem replay_declared (graph : DataGraph State Node) (before : State)
    (events : List (Event Node)) :
    graph.replay before (events.filter graph.declares) = graph.replay before events := by
  induction events generalizing before with
  | nil => rfl
  | cons event events ih =>
      cases declared : graph.declares event with
      | true =>
          rw [List.filter_cons_of_pos declared]
          exact ih (graph.leaves before event)
      | false =>
          rw [List.filter_cons_of_neg (by rw [declared]; decide), ih]
          exact congrArg (graph.replay · events) (leaves_of_undeclared declared before).symm

theorem EndsRefused.declared {text : String} {now : Observed State Node}
    (refused : EndsRefused graph before text now) :
    EndsRefused graph before text (declaredOnly graph now) := by
  obtain ⟨earlier, visit, names, hook, calls, accepted, declared, ran⟩ := refused
  have last : graph.declares ⟨visit, .hook names (some text)⟩ = true := by
    rw [DataGraph.declares, declared, Option.isSome_some]
  refine ⟨earlier.filter graph.declares, visit, names, hook, ?_, ?_, declared, ?_⟩
  · rw [declaredOnly, calls, List.filter_append, List.filter_cons_of_pos last, List.filter_nil]
  · intro event member
    exact accepted event (List.mem_filter.mp member).1
  · rw [replay_declared]
    exact ran

/-- On the graph in which every node has a hook, an execution ends with the first refusal. -/
theorem refusals_watch (graph : DataGraph State Node) (limit : DepthLimit)
    (query : List Selection) (root : Node) (before : State) :
    let record := watch graph.hooked limit query root before
    (∀ text, record.1 = .error (.batchResolve text) → EndsRefused graph before text record.2) ∧
      ((∀ text, record.1 ≠ .error (.batchResolve text)) →
        ∀ event ∈ record.2.2, event.call.refusal? = none) := by
  intro record
  have ends := ends_execute graph limit query root before
  change Ends _ _ record at ends
  generalize record = ended at ends
  cases ends with
  | ok holds => exact ⟨nofun, fun _ => holds.2⟩
  | error stopped =>
      refine ⟨fun text refused => ?_, fun own => stopped.accepted fun text same => ?_⟩
      · cases refused
        exact stopped.refused text rfl
      · exact own text (congrArg Except.error same)

/-- The calls of an execution are those that the query asks for on the nodes that it enters, all
within the limit, in the order of the query and of the children. Hooks are called on exactly those
of the entered nodes that declare one. One after another the calls lead from the first state to the
last. If the execution ends because a hook refused, then that is the last call, its refusal is the
error, and the state is the one that it left; otherwise no hook refused. -/
theorem execute_recorded (graph : DataGraph State Node) (limit : DepthLimit)
    (query : List Selection) (root : Node) (before : State) :
    let result := (watch graph limit query root before).1
    let after := (watch graph limit query root before).2.1
    let calls := (watch graph limit query root before).2.2
    let entered := entries graph limit query root before
    (execute graph limit query root).outcome before = (result, after) ∧
      (∀ visit ∈ entered, limit.exceededBy visit.level = false) ∧
      hookVisits calls = entered.filter (fun visit => (graph.view visit.node).hook.isSome) ∧
      WellOrdered graph query entered calls ∧
      after = graph.replay before calls ∧
      (∀ text, result = .error (.batchResolve text) →
        EndsRefused graph before text (after, calls)) ∧
      ((∀ text, result ≠ .error (.batchResolve text)) →
        ∀ event ∈ calls, event.call.refusal? = none) := by
  intro result after calls entered
  obtain ⟨_, _, plain⟩ := watch_eq graph limit query root before
  obtain ⟨all, within, hooked⟩ := watch_eq graph.hooked limit query root before
  have seen := watch_eq_of_hooked graph limit query root before
  have areEntered : hookVisits (watch graph.hooked limit query root before).2.2 = entered :=
    hookVisits_watch_hooked graph limit query root before
  have isResult : result = (watch graph.hooked limit query root before).1 := by
    simp only [result, seen]
  have isAfter : after = (watch graph.hooked limit query root before).2.1 := by
    simp only [after, seen, declaredOnly]
  have areCalls : calls =
      (watch graph.hooked limit query root before).2.2.filter graph.declares := by
    simp only [calls, seen, declaredOnly]
  obtain ⟨refuses, accepts⟩ := refusals_watch graph limit query root before
  have orderly := orderly_execute graph limit query root before
  refine ⟨?_, ?_, hookVisits_watch graph limit query root before, ?_, ?_, ?_, ?_⟩
  · exact Prod.ext (congrArg Prod.fst plain).symm
      (congrArg (fun record => record.2.1) plain).symm
  · intro visit member
    rw [← areEntered] at member
    obtain ⟨names, refusal, called⟩ := mem_hookVisits_iff.mp member
    rw [hooked] at called
    exact within _ called
  · rw [areCalls, ← areEntered]
    exact orderly.wellOrdered
  · rw [areCalls, replay_declared, isAfter]
    exact orderly.replayed
  · intro text refused
    rw [isResult] at refused
    rw [isAfter, areCalls]
    exact (refuses text refused).declared
  · intro own event member
    rw [isResult] at own
    rw [areCalls] at member
    exact accepts own event (List.mem_filter.mp member).1

/-- A query that repeats a name, on a node whose second child refuses. -/
def repeatingQuery : List Selection :=
  [.leaf "name", .branch "pick" .empty [.leaf "name", .leaf "id"], .branch "name" .empty []]

def refusingVertex : Sample.Vertex :=
  .node (.mk 1 "parent" .null none none
    [.mk 2 "first" .null none none [] [], .mk 3 "second" .null none (some ⟨"*", "no"⟩) [] []] [])

theorem refusingVertex_recorded :
    let record := watch Sample.tree ⟨2⟩ repeatingQuery refusingVertex .empty
    record.1 = .error (.batchResolve "no") ∧
      record.2.2.map (address repeatingQuery) = [[], [0], [1], [1, 0], [1, 0, 0], [1, 1]] ∧
      EndsRefused Sample.tree .empty "no" record.2 ∧
      WellOrdered Sample.tree repeatingQuery
        (entries Sample.tree ⟨2⟩ repeatingQuery refusingVertex .empty) record.2.2 ∧
      (entries Sample.tree ⟨2⟩ repeatingQuery refusingVertex .empty).map Visit.place =
        [[], [("pick", 0)], [("pick", 1)]] := by
  intro record
  obtain ⟨_, _, _, wellOrdered, _, refused, _⟩ :=
    execute_recorded Sample.tree ⟨2⟩ repeatingQuery refusingVertex .empty
  have ended : record.1 = .error (.batchResolve "no") := rfl
  exact ⟨ended, rfl, refused "no" ended, wellOrdered, rfl⟩

end FieldQuery.Execution
