import FieldQuery.Proofs.Execution.CallTraversal
import FieldQuery.Proofs.Films.PartNumbers
import Mathlib.Data.List.Induction

/-!
# What executions leave in the context

An execution on the catalog graph changes the context only under the keys of details of the films
that it enters, and there it leaves the details that the seed determines. This holds at all times,
so also when the execution fails. A film without a part number is a fault as soon as it is entered.
-/

set_option autoImplicit false

namespace FieldQuery.Films

open Query DataGraph Execution

/-- A context differs from an earlier one only in the details of visited films, which are those
that the earlier seed determines. -/
def Refreshed (before : Context) (visits : List (Visit Item)) (after : Context) : Prop :=
  ∀ key, after.get? key = before.get? key ∨
    ∃ visit ∈ visits, ∃ film field detail,
      visit.node = .film film ∧ 0 ≤ film.id ∧ key = detailKey film.id field ∧
        detail? (seedIn before) film.id field = some detail ∧ after.get? key = some detail

variable {before after : Context} {visits : List (Visit Item)}

theorem Refreshed.seed (refreshed : Refreshed before visits after) :
    after.get? "seed" = before.get? "seed" := by
  rcases refreshed "seed" with same | ⟨_, _, film, field, _, _, _, key, _⟩
  · exact same
  · exact absurd key.symm (detailKey_ne_seed film.id field)

theorem Refreshed.seedIn_eq (refreshed : Refreshed before visits after) :
    seedIn after = seedIn before := seedIn_congr refreshed.seed

theorem Refreshed.widen {wider : List (Visit Item)} (refreshed : Refreshed before visits after)
    (subset : ∀ visit ∈ visits, visit ∈ wider) : Refreshed before wider after := by
  intro key
  rcases refreshed key with same | ⟨visit, member, stored⟩
  · exact .inl same
  · exact .inr ⟨visit, subset visit member, stored⟩

/-- The hook of a film that is visited refreshes its details. -/
theorem Refreshed.fetch (refreshed : Refreshed before visits after) {visit : Visit Item}
    {film : Film} (isFilm : visit.node = .film film) (fields : List String) :
    Refreshed before (visits ++ [visit]) (film.fetch fields after) := by
  have widened : Refreshed before (visits ++ [visit]) after :=
    refreshed.widen fun other member => List.mem_append_left _ member
  rw [Film.fetch]
  split
  · exact widened
  · next exist =>
      intro key
      rcases get?_storeDetails (seedIn after) film.id fields after key with
        ⟨field, _, detail, own, derived, stored⟩ | ⟨_, kept⟩
      · rw [refreshed.seedIn_eq] at derived
        exact .inr ⟨visit, by simp, film, field, detail, isFilm, Int64.not_lt.mp exist, own,
          derived, stored⟩
      · rw [kept]
        exact widened key

/-! ## Calls -/

def overflows (event : Event Item) : Bool :=
  match event.visit.node, event.call with
  | .film film, .hook _ _ | .film film, .collection "comments" _ => film.id = Int64.maxValue
  | _, _ => false

/-- The context that a call leaves unless it overflows. Of all calls only that of the hook of a film
changes it. -/
def contextAfter (context : Context) (event : Event Item) : Context :=
  match event.visit.node, event.call with
  | .film film, .hook fields _ => film.fetch fields context
  | _, _ => context

def storeAfter (store : Store) (event : Event Item) : Store :=
  store >>= fun context =>
    if overflows event then .error .sumOutOfRange else .ok (contextAfter context event)

theorem storeAfter_of_quiet {event : Event Item} (quiet : overflows event = false)
    (unchanged : ∀ context, contextAfter context event = context) (store : Store) :
    storeAfter store event = store := by
  cases store with
  | error fault => rfl
  | ok context =>
      change (if overflows event = true then Except.error Fault.sumOutOfRange
        else Except.ok (contextAfter context event)) = _
      rw [quiet, unchanged]
      rfl

theorem storeAfter_of_film {event : Event Item} {film : Film}
    (same : overflows event = decide (film.id = Int64.maxValue)) {change : Context → Context}
    (changes : ∀ context, contextAfter context event = change context) (store : Store) :
    storeAfter store event = film.numbered change store := by
  simp only [storeAfter, same, changes, decide_eq_true_eq]
  rfl

theorem leaves_scalar (store : Store) (visit : Visit Item) (name : String) :
    graph.leaves store ⟨visit, .scalar name⟩ = store := by
  obtain ⟨item, place⟩ := visit
  simp only [DataGraph.leaves]
  split
  · next stored resolver declared =>
      cases declares_of_field? declared with
      | @detail film _ _ => exact state_prefetched name film store
  · rfl

theorem leaves_collection (store : Store) (visit : Visit Item) (name : String)
    (arguments : Arguments) :
    graph.leaves store ⟨visit, .collection name arguments⟩ =
      storeAfter store ⟨visit, .collection name arguments⟩ := by
  obtain ⟨item, place⟩ := visit
  by_cases comments : ∃ film, item = .film film ∧ name = "comments"
  · obtain ⟨film, rfl, rfl⟩ := comments
    rw [storeAfter_of_film rfl fun _ => rfl]
    exact state_givenComments film store
  have quiet : overflows ⟨⟨item, place⟩, .collection name arguments⟩ = false := by
    unfold overflows
    split
    · next isHook => cases isHook
    · next film _ isFilm isComments =>
        cases isComments
        exact absurd ⟨film, isFilm, rfl⟩ comments
    · rfl
  have unchanged (context : Context) :
      contextAfter context ⟨⟨item, place⟩, .collection name arguments⟩ = context := by
    cases item <;> rfl
  rw [storeAfter_of_quiet quiet unchanged]
  simp only [DataGraph.leaves]
  split
  · next stored resolver declared =>
      cases declares_of_field? declared with
      | films => rfl
      | @comments film => exact absurd ⟨film, rfl, rfl⟩ comments
  · rfl

theorem leaves_eq (store : Store) (event : Event Item) :
    graph.leaves store event = storeAfter store event := by
  obtain ⟨⟨item, place⟩, call⟩ := event
  cases call with
  | hook fields refusal =>
      cases item with
      | catalog catalog => exact (storeAfter_of_quiet rfl (fun _ => rfl) store).symm
      | film film =>
          rw [storeAfter_of_film rfl fun _ => rfl]
          exact congrArg Prod.snd (run_prefetch film fields store)
      | comment comment => exact (storeAfter_of_quiet rfl (fun _ => rfl) store).symm
  | scalar name =>
      have quiet : overflows ⟨⟨item, place⟩, .scalar name⟩ = false := by
        cases item <;> rfl
      have unchanged (context : Context) :
          contextAfter context ⟨⟨item, place⟩, .scalar name⟩ = context := by
        cases item <;> rfl
      rw [storeAfter_of_quiet quiet unchanged]
      exact leaves_scalar store ⟨item, place⟩ name
  | collection name arguments => exact leaves_collection store ⟨item, place⟩ name arguments

theorem replay_eq (context : Context) (events : List (Event Item)) :
    graph.replay (.ok context) events =
      if events.any overflows then .error .sumOutOfRange
      else .ok (events.foldl contextAfter context) := by
  have stays (events : List (Event Item)) :
      graph.replay (.error .sumOutOfRange) events = .error .sumOutOfRange := by
    induction events with
    | nil => rfl
    | cons event events ih =>
        have first : graph.replay (.error .sumOutOfRange) (event :: events) =
            graph.replay (graph.leaves (.error .sumOutOfRange) event) events := rfl
        rw [first, leaves_eq]
        exact ih
  induction events generalizing context with
  | nil => rfl
  | cons event events ih =>
      have first : graph.replay (.ok context) (event :: events) =
          graph.replay (graph.leaves (.ok context) event) events := rfl
      have left : graph.leaves (.ok context) event =
          if overflows event then .error .sumOutOfRange
          else .ok (contextAfter context event) := leaves_eq (.ok context) event
      rw [first, left, List.any_cons, List.foldl_cons]
      cases overflows event with
      | true => exact stays events
      | false => exact ih (contextAfter context event)

theorem refreshed_foldl (before : Context) (events : List (Event Item)) :
    Refreshed before (hookVisits events) (events.foldl contextAfter before) := by
  induction events using List.reverseRecOn with
  | nil => exact fun _ => .inl rfl
  | append_singleton events event ih =>
      rw [List.foldl_append, List.foldl_cons, List.foldl_nil, hookVisits_append, contextAfter]
      split
      · next film fields refusal isFilm isHook =>
          obtain ⟨visit, call⟩ := event
          cases isHook
          exact ih.fetch isFilm fields
      · exact ih.widen fun visit member => List.mem_append_left _ member

/-! ## Executions -/

/-- The node is the film without a part number. -/
def IsGreatest (item : Item) : Prop := ∃ film, item = .film film ∧ film.id = Int64.maxValue

/-- Of calls on entered films, one overflows exactly if a film without a part number is entered. -/
theorem any_overflows_iff {events : List (Event Item)}
    (entered : ∀ event ∈ events, event.visit ∈ hookVisits events) :
    events.any overflows = true ↔ ∃ visit ∈ hookVisits events, IsGreatest visit.node := by
  rw [List.any_eq_true]
  constructor
  · rintro ⟨event, member, overflow⟩
    refine ⟨event.visit, entered event member, ?_⟩
    unfold overflows at overflow
    split at overflow
    · next film _ _ isFilm _ => exact ⟨film, isFilm, of_decide_eq_true overflow⟩
    · next film _ isFilm _ => exact ⟨film, isFilm, of_decide_eq_true overflow⟩
    · cases overflow
  · rintro ⟨⟨item, place⟩, member, film, rfl, greatest⟩
    obtain ⟨names, refusal, called⟩ := mem_hookVisits_iff.mp member
    exact ⟨_, called, decide_eq_true greatest⟩

/-- An execution on the graph meets a fault exactly if it enters a film without a part number.
Otherwise, whether it succeeds or fails, it leaves a context with refreshed details of the films
that it entered, and nothing else in the context changes. -/
theorem store_execute (limit : DepthLimit) (selections : List Selection) (root : Item)
    (before : Context) :
    let store := ((execute graph limit selections root).outcome (.ok before)).2
    let visits := entries graph limit selections root (.ok before)
    ((∃ visit ∈ visits, IsGreatest visit.node) ∧ store = .error .sumOutOfRange) ∨
      (∀ visit ∈ visits, ¬ IsGreatest visit.node) ∧
        ∃ after, store = .ok after ∧ Refreshed before visits after := by
  intro store visits
  let events := (watch graph.hooked limit selections root (.ok before)).2.2
  have areVisits : hookVisits events = visits :=
    hookVisits_watch_hooked graph limit selections root (.ok before)
  have orderly := orderly_execute graph limit selections root (.ok before)
  have overflow_iff : events.any overflows = true ↔ ∃ visit ∈ visits, IsGreatest visit.node := by
    rw [any_overflows_iff fun event member => (orderly.entered event member).1, areVisits]
  have left : store = graph.replay (.ok before) events :=
    state_eq_replay graph limit selections root (.ok before)
  rw [replay_eq] at left
  cases overflow : events.any overflows with
  | true =>
      rw [overflow] at left
      exact .inl ⟨overflow_iff.mp overflow, left⟩
  | false =>
      rw [overflow] at left
      refine .inr ⟨fun visit member greatest => ?_, _, left, ?_⟩
      · rw [overflow_iff.mpr ⟨visit, member, greatest⟩] at overflow
        cases overflow
      · rw [← areVisits]
        exact refreshed_foldl before events

theorem not_isGreatest_of_hasParts {item : Item} (parts : HasParts item) : ¬ IsGreatest item := by
  rintro ⟨film, rfl, greatest⟩
  exact parts greatest

/-- Where all films have part numbers, an execution always leaves a context. -/
theorem refreshed_execute {root : Item} (parts : HasParts root) (limit : DepthLimit)
    (selections : List Selection) (before : Context) :
    ∃ after, ((execute graph limit selections root).outcome (.ok before)).2 = .ok after ∧
      Refreshed before (entries graph limit selections root (.ok before)) after := by
  rcases store_execute limit selections root before with ⟨⟨visit, member, greatest⟩, _⟩ | ⟨_, left⟩
  · have hasParts := kind_of_mem_entries closed_hasParts parts limit selections _ visit member
    exact absurd greatest (not_isGreatest_of_hasParts hasParts)
  · exact left

end FieldQuery.Films
