import FieldQuery.Proofs.Entries
import FieldQuery.Proofs.Execution.Determined
import FieldQuery.Proofs.Films.SeededFilms

/-!
# Executing a query again

What an execution on the catalog graph does is determined by the seed: how it ends, and which
details of films it lays over the context. The seed itself is never touched. So the same query, in
the context that its execution left, ends alike and changes nothing, also after a failure.
-/

set_option autoImplicit false

namespace FieldQuery.Films

open Query DataGraph Execution
open FieldQuery.Execution.Computation

/-- A change that lays values over a context, none of them over the seed. -/
def Overlays (change : Store → Store) : Prop :=
  ∃ stored : Context, stored.get? "seed" = none ∧ change = Except.map stored.union

def Stays (change : Store → Store) : Prop := change = id

theorem overlays_of_stays {change : Store → Store} (stays : Stays change) : Overlays change := by
  refine ⟨.empty, rfl, stays.trans ?_⟩
  funext store
  cases store <;> rfl

theorem composable_overlays (seed : Int64) : Composable (Seeded seed) Overlays where
  none := overlays_of_stays rfl
  both := by
    rintro _ _ ⟨first, firstSeed, rfl⟩ ⟨second, secondSeed, rfl⟩
    refine ⟨second.union first, ?_, ?_⟩
    · rw [Dict.get?_union, firstSeed, secondSeed, Option.or_none]
    · funext store
      cases store with
      | error fault => rfl
      | ok context => exact congrArg Except.ok (Dict.union_assoc second first context).symm
  keeps := by
    rintro _ ⟨stored, noSeed, rfl⟩ _ ⟨context, rfl, rfl⟩
    refine ⟨stored.union context, rfl, ?_⟩
    apply seedIn_congr
    rw [Dict.get?_union, noSeed, Option.none_or]

theorem composable_stays (condition : Store → Prop) : Composable condition Stays where
  none := rfl
  both := by
    rintro _ _ rfl rfl
    rfl
  keeps := by
    rintro _ rfl store holds
    exact holds

theorem storeDetails_union (seed film : Int64) (fields : List String) (stored context : Context) :
    storeDetails seed film fields (stored.union context) =
      (storeDetails seed film fields stored).union context := by
  induction fields generalizing stored with
  | nil => rfl
  | cons field fields ih =>
      have first : storeDetails seed film [field] (stored.union context) =
          (storeDetails seed film [field] stored).union context := by
        simp only [storeDetails, List.foldl_cons, List.foldl_nil]
        cases detail? seed film field with
        | none => rfl
        | some detail => exact (Dict.insert_union _ _ _ _).symm
      rw [storeDetails_cons, first, ih, ← storeDetails_cons]

theorem overlays_storeDetails (seed film : Int64) (fields : List String) :
    Overlays (Except.map (storeDetails seed film fields)) := by
  refine ⟨storeDetails seed film fields .empty, get?_storeDetails_seed _ _ _ _, ?_⟩
  congr 1
  funext context
  rw [← storeDetails_union, Dict.empty_union]

variable {limit : DepthLimit} {path : Path} {depth : Nat} {selections : List Selection}

/-! ## Comments -/

theorem determined_evalLevel_comment (condition : Store → Prop) (comment : Comment) :
    Determined condition Stays
      (evalLevel graph limit path depth selections (.comment comment)) := by
  have composable := composable_stays condition
  apply determined_evalLevel composable (hook_comment comment)
  intro selection _
  apply determined_evalSelection composable selection
  · intro stored resolver declared
    generalize selection.name = name at declared
    cases declares_of_field? declared with
    | username | text => exact ⟨_, fun _ _ => rfl⟩
  · intro name arguments nested stored resolver _ declared
    nomatch declares_of_field? declared

/-! ## Films -/

/-- A context that holds those of the fields of a film that are details of it. -/
def Holds (seed film : Int64) (fields : List String) (store : Store) : Prop :=
  ∃ context, store = .ok context ∧
    ∀ field ∈ fields, ∀ detail, detail? seed film field = some detail →
      context.get? (detailKey film field) = some detail

section

variable {film : Film} (parts : HasParts (.film film))
include parts

theorem determined_evalSelection_film (seed : Int64) {fields : List String}
    (selection : Selection) (told : selection.name ∈ fields) :
    Determined (Holds seed film.id fields) Stays
      (evalSelection graph limit path depth (.film film) selection) := by
  apply determined_evalSelection (composable_stays _) selection
  · intro stored resolver declared
    generalize selection.name = name at told declared
    cases declares_of_field? declared with
    | detail derived =>
        obtain ⟨detail, own⟩ := Option.isSome_iff_exists.mp (isSome_detail?_iff.mpr derived)
        refine ⟨detail, ?_⟩
        rintro _ ⟨context, rfl, holds⟩
        have found := holds name told detail own
        change ((Resolution.ofOption (context.get? (detailKey film.id name))).getD .null,
          Except.ok context) = _
        rw [found]
        rfl
    | id => exact ⟨_, fun _ _ => rfl⟩
  · intro name arguments nested stored resolver _ declared
    refine ⟨film.exactComments.map .comment, ?_, ?_⟩
    · rintro _ ⟨context, rfl, _⟩
      exact run_supply_collection parts declared arguments context
    · rw [List.forall_mem_map]
      intro comment _
      exact determined_evalLevel_comment _ comment

theorem determined_evalLevel_film (seed : Int64) :
    Determined (Seeded seed) Overlays
      (evalLevel graph limit path depth selections (.film film)) := by
  have stays : Overlays id := overlays_of_stays rfl
  by_cases exceeded : limit.exceededBy depth
  · rw [evalLevel_of_exceeded exceeded]
    exact determined_throw stays _
  by_cases negative : film.id < 0
  · rw [evalLevel_film_of_negative exceeded negative]
    exact determined_throw stays _
  -- The hook stores the details asked for, wherever the seed is the same.
  have entering : Determined (Seeded seed)
      (· = Except.map (storeDetails seed film.id (requested selections)))
      (enter graph limit path depth (requested selections) (.film film)) := by
    rw [enter_film exceeded]
    apply determined_adapt
    · exact rfl
    rintro _ ⟨context, rfl, rfl⟩
    rw [run_prefetch, if_neg negative, numbered_of_below parts, Except.map, Film.fetch,
      if_neg negative]
    rfl
  -- The selections then read these details and change nothing.
  have each (selection : Selection) (member : selection ∈ selections) :
      Determined (Holds seed film.id (requested selections)) Stays
        (evalSelection graph limit path depth (.film film) selection) := by
    apply determined_evalSelection_film parts
    rw [requested, List.mem_eraseDups]
    exact List.mem_map_of_mem member
  have reading := determined_evalSelections (composable_stays _) [] each
  rw [evalLevel]
  apply entering.andThen
  · rintro ⟨⟩
    apply reading.bind (composable_stays _)
    intro members
    exact determined_pure (show Stays id from rfl) (Value.ofDict members)
  · rintro _ rfl _ ⟨context, rfl, _⟩
    refine ⟨_, rfl, ?_⟩
    intro field member detail derived
    exact get?_storeDetails_detailKey member derived context
  · rintro _ rfl
    exact overlays_storeDetails seed film.id (requested selections)
  · rintro _ _ rfl rfl
    exact overlays_storeDetails seed film.id (requested selections)

end

/-! ## Catalogs -/

theorem determined_evalLevel_catalog (seed : Int64) {catalog : Catalog}
    (parts : HasParts (.catalog catalog)) :
    Determined (Seeded seed) Overlays
      (evalLevel graph limit path depth selections (.catalog catalog)) := by
  have composable := composable_overlays seed
  apply determined_evalLevel composable (hook_catalog catalog)
  intro selection _
  apply determined_evalSelection composable selection
  · intro stored resolver declared
    generalize selection.name = name at declared
    nomatch declares_of_field? declared
  · intro name arguments nested stored resolver _ declared
    refine ⟨catalog.supplied arguments, ?_, ?_⟩
    · rintro _ ⟨context, rfl, _⟩
      exact run_supply_collection parts declared arguments context
    · intro child member
      have partsChild := hasParts_of_supplied parts member
      obtain ⟨film, rfl⟩ := exists_film_of_supplied member
      exact determined_evalLevel_film partsChild seed

theorem determined_evalLevel_item (seed : Int64) {item : Item} (parts : HasParts item) :
    Determined (Seeded seed) Overlays (evalLevel graph limit path depth selections item) := by
  cases item with
  | catalog catalog => exact determined_evalLevel_catalog seed parts
  | film film => exact determined_evalLevel_film parts seed
  | comment comment =>
      exact (determined_evalLevel_comment _ comment).mono (fun _ => id) fun _ => overlays_of_stays

/-- A query that is executed on the graph again, in the context that its execution left, ends in the
same way and leaves the same context, whether it succeeded or failed. -/
theorem execute_again (limit : DepthLimit) (selections : List Selection) {root : Item}
    (parts : HasParts root) (before : Context) :
    ∃ result after,
      (execute graph limit selections root).outcome (.ok before) = (result, .ok after) ∧
        (execute graph limit selections root).outcome (.ok after) = (result, .ok after) := by
  have determined : Determined (Seeded (seedIn before)) Overlays
      (execute graph limit selections root) := determined_evalLevel_item (seedIn before) parts
  obtain ⟨after, left, _⟩ := refreshed_execute parts limit selections before
  have first : (execute graph limit selections root).outcome (.ok before) =
      (((execute graph limit selections root).outcome (.ok before)).1, .ok after) :=
    Prod.ext rfl left
  have again := determined.again (composable_overlays _) ?_ ⟨before, rfl, rfl⟩
  · rw [left] at again
    exact ⟨_, after, first, again.trans first⟩
  · rintro _ ⟨stored, _, rfl⟩ store
    cases store with
    | error fault => rfl
    | ok context => exact congrArg Except.ok (Dict.union_union_self stored context)

/-- A query that fails on the second film, which does not exist. -/
def interruptedQuery : List Selection := [.branch "films" .empty [.leaf "name"]]

def interruptedCatalog : Catalog := ⟨[.ofId 0, .ofId (-1), .ofId 1]⟩

theorem execute_again_interruptedCatalog :
    HasParts (.catalog interruptedCatalog) ∧
      ∃ after,
        (execute graph .unlimited interruptedQuery (.catalog interruptedCatalog)).outcome
            (.ok outdatedContext) =
          (.error (.batchResolve "film part 0 does not exist"), .ok after) ∧
        after.get? "film:0:name" = some (.string "Spiderman 1. Spider vs. fly") ∧
        (execute graph .unlimited interruptedQuery (.catalog interruptedCatalog)).outcome
            (.ok after) =
          (.error (.batchResolve "film part 0 does not exist"), .ok after) := by
  have parts : HasParts (.catalog interruptedCatalog) := by
    rw [HasParts]
    decide
  obtain ⟨result, after, first, again⟩ :=
    execute_again .unlimited interruptedQuery parts outdatedContext
  have ended : ((execute graph .unlimited interruptedQuery (.catalog interruptedCatalog)).outcome
      (.ok outdatedContext)).1 = .error (.batchResolve "film part 0 does not exist") := rfl
  have left : ((execute graph .unlimited interruptedQuery (.catalog interruptedCatalog)).outcome
      (.ok outdatedContext)).2.toOption.bind (fun context => context.get? "film:0:name") =
        some (.string "Spiderman 1. Spider vs. fly") := rfl
  rw [first] at ended left
  rw [← ended]
  exact ⟨parts, after, first, left, again⟩

end FieldQuery.Films
