import FieldQuery.Proofs.Execution.CallOrder
import FieldQuery.Proofs.Films.Details

/-!
# Fields of the catalog graph

What catalogs, films and comments declare, by name. No resolver of the graph changes the context;
only the hook of a film does. The hook and the comments of a film are the two places where its part
number is computed, which is a fault if the film has the greatest number.
-/

set_option autoImplicit false

namespace FieldQuery.Films

open Query DataGraph Execution

def Catalog.supplied (catalog : Catalog) (arguments : Arguments) : List Item :=
  (resolveFilms arguments).getD (catalog.films.map .film)

theorem exists_film_of_supplied {catalog : Catalog} {arguments : Arguments} {item : Item}
    (member : item ∈ catalog.supplied arguments) : ∃ film, item = .film film := by
  unfold Catalog.supplied resolveFilms at member
  split at member
  · rw [List.mem_singleton.mp member]
    exact ⟨_, rfl⟩
  · split at member
    all_goals
      obtain ⟨film, _, rfl⟩ := List.mem_map.mp member
      exact ⟨film, rfl⟩

theorem field?_catalog (catalog : Catalog) (name : String) :
    (graph.view (.catalog catalog)).field? name =
      if name = "films" then
        some (.collection (catalog.films.map .film)
          (some fun arguments => pure (resolveFilms arguments)))
      else none := by
  have declared : catalogTable.declarations.get? name =
      if name = "films" then
        some (.collection (fun catalog => catalog.films.map .film)
          (some fun _ arguments => pure (resolveFilms arguments)))
      else none := Dict.get?_insert _ _ _ _
  change (catalogTable.declarations.get? name).map (Declaration.of catalog) = _
  rw [declared]
  split <;> rfl

/-- The comments of a film with its exact part number. -/
def Film.exactComments (film : Film) : List Comment := [
  ⟨"Spiderman fan", "Part " ++ Text.decimal (film.id.toInt + 1) ++ " is my favourite!"⟩,
  ⟨"Spiderman", "Aw, I have so many fans!"⟩]

/-- No film of an item has the greatest number, the only one without a part number. -/
def HasParts : Item → Prop
  | .catalog catalog => ∀ film ∈ catalog.films, film.id ≠ Int64.maxValue
  | .film film => film.id ≠ Int64.maxValue
  | .comment _ => True

theorem field?_film (film : Film) (name : String) :
    (graph.view (.film film)).field? name =
      if name ∈ detailFields then some (.scalar .null (some (prefetched name film)))
      else if name = "comments" then
        some (.collection (film.comments.map .comment) (some fun _ => givenComments film))
      else if name = "id" then some (.scalar (.integer film.id) none)
      else none := by
  change (filmTable.declarations.get? name).map (Declaration.of film) = _
  by_cases derived : name ∈ detailFields
  · rw [if_pos derived]
    simp only [detailFields, List.mem_cons, List.not_mem_nil, or_false] at derived
    rcases derived with rfl | rfl | rfl <;> rfl
  by_cases comments : name = "comments"
  · subst comments
    rfl
  by_cases id : name = "id"
  · subst id
    rfl
  rw [if_neg derived, if_neg comments, if_neg id]
  simp only [detailFields, List.mem_cons, List.not_mem_nil, or_false, not_or] at derived
  obtain ⟨notName, notDescription, notReleaseYear⟩ := derived
  simp only [filmTable, FieldTable.batchResolve, FieldTable.collectionWith, FieldTable.scalarWith,
    FieldTable.scalar, FieldTable.declare, FieldTable.empty, Dict.get?_insert, Dict.get?_empty,
    comments, id, notName, notDescription, notReleaseYear, if_false, Option.map_none]

theorem field?_comment (comment : Comment) (name : String) :
    (graph.view (.comment comment)).field? name =
      if name = "username" then some (.scalar (.string comment.username) none)
      else if name = "text" then some (.scalar (.string comment.text) none)
      else none := by
  change (commentTable.declarations.get? name).map (Declaration.of comment) = _
  by_cases username : name = "username"
  · subst username
    rfl
  by_cases text : name = "text"
  · subst text
    rfl
  rw [if_neg username, if_neg text]
  simp only [commentTable, FieldTable.scalar, FieldTable.declare, FieldTable.empty,
    Dict.get?_insert, Dict.get?_empty, username, text, if_false, Option.map_none]

/-- The fields of all items of the graph. -/
inductive Declares : Item → String → Field Store Item → Prop where
  | films {catalog : Catalog} :
      Declares (.catalog catalog) "films"
        (.collection (catalog.films.map .film)
          (some fun arguments => pure (resolveFilms arguments)))
  | detail {film : Film} {name : String} (derived : name ∈ detailFields) :
      Declares (.film film) name (.scalar .null (some (prefetched name film)))
  | comments {film : Film} :
      Declares (.film film) "comments"
        (.collection (film.comments.map .comment) (some fun _ => givenComments film))
  | id {film : Film} : Declares (.film film) "id" (.scalar (.integer film.id) none)
  | username {comment : Comment} :
      Declares (.comment comment) "username" (.scalar (.string comment.username) none)
  | text {comment : Comment} :
      Declares (.comment comment) "text" (.scalar (.string comment.text) none)

theorem declares_of_field? {item : Item} {name : String} {field : Field Store Item}
    (declared : (graph.view item).field? name = some field) : Declares item name field := by
  cases item with
  | catalog catalog =>
      rw [field?_catalog] at declared
      split at declared
      · next isFilms =>
          cases declared
          rw [isFilms]
          exact .films
      · cases declared
  | film film =>
      rw [field?_film] at declared
      split at declared
      · next derived =>
          cases declared
          exact .detail derived
      split at declared
      · next isComments =>
          cases declared
          rw [isComments]
          exact .comments
      split at declared
      · next isId =>
          cases declared
          rw [isId]
          exact .id
      · cases declared
  | comment comment =>
      rw [field?_comment] at declared
      split at declared
      · next isUsername =>
          cases declared
          rw [isUsername]
          exact .username
      split at declared
      · next isText =>
          cases declared
          rw [isText]
          exact .text
      · cases declared

theorem hook_film (film : Film) : (graph.view (.film film)).hook = some (prefetch film) := rfl

theorem hook_comment (comment : Comment) : (graph.view (.comment comment)).hook = none := rfl

theorem hook_catalog (catalog : Catalog) : (graph.view (.catalog catalog)).hook = none := rfl

/-! ## Steps -/

section

variable {α : Type} {step : Context → Except Fault (α × Context)} {context : Context}

theorem run_attempt_ok (otherwise : α) (step : Context → Except Fault (α × Context))
    (context : Context) :
    (attempt otherwise step).run (.ok context) =
      match step context with
      | .ok (value, after) => (value, .ok after)
      | .error fault => (otherwise, .error fault) := rfl

theorem attempt_of_ok {value : α} {after : Context} (ran : step context = .ok (value, after))
    (otherwise : α) : (attempt otherwise step).run (.ok context) = (value, .ok after) := by
  rw [run_attempt_ok, ran]

theorem attempt_of_error {fault : Fault} (failed : step context = .error fault) (otherwise : α) :
    (attempt otherwise step).run (.ok context) = (otherwise, .error fault) := by
  rw [run_attempt_ok, failed]

end

def Film.fetch (film : Film) (fields : List String) (context : Context) : Context :=
  if film.id < 0 then context else storeDetails (seedIn context) film.id fields context

/-- A change of the context for which the part number of a film is computed. -/
def Film.numbered (film : Film) (change : Context → Context) (store : Store) : Store :=
  store >>= fun context =>
    if film.id = Int64.maxValue then .error .sumOutOfRange else .ok (change context)

theorem numbered_of_below {film : Film} (below : film.id ≠ Int64.maxValue)
    (change : Context → Context) (store : Store) :
    film.numbered change store = store.map change := by
  cases store with
  | error fault => rfl
  | ok context => exact if_neg below

theorem numbered_ok_of_greatest {film : Film} (greatest : film.id = Int64.maxValue)
    (change : Context → Context) (context : Context) :
    film.numbered change (.ok context) = .error .sumOutOfRange := if_pos greatest

theorem ne_maxValue_of_negative {number : Int64} (negative : number < 0) :
    number ≠ Int64.maxValue := by
  rintro rfl
  exact absurd negative (by decide)

theorem run_storeAsked (film : Film) (fields : List String) (store : Store) :
    (storeAsked film fields).run store =
      ((), film.numbered (fun context => storeDetails (seedIn context) film.id fields context)
        store) := by
  cases store with
  | error fault => rfl
  | ok context =>
      by_cases greatest : film.id = Int64.maxValue
      · rw [numbered_ok_of_greatest greatest]
        apply attempt_of_error
        rw [greatest, partNumber_maxValue]
        rfl
      · obtain ⟨part, isPart, exact⟩ := partNumber_eq greatest
        rw [numbered_of_below greatest]
        apply attempt_of_ok
        rw [isPart]
        simp only [storeDerived_eq exact, bind, Except.bind, pure, Except.pure]

theorem run_prefetch (film : Film) (fields : List String) (store : Store) :
    (prefetch film fields).run.run store =
      (if film.id < 0 then
        .error ("film part " ++ Text.decimal (film.id.toInt + 1) ++ " does not exist")
      else .ok (), film.numbered (film.fetch fields) store) := by
  by_cases negative : film.id < 0
  · have unchanged : film.fetch fields = id := funext fun context => if_pos negative
    rw [prefetch, if_pos negative, if_pos negative,
      numbered_of_below (ne_maxValue_of_negative negative), unchanged, Except.map_id]
    rfl
  · have fetched : film.fetch fields = fun context =>
        storeDetails (seedIn context) film.id fields context :=
      funext fun context => if_neg negative
    rw [prefetch, if_neg negative, if_neg negative, fetched]
    exact congrArg (Prod.map Except.ok id) (run_storeAsked film fields store)

theorem resolveComments_eq {film : Film} (below : film.id ≠ Int64.maxValue) :
    resolveComments film = .ok film.exactComments := by
  obtain ⟨part, isPart, exact⟩ := partNumber_eq below
  rw [resolveComments, isPart, Film.exactComments, ← exact]
  rfl

theorem run_givenComments_ok {film : Film} (below : film.id ≠ Int64.maxValue)
    (context : Context) :
    (givenComments film).run (.ok context) =
      (.override (film.exactComments.map .comment), .ok context) := by
  apply attempt_of_ok
  rw [resolveComments_eq below]
  rfl

theorem state_givenComments (film : Film) (store : Store) :
    ((givenComments film).run store).2 = film.numbered id store := by
  cases store with
  | error fault => rfl
  | ok context =>
      by_cases greatest : film.id = Int64.maxValue
      · have failed : resolveComments film = .error .sumOutOfRange := by
          rw [resolveComments, greatest, partNumber_maxValue]
          rfl
        rw [numbered_ok_of_greatest greatest, givenComments, attempt_of_error]
        rw [failed]
        rfl
      · rw [run_givenComments_ok greatest, numbered_of_below greatest]
        rfl

/-- Whether they are given or stored, what a film has are comments. -/
theorem exists_comments_of_given (film : Film) (store : Store) :
    ∃ comments : List Comment,
      ((givenComments film).run store).1.getD (film.comments.map .comment) =
        comments.map .comment := by
  cases store with
  | error fault => exact ⟨film.comments, rfl⟩
  | ok context =>
      cases resolved : resolveComments film with
      | error fault =>
          refine ⟨film.comments, ?_⟩
          rw [givenComments, attempt_of_error (by rw [resolved]; rfl)]
          rfl
      | ok comments =>
          refine ⟨comments, ?_⟩
          rw [givenComments, attempt_of_ok (by rw [resolved]; rfl)]
          rfl

def childrenOf (arguments : Arguments) : Item → List Item
  | .catalog catalog => catalog.supplied arguments
  | .film film => film.exactComments.map .comment
  | .comment _ => []

/-- A collection gives the same children in every context, and leaves the context alone. -/
theorem run_supply_collection {item : Item} (parts : HasParts item) {name : String}
    {stored : List Item}
    {resolver : Option (Arguments → StateM Store (Resolution (List Item)))}
    (declared : (graph.view item).field? name = some (.collection stored resolver))
    (arguments : Arguments) (context : Context) :
    (supply stored (resolver.map fun resolve => resolve arguments)).run (.ok context) =
      (childrenOf arguments item, .ok context) := by
  cases declares_of_field? declared with
  | films => rfl
  | @comments film =>
      exact congrArg (Prod.map (Resolution.getD (film.comments.map Item.comment)) id)
        (run_givenComments_ok parts context)

section

variable {limit : DepthLimit} {path : Path} {depth : Nat} {selections : List Selection}

theorem enter_film (shallow : ¬ limit.exceededBy depth) (names : List String) (film : Film) :
    enter graph limit path depth names (.film film) =
      (prefetch film names).adapt ExecutionError.batchResolve := by
  rw [enter, if_neg shallow, hook_film]

/-- A film of a negative number is refused before anything is resolved on it. -/
theorem evalLevel_film_of_negative (shallow : ¬ limit.exceededBy depth) {film : Film}
    (negative : film.id < 0) :
    evalLevel graph limit path depth selections (.film film) =
      throw (.batchResolve
        ("film part " ++ Text.decimal (film.id.toInt + 1) ++ " does not exist")) := by
  rw [evalLevel, enter_film shallow, prefetch, if_pos negative]
  rfl

end

/-- A field whose resolver, if it has one, only looks at the shared state. -/
def Looks {State Node : Type} : Field State Node → Prop
  | .scalar _ (some resolver) => ∀ state, (resolver.run state).2 = state
  | .collection _ (some resolver) => ∀ arguments state, ((resolver arguments).run state).2 = state
  | .scalar _ none | .collection _ none => True

theorem state_prefetched (field : String) (film : Film) (store : Store) :
    ((prefetched field film).run store).2 = store := by
  cases store <;> rfl

theorem looks_of_declared {item : Item} (parts : HasParts item) {name : String}
    {field : Field Store Item} (declared : (graph.view item).field? name = some field) :
    Looks field := by
  cases declares_of_field? declared with
  | films => exact fun _ _ => rfl
  | @detail film _ _ => exact state_prefetched name film
  | comments =>
      intro _ store
      rw [state_givenComments, numbered_of_below parts, Except.map_id]
      rfl
  | id | username | text => trivial

end FieldQuery.Films
