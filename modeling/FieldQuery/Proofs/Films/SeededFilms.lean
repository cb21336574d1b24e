import FieldQuery.Proofs.Execution.Shape
import FieldQuery.Proofs.Films.Refreshing
import Mathlib.Data.List.Forall2

/-!
# Films of a seed

The details of films in results. A film is entered with the names asked for, its hook stores their
details, and its fields read them back before anything else touches the context. So results show
what the seed determines, whatever the context held and whatever else was asked for.
-/

set_option autoImplicit false

namespace FieldQuery.Films

open Query DataGraph Execution

/-- The object of a film shows exactly the details asked for, as the seed determines them. -/
structure ShowsDetails (seed : Int64) (selections : List Selection) (film : Film)
    (members : Dict Value) : Prop where
  exist : 0 ≤ film.id
  details : ∀ field ∈ detailFields,
    members.get? field =
      if field ∈ selections.map Selection.name then detail? seed film.id field else none

def ShowsFilm (seed : Int64) (selections : List Selection) (item : Item) (value : Value) : Prop :=
  ∃ film members, item = .film film ∧ value = .ofDict members ∧
    ShowsDetails seed selections film members

/-- A value is the object of a catalog: films are all that it can hold. -/
def ShowsCatalog (seed : Int64) (selections : List Selection) (catalog : Catalog)
    (value : Value) : Prop :=
  ∃ members, value = .ofDict members ∧
    ∀ name found, members.get? name = some found →
      name = "films" ∧
        ∃ arguments nested items,
          selections.find? (fun selection => selection.name == name) =
              some (.branch name arguments nested) ∧
            found = .array items ∧
            List.Forall₂ (ShowsFilm seed nested) (catalog.supplied arguments) items

def Seeded (seed : Int64) (store : Store) : Prop :=
  ∃ context, store = .ok context ∧ seedIn context = seed

/-! ## Calls that only look -/

section Looking

variable {node : Item} {before after : Store}

theorem state_of_gives {α : Type} {stored value : α}
    {resolver : Option (StateM Store (Resolution α))}
    (looks : ∀ run ∈ resolver, ∀ state, (StateT.run run state).2 = state)
    (given : Gives stored resolver before value after) : after = before := by
  cases given with
  | plain => rfl
  | override resolved | useStored resolved =>
      rw [← looks _ rfl before]
      exact (congrArg Prod.snd resolved).symm

theorem state_of_gives_scalar (parts : HasParts node) {name : String} {stored value : Value}
    {resolver : Option (StateM Store (Resolution Value))}
    (declared : (graph.view node).field? name = some (.scalar stored resolver))
    (given : Gives stored resolver before value after) : after = before := by
  have looks := looks_of_declared parts declared
  apply state_of_gives _ given
  intro run isResolver state
  cases isResolver
  exact looks state

theorem state_of_gives_collection (parts : HasParts node) {name : String}
    {stored children : List Item}
    {resolver : Option (Arguments → StateM Store (Resolution (List Item)))}
    (declared : (graph.view node).field? name = some (.collection stored resolver))
    {arguments : Arguments}
    (given : Gives stored (resolver.map fun resolve => resolve arguments) before children after) :
    after = before := by
  have looks := looks_of_declared parts declared
  apply state_of_gives _ given
  intro run isResolver state
  obtain ⟨resolve, present, applied⟩ := Option.map_eq_some_iff.mp isResolver
  cases present
  cases applied
  exact looks arguments state

theorem value_of_gives {α : Type} {stored value : α} {resolver : StateM Store (Resolution α)}
    (given : Gives stored (some resolver) before value after) :
    value = (resolver.run before).1.getD stored := by
  cases given with
  | override resolved | useStored resolved =>
      rw [resolved]
      rfl

theorem state_of_enters {names : List String} (without : (graph.view node).hook = none)
    (entered : Enters (graph.view node) names before after) : after = before := by
  cases entered with
  | free _ => rfl
  | passed declared accepted =>
      rw [without] at declared
      cases declared

section Invariants

variable {holds : Store → Prop}
  (keeps : ∀ selection value before after, holds before →
    Answers graph node selection before value after → holds after)
include keeps

theorem holds_of_allAnswer {selections : List Selection} {answers : List (String × Value)}
    (start : holds before) (answered : AllAnswer graph node selections before answers after) :
    holds after := by
  induction selections generalizing before answers with
  | nil =>
      cases answered
      exact start
  | cons selection selections ih =>
      cases answered with
      | cons first rest => exact ih (keeps _ _ _ _ start first) rest

/-- Every answer is given in a state in which what all answers keep still holds. -/
theorem answers_of_lookup {selections : List Selection} {answers : List (String × Value)}
    (start : holds before) (answered : AllAnswer graph node selections before answers after)
    {name : String} {value : Value} (found : answers.lookup name = some value) :
    ∃ selection ∈ selections, selection.name = name ∧
      ∃ entry exit, holds entry ∧ Answers graph node selection entry value exit := by
  induction selections generalizing before answers with
  | nil =>
      cases answered
      cases found
  | cons selection selections ih =>
      cases answered with
      | cons first rest =>
          rw [Entries.lookup_cons_pair] at found
          split at found
          · next own =>
              cases found
              exact ⟨selection, List.mem_cons_self, own.symm, _, _, start, first⟩
          · obtain ⟨later, member, rest⟩ := ih (keeps _ _ _ _ start first) rest found
            exact ⟨later, List.mem_cons_of_mem _ member, rest⟩

end Invariants

end Looking

/-! ## Comments -/

section Comments

variable {comment : Comment} {before after : Store}

theorem state_of_answers_comment (selection : Selection) (value : Value)
    (answer : Answers graph (.comment comment) selection before value after) :
    after = before := by
  cases answer with
  | leaf declared given =>
      have parts : HasParts (.comment comment) := trivial
      exact state_of_gives_scalar parts declared given
  | branch declared given elements => nomatch declares_of_field? declared

theorem state_of_shaped_comment {selections : List Selection} {item : Value}
    (shaped : Shaped graph (.comment comment) selections before item after) : after = before := by
  cases shaped with
  | object entered answered keys values =>
      have keeps (selection : Selection) (value : Value) (entry exit : Store)
          (same : before = entry)
          (answer : Answers graph (.comment comment) selection entry value exit) :
          before = exit :=
        same.trans (state_of_answers_comment selection value answer).symm
      have atStart := state_of_enters (hook_comment comment) entered
      exact (holds_of_allAnswer keeps atStart.symm answered).symm

theorem state_of_elements_comments {selections : List Selection} {comments : List Comment}
    {items : List Value}
    (elements : Elements graph selections (comments.map .comment) before items after) :
    after = before := by
  induction comments generalizing before items with
  | nil =>
      cases elements
      rfl
  | cons comment comments ih =>
      cases elements with
      | cons first rest => rw [ih rest, state_of_shaped_comment first]

end Comments

/-! ## Films -/

section Films

variable {film : Film} {before after : Store}

/-- No selection on a film changes the context; all changes are those of its hook. -/
theorem state_of_answers_film (parts : HasParts (.film film)) (selection : Selection)
    (value : Value) (answer : Answers graph (.film film) selection before value after) :
    after = before := by
  cases answer with
  | leaf declared given => exact state_of_gives_scalar parts declared given
  | branch declared given elements =>
      have kept := state_of_gives_collection parts declared given
      rw [kept] at elements
      cases declares_of_field? declared with
      | comments =>
          obtain ⟨comments, areComments⟩ := exists_comments_of_given film before
          rw [value_of_gives given, areComments] at elements
          exact state_of_elements_comments elements

variable {context : Context}

theorem value_of_gives_prefetched {field : String} {value : Value}
    (given : Gives .null (some (prefetched field film)) (.ok context) value after) :
    value = (context.get? (detailKey film.id field)).getD .null := by
  rw [value_of_gives given]
  change (Resolution.ofOption (context.get? (detailKey film.id field))).getD .null = _
  cases context.get? (detailKey film.id field) <;> rfl

theorem value_of_answers_detail {selection : Selection} (derived : selection.name ∈ detailFields)
    {value : Value} (answer : Answers graph (.film film) selection (.ok context) value after) :
    value = (context.get? (detailKey film.id selection.name)).getD .null := by
  cases answer with
  | leaf declared given =>
      rw [Selection.name] at derived
      rw [field?_film, if_pos derived] at declared
      cases declared
      exact value_of_gives_prefetched given
  | branch declared given elements =>
      rw [Selection.name] at derived
      rw [field?_film, if_pos derived] at declared
      cases declared

/-- Entering a film stores the details asked for; a film that does not exist is not entered. -/
theorem stored_of_enters_film (parts : HasParts (.film film)) {names : List String}
    (entered : Enters (graph.view (.film film)) names (.ok context) after) :
    0 ≤ film.id ∧ after = .ok (storeDetails (seedIn context) film.id names context) := by
  cases entered with
  | free without =>
      rw [hook_film] at without
      cases without
  | passed declared accepted =>
      rw [hook_film] at declared
      cases declared
      rw [run_prefetch, numbered_of_below parts, Except.map, Film.fetch] at accepted
      split at accepted
      · cases accepted
      · next exist =>
          cases accepted
          exact ⟨Int64.not_lt.mp exist, rfl⟩

/-- Behind the hook of a film the answer to a detail that was asked for is that of the seed. -/
theorem detail?_of_lookup (parts : HasParts (.film film)) {seed : Int64} {names : List String}
    {selections : List Selection} {answers : List (String × Value)}
    (answered : AllAnswer graph (.film film) selections
      (.ok (storeDetails seed film.id names context)) answers after)
    {field : String} (derived : field ∈ detailFields) (told : field ∈ names) {value : Value}
    (found : answers.lookup field = some value) : detail? seed film.id field = some value := by
  have keeps (selection : Selection) (value : Value) (entry exit : Store)
      (same : entry = .ok (storeDetails seed film.id names context))
      (answer : Answers graph (.film film) selection entry value exit) :
      exit = .ok (storeDetails seed film.id names context) :=
    (state_of_answers_film parts selection value answer).trans same
  obtain ⟨selection, _, named, entry, exit, rfl, answer⟩ :=
    answers_of_lookup keeps rfl answered found
  obtain ⟨detail, determined⟩ := Option.isSome_iff_exists.mp (isSome_detail?_iff.mpr derived)
  subst named
  rw [value_of_answers_detail derived answer, get?_storeDetails_detailKey told determined,
    determined, Option.getD_some]

theorem showsFilm_of_shaped (parts : HasParts (.film film)) {selections : List Selection}
    {item : Value} (shaped : Shaped graph (.film film) selections (.ok context) item after) :
    ShowsFilm (seedIn context) selections (.film film) item ∧ Seeded (seedIn context) after := by
  cases shaped with
  | @object _ _ members answers _ between _ entered answered keys values =>
      obtain ⟨exist, rfl⟩ := stored_of_enters_film parts entered
      refine ⟨⟨film, members, rfl, rfl, exist, ?_⟩, ?_⟩
      · intro field derived
        have present : (members.get? field).isSome ↔ field ∈ selections.map Selection.name :=
          Entries.isSome_lookup_iff.trans (keys field)
        split
        · next asked =>
            obtain ⟨value, found⟩ := Option.isSome_iff_exists.mp (present.mpr asked)
            have answer : answers.lookup field = some value := (values field).symm.trans found
            rw [found,
              detail?_of_lookup parts answered derived (List.mem_eraseDups.mpr asked) answer]
        · next unasked =>
            rw [← present] at unasked
            exact Option.not_isSome_iff_eq_none.mp unasked
      · apply holds_of_allAnswer _ _ answered
        · intro selection value entry exit seeded answer
          rwa [state_of_answers_film parts selection value answer]
        · exact ⟨_, rfl, seedIn_congr (get?_storeDetails_seed _ _ _ _)⟩

theorem showsFilm_of_elements {selections : List Selection} {children : List Item}
    (films : ∀ child ∈ children, ∃ film, child = .film film)
    (parts : ∀ child ∈ children, HasParts child) {seed : Int64} (seeded : Seeded seed before)
    {items : List Value} (elements : Elements graph selections children before items after) :
    List.Forall₂ (ShowsFilm seed selections) children items ∧ Seeded seed after := by
  induction children generalizing before items with
  | nil =>
      cases elements
      exact ⟨.nil, seeded⟩
  | cons child children ih =>
      obtain ⟨⟨film, rfl⟩, others⟩ := List.forall_mem_cons.mp films
      obtain ⟨part, otherParts⟩ := List.forall_mem_cons.mp parts
      cases elements with
      | cons first rest =>
          obtain ⟨context, rfl, rfl⟩ := seeded
          obtain ⟨shows, kept⟩ := showsFilm_of_shaped part first
          obtain ⟨following, alsoKept⟩ := ih others otherParts kept rest
          exact ⟨.cons shows following, alsoKept⟩

end Films

/-! ## Catalogs -/

section Catalogs

variable {catalog : Catalog} {before after : Store}

theorem branch_of_answers_catalog {selection : Selection} {value : Value}
    (answer : Answers graph (.catalog catalog) selection before value after) :
    ∃ arguments nested items,
      selection = .branch "films" arguments nested ∧ value = .array items ∧
        Elements graph nested (catalog.supplied arguments) before items after := by
  cases answer with
  | leaf declared given => nomatch declares_of_field? declared
  | @branch _ name arguments nested _ children _ items _ between _ declared given elements =>
      cases declares_of_field? declared with
      | films =>
          have supplied : children = catalog.supplied arguments := value_of_gives given
          have kept : between = before := by
            apply state_of_gives _ given
            rintro _ ⟨⟩ _
            rfl
          subst kept supplied
          exact ⟨arguments, nested, items, rfl, rfl, elements⟩

theorem showsFilm_of_answers_catalog (parts : HasParts (.catalog catalog)) {selection : Selection}
    {value : Value} {seed : Int64} (seeded : Seeded seed before)
    (answer : Answers graph (.catalog catalog) selection before value after) :
    (∃ arguments nested items,
        selection = .branch "films" arguments nested ∧ value = .array items ∧
          List.Forall₂ (ShowsFilm seed nested) (catalog.supplied arguments) items) ∧
      Seeded seed after := by
  obtain ⟨arguments, nested, items, isFilms, isArray, elements⟩ :=
    branch_of_answers_catalog answer
  obtain ⟨shows, kept⟩ := showsFilm_of_elements (fun _ => exists_film_of_supplied)
    (fun _ => hasParts_of_supplied parts) seeded elements
  exact ⟨⟨arguments, nested, items, isFilms, isArray, shows⟩, kept⟩

theorem showsCatalog_of_shaped (parts : HasParts (.catalog catalog)) {selections : List Selection}
    {context : Context} {value : Value}
    (shaped : Shaped graph (.catalog catalog) selections (.ok context) value after) :
    ShowsCatalog (seedIn context) selections catalog value := by
  cases shaped with
  | @object _ _ members answers _ between _ entered answered keys values =>
      have atStart := state_of_enters (hook_catalog catalog) entered
      have keeps (selection : Selection) (value : Value) (entry exit : Store)
          (seeded : Seeded (seedIn context) entry)
          (answer : Answers graph (.catalog catalog) selection entry value exit) :
          Seeded (seedIn context) exit :=
        (showsFilm_of_answers_catalog parts seeded answer).2
      refine ⟨members, rfl, ?_⟩
      intro name found present
      rw [values] at present
      obtain ⟨selection, first, named, entry, exit, seeded, answer⟩ :=
        answers_of_lookup keeps ⟨context, atStart, rfl⟩ answered present
      obtain ⟨⟨arguments, nested, items, isFilms, isArray, shows⟩, _⟩ :=
        showsFilm_of_answers_catalog parts seeded answer
      rw [mem_firsts_iff] at first
      subst isFilms named
      exact ⟨rfl, arguments, nested, items, first, isArray, shows⟩

end Catalogs

/-- Where all films of a catalog have part numbers, results on it show what the seed determines,
whatever else the context held, and an execution leaves the context as it was but for the same
details of films that it entered. -/
theorem execute_seeded (limit : DepthLimit) (selections : List Selection) (catalog : Catalog)
    (parts : ∀ film ∈ catalog.films, film.id < Int64.maxValue) (before : Context) :
    ∃ after,
      ((execute graph limit selections (.catalog catalog)).outcome (.ok before)).2 = .ok after ∧
      (∀ value,
        ((execute graph limit selections (.catalog catalog)).outcome (.ok before)).1 = .ok value →
          ShowsCatalog (seedIn before) selections catalog value) ∧
      Refreshed before (entries graph limit selections (.catalog catalog) (.ok before)) after ∧
      after.get? "seed" = before.get? "seed" := by
  have hasParts : HasParts (.catalog catalog) := fun film member =>
    Int64.ne_of_lt (parts film member)
  obtain ⟨after, left, refreshed⟩ := refreshed_execute hasParts limit selections before
  refine ⟨after, left, ?_, refreshed, refreshed.seed⟩
  intro value ended
  have succeeded :
      (evalLevel graph limit [] 1 selections (.catalog catalog)).outcome (.ok before) =
        (.ok value, .ok after) := Prod.ext ended left
  apply showsCatalog_of_shaped hasParts
  apply shaped_of_evalLevel _ succeeded
  intro members between evaluated
  exact allAnswer_of_evalSelections [] selections evaluated

def outdatedContext : Context :=
  (Dict.empty.insert "seed" (.integer 7)).insert "film:0:name" (.string "Spiderman?")

/-- A query that asks for one detail of a film twice, and for the films twice. -/
def repeatedDetails : List Selection :=
  [.branch "films" (Dict.empty.insert "p" (.integer 1)) [.leaf "name", .leaf "id", .leaf "name"],
    .branch "films" .empty [.leaf "description"]]

def repeatedDetailsValue : Value :=
  .object [("films", .array [.object [("id", .integer 0),
    ("name", .string "Spiderman 1. Spider vs. fly")]])]

theorem showsCatalog_repeatedDetailsValue :
    (∀ film ∈ (Catalog.ofCount 3).films, film.id < Int64.maxValue) ∧
      ((execute graph .unlimited repeatedDetails (.catalog (.ofCount 3))).outcome
        (.ok outdatedContext)).1 = .ok repeatedDetailsValue ∧
      ShowsCatalog 7 repeatedDetails (.ofCount 3) repeatedDetailsValue := by
  have parts : ∀ film ∈ (Catalog.ofCount 3).films, film.id < Int64.maxValue := by
    simp only [Catalog.ofCount, firstFilms, List.forall_mem_map]
    decide
  have succeeded :
      ((execute graph .unlimited repeatedDetails (.catalog (.ofCount 3))).outcome
        (.ok outdatedContext)).1 = .ok repeatedDetailsValue := rfl
  obtain ⟨_, _, shows, _⟩ :=
    execute_seeded .unlimited repeatedDetails (.ofCount 3) parts outdatedContext
  exact ⟨parts, succeeded, shows _ succeeded⟩

end FieldQuery.Films
