import FieldQuery.CommandLine.Run
import FieldQuery.Proofs.Execution.Reordering
import FieldQuery.Proofs.Films.SeededFilms

/-!
# The order of requests on the catalog graph

The order in which fields are asked for shows neither in the result of a successful execution nor
in the context that it leaves. The hook of a film stores the same details in whatever order it is
told them, and on films and comments no selection changes the context. A catalog has one field, so
there is nothing to permute in a set on it.
-/

set_option autoImplicit false

namespace FieldQuery.Films

open Query DataGraph Execution
open FieldQuery.Execution.Computation

/-- Stored details do not depend on the order, or the number of times, in which they are named. -/
theorem storeDetails_congr {fields others : List String}
    (same : ∀ field, field ∈ fields ↔ field ∈ others) (seed film : Int64) (context : Context) :
    storeDetails seed film fields context = storeDetails seed film others context := by
  apply Dict.ext_get?
  intro key
  rcases get?_storeDetails seed film fields context key with
    ⟨field, member, detail, rfl, derived, stored⟩ | ⟨absent, kept⟩
  · rw [stored, get?_storeDetails_detailKey ((same field).mp member) derived]
  · rcases get?_storeDetails seed film others context key with
      ⟨field, member, detail, own, derived, _⟩ | ⟨_, alsoKept⟩
    · rw [absent field ((same field).mpr member) own] at derived
      cases derived
    · rw [kept, alsoKept]

theorem prefetch_congr {fields others : List String}
    (same : ∀ field, field ∈ fields ↔ field ∈ others) (film : Film) :
    prefetch film fields = prefetch film others := by
  have stored : storeAsked film fields = storeAsked film others := by
    funext store
    have first := run_storeAsked film fields store
    simp only [storeDetails_congr same] at first
    exact first.trans (run_storeAsked film others store).symm
  rw [prefetch, prefetch, stored]

variable {limit : DepthLimit} {path : Path} {depth : Nat}

theorem enter_congr {names others : List String} (same : ∀ name, name ∈ names ↔ name ∈ others)
    (item : Item) :
    enter graph limit path depth names item = enter graph limit path depth others item := by
  cases item with
  | catalog catalog => simp only [enter, hook_catalog]
  | film film => simp only [enter, hook_film, prefetch_congr same]
  | comment comment => simp only [enter, hook_comment]

/-- Whatever a set without repeated names gives on a catalog, it has at most one selection. -/
theorem length_le_one_of_catalog {catalog : Catalog} {selections : List Selection}
    (distinct : (selections.map Selection.name).Nodup) {before after : Store}
    {members : Dict Value}
    (evaluated : (evalSelections graph limit path depth (.catalog catalog) [] selections).outcome
      before = (.ok members, after)) : selections.length ≤ 1 := by
  obtain ⟨answers, answered, _⟩ := allAnswer_of_evalSelections [] selections evaluated
  have films : ∀ name ∈ selections.map Selection.name, name = "films" := by
    intro name member
    have told : name ∈ answers.map Prod.fst := by
      rw [names_of_allAnswer answered, ← firsts, map_name_firsts]
      exact List.mem_eraseDups.mpr member
    obtain ⟨value, found⟩ := Option.isSome_iff_exists.mp (Entries.isSome_lookup_iff.mpr told)
    obtain ⟨selection, _, rfl, entry, exit, _, answer⟩ :=
      answers_of_lookup (fun _ _ _ _ _ _ => True.intro) trivial answered found
    obtain ⟨arguments, nested, items, rfl, _⟩ := branch_of_answers_catalog answer
    rfl
  rw [← List.length_map (f := Selection.name)]
  cases named : selections.map Selection.name with
  | nil => exact Nat.zero_le 1
  | cons first rest =>
      rw [named] at films distinct
      obtain ⟨isFilms, others⟩ := List.forall_mem_cons.mp films
      cases rest with
      | nil => exact Nat.le_refl 1
      | cons second rest =>
          have same : first = second := isFilms.trans (others second List.mem_cons_self).symm
          exact absurd (same ▸ List.mem_cons_self) (List.nodup_cons.mp distinct).1

theorem outcome_evalSelections_item {selections others : List Selection}
    (distinct : (selections.map Selection.name).Nodup) (permutation : selections.Perm others)
    {item : Item} (parts : HasParts item) {before after : Store} {members : Dict Value}
    (evaluated : (evalSelections graph limit path depth item [] selections).outcome before =
      (.ok members, after)) :
    (evalSelections graph limit path depth item [] others).outcome before =
      (.ok members, after) := by
  cases item with
  | catalog catalog =>
      have short := length_le_one_of_catalog distinct evaluated
      obtain rfl : selections = others := by
        match selections, short with
        | [], _ => exact (List.nil_perm.mp permutation).symm
        | [selection], _ => exact List.singleton_perm.mp permutation
      exact evaluated
  | film film =>
      apply outcome_evalSelections_of_perm _ distinct permutation evaluated
      intro selection value between succeeded
      exact state_of_answers_film parts selection value
        (answers_of_evalSelection selection succeeded)
  | comment comment =>
      apply outcome_evalSelections_of_perm _ distinct permutation evaluated
      intro selection value between succeeded
      exact state_of_answers_comment selection value
        (answers_of_evalSelection selection succeeded)

theorem filters_evalLevel_of_reordering {selections others : List Selection}
    (reordering : Reordering selections others) (path : Path) (depth : Nat) {item : Item}
    (parts : HasParts item) :
    Filters (fun _ => True) (evalLevel graph limit path depth selections item)
      (evalLevel graph limit path depth others item) := by
  induction reordering generalizing path depth item with
  | @permuted selections others distinct permutation =>
      have told (name : String) : name ∈ requested selections ↔ name ∈ requested others := by
        rw [requested, requested, List.mem_eraseDups, List.mem_eraseDups]
        exact (permutation.map Selection.name).mem_iff
      rw [evalLevel, evalLevel, enter_congr told]
      apply (filters_refl _ _).bind
      intro _
      refine Filters.bind ?_ fun members => filters_refl _ _
      intro before
      cases evaluated :
        outcome (evalSelections graph limit path depth item [] selections) before with
      | mk result after =>
          cases result with
          | ok members =>
              exact .inl (outcome_evalSelections_item distinct permutation parts evaluated).symm
          | error error => exact .inr ⟨error, after, rfl, trivial⟩
  | @nested front back inner changed name arguments _ ih =>
      have told : requested (front ++ .branch name arguments inner :: back) =
          requested (front ++ .branch name arguments changed :: back) := by
        simp only [requested, List.map_append, List.map_cons, Selection.name]
      rw [evalLevel, evalLevel, told]
      apply (filters_refl _ _).bind
      intro _
      refine Filters.bind ?_ fun members => filters_refl _ _
      have named : (Selection.branch name arguments inner).name =
          (Selection.branch name arguments changed).name := rfl
      refine filters_evalSelections_of_selection named ?_ [] front back
      rw [evalSelection_branch, evalSelection_branch]
      split
      · next stored resolver declared =>
          apply filters_liftM_bind
          intro store
          refine Filters.bind (.mapM ?_) fun items => filters_refl _ _
          intro child member
          have partsChild := closed_hasParts item parts name stored resolver declared arguments
            store child member
          exact ih (path ++ [name]) (depth + 1) partsChild
      · exact filters_refl _ _

theorem outcome_execute_of_reordered {selections others : List Selection}
    (reordered : Relation.ReflTransGen Reordering selections others) (limit : DepthLimit)
    {root : Item} (parts : HasParts root) {before after : Store} {value : Value}
    (succeeded : (execute graph limit selections root).outcome before = (.ok value, after)) :
    (execute graph limit others root).outcome before = (.ok value, after) := by
  induction reordered with
  | refl => exact succeeded
  | tail _ last ih =>
      rcases filters_evalLevel_of_reordering last [] 1 parts before with
        same | ⟨error, stopped, failed, _⟩
      · exact same.symm.trans ih
      · rw [execute, failed] at ih
        cases ih

/-- A query that succeeds on the graph succeeds with the same value and leaves the same context
when the selections of any of its sets without repeated names are permuted. This holds under every
limit, on every node whose films have part numbers and in every context, and so for every check. -/
theorem execute_reordered {selections others : List Selection}
    (reordered : Relation.ReflTransGen Reordering selections others) :
    (∀ limit root, HasParts root → ∀ (before after : Store) (value : Value),
      (execute graph limit selections root).outcome before = (.ok value, after) →
        (execute graph limit others root).outcome before = (.ok value, after)) ∧
    ∀ settings seed (value : Value) (after : Store),
      CommandLine.executed settings seed selections = (.ok value, after) →
        CommandLine.executed settings seed others = (.ok value, after) := by
  constructor
  · intro limit root parts before after value
    exact outcome_execute_of_reordered reordered limit parts
  · intro settings seed value after
    exact outcome_execute_of_reordered reordered settings.executor (hasParts_ofCount _)

def filmRequest : List Selection :=
  [.branch "films" (Dict.empty.insert "p" (.integer 2))
    [.leaf "releaseYear", .branch "comments" .empty [.leaf "username", .leaf "text"],
      .leaf "name"]]

/-- The same fields in another order, those of comments included. -/
def filmRequestReordered : List Selection :=
  [.branch "films" (Dict.empty.insert "p" (.integer 2))
    [.leaf "name", .leaf "releaseYear",
      .branch "comments" .empty [.leaf "text", .leaf "username"]]]

theorem reordering_filmRequest :
    Relation.ReflTransGen Reordering filmRequest filmRequestReordered := by
  have fields : Reordering
      [.leaf "releaseYear", .branch "comments" .empty [.leaf "username", .leaf "text"],
        .leaf "name"]
      [.leaf "name", .leaf "releaseYear",
        .branch "comments" .empty [.leaf "username", .leaf "text"]] :=
    .permuted (by decide) (by decide)
  have inComments : Reordering [.leaf "username", .leaf "text"] [.leaf "text", .leaf "username"] :=
    .permuted (by decide) (by decide)
  have behind : Reordering
      ([.leaf "name", .leaf "releaseYear"] ++
        .branch "comments" .empty [.leaf "username", .leaf "text"] :: [])
      ([.leaf "name", .leaf "releaseYear"] ++
        .branch "comments" .empty [.leaf "text", .leaf "username"] :: []) :=
    .nested inComments
  have inFilms {inner changed : List Selection} (inside : Reordering inner changed) :
      Reordering [.branch "films" (Dict.empty.insert "p" (.integer 2)) inner]
        [.branch "films" (Dict.empty.insert "p" (.integer 2)) changed] := by
    rw [← List.nil_append [Selection.branch _ _ inner],
      ← List.nil_append [Selection.branch _ _ changed]]
    exact .nested inside
  exact .tail (.single (inFilms fields)) (inFilms behind)

def filmRequestValue : Value :=
  .object [("films", .array [.object
    [("comments", .array
        [.object [("text", .string "Part 2 is my favourite!"),
            ("username", .string "Spiderman fan")],
          .object [("text", .string "Aw, I have so many fans!"),
            ("username", .string "Spiderman")]]),
      ("name", .string "Spiderman 2. Spider vs. fly"), ("releaseYear", .integer 2016)]])]

theorem executed_filmRequestReordered :
    ∃ after,
      Relation.ReflTransGen Reordering filmRequest filmRequestReordered ∧
        CommandLine.executed .unlimited 7 filmRequest = (.ok filmRequestValue, after) ∧
        CommandLine.executed .unlimited 7 filmRequestReordered = (.ok filmRequestValue, after) := by
  have succeeded : CommandLine.executed .unlimited 7 filmRequest =
      (.ok filmRequestValue, (CommandLine.executed .unlimited 7 filmRequest).2) := rfl
  exact ⟨_, reordering_filmRequest, succeeded,
    (execute_reordered reordering_filmRequest).2 .unlimited 7 _ _ succeeded⟩

end FieldQuery.Films
