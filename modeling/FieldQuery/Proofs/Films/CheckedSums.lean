import FieldQuery.CommandLine.Run
import FieldQuery.Proofs.Films.Refreshing

/-!
# Sums of film numbers

A part number is the successor of a film number, and both are words. The graph adds them where it
enters a film and where it resolves comments. The sum is a word unless the film has the greatest
number; a catalog that counts its films has no such film, and no request leads to it.
-/

set_option autoImplicit false

namespace FieldQuery.Films

open Query DataGraph Execution

/-- The films of a check have part numbers, so it never breaks off. -/
theorem check_ne_broken (settings : Settings) (seed : Int64) (syntaxOnly : Bool) (text : String)
    (fault : Fault) : CommandLine.check settings seed syntaxOnly text ≠ .error (.broken fault) := by
  rw [CommandLine.check]
  cases parse settings.parser text with
  | error error => exact nofun
  | ok selections =>
      cases syntaxOnly with
      | true => exact nofun
      | false =>
          obtain ⟨after, left, _⟩ := refreshed_execute (hasParts_ofCount CommandLine.storedFilms)
            settings.executor selections (.ofList [("seed", .integer seed)])
          change CommandLine.resultOf (CommandLine.executed settings seed selections) ≠ _
          have kept : (CommandLine.executed settings seed selections).2 = .ok after := left
          generalize CommandLine.executed settings seed selections = outcome at kept
          obtain ⟨result, store⟩ := outcome
          obtain rfl : store = .ok after := kept
          cases result <;> exact nofun

/-- An execution breaks off exactly if it enters a film of the greatest number, and then because a
sum is no word. Where no film has that number, which is so in every counted catalog, it always
leaves a context, and so a check never breaks off. A film of a negative number is refused by its
hook, before anything is resolved on it. Of any other film but the greatest, the hook stores the
details with the exact part number, and the comments are given with it. -/
theorem execute_checked (limit : DepthLimit) (selections : List Selection) (root : Item)
    (before : Context) :
    let store := ((execute graph limit selections root).outcome (.ok before)).2
    (∀ fault, store = .error fault ↔ fault = .sumOutOfRange ∧
        ∃ visit ∈ entries graph limit selections root (.ok before),
          ∃ film, visit.node = .film film ∧ film.id = Int64.maxValue) ∧
      (HasParts root → ∃ after, store = .ok after) ∧
      (∀ count, HasParts (.catalog (.ofCount count))) ∧
      (∀ settings seed syntaxOnly text fault,
        CommandLine.check settings seed syntaxOnly text ≠ .error (.broken fault)) ∧
      (∀ path depth film, limit.exceededBy depth = false → film.id < 0 →
        evalLevel graph limit path depth selections (.film film) =
          throw (.batchResolve
            ("film part " ++ Text.decimal (film.id.toInt + 1) ++ " does not exist"))) ∧
      ∀ film : Film, 0 ≤ film.id → film.id ≠ Int64.maxValue → ∀ fields context,
        (prefetch film fields).run.run (.ok context) =
            (.ok (), .ok (storeDetails (seedIn context) film.id fields context)) ∧
          resolveComments film = .ok film.exactComments := by
  intro store
  refine ⟨?_, ?_, hasParts_ofCount, check_ne_broken, ?_, ?_⟩
  · intro fault
    rcases store_execute limit selections root before with
      ⟨greatest, broken⟩ | ⟨others, after, left, _⟩
    · constructor
      · intro failed
        cases broken.symm.trans failed
        exact ⟨rfl, greatest⟩
      · rintro ⟨rfl, _⟩
        exact broken
    · constructor
      · intro failed
        cases left.symm.trans failed
      · rintro ⟨_, visit, member, greatest⟩
        exact absurd greatest (others visit member)
  · intro parts
    obtain ⟨after, left, _⟩ := refreshed_execute parts limit selections before
    exact ⟨after, left⟩
  · intro path depth film shallow negative
    exact evalLevel_film_of_negative (Bool.eq_false_iff.mp shallow) negative
  · intro film exist below fields context
    have notNegative : ¬ film.id < 0 := Int64.not_lt.mpr exist
    have fetched : film.fetch fields context =
        storeDetails (seedIn context) film.id fields context := if_neg notNegative
    refine ⟨?_, resolveComments_eq below⟩
    rw [run_prefetch, if_neg notNegative, numbered_of_below below, Except.map, fetched]

/-- The comments of a film, where the first one names its part. -/
def favourites : List Selection := [.branch "comments" .empty [.leaf "text"]]

def favouritesOf (part : String) : Value :=
  .object [("comments", .array [
    .object [("text", .string ("Part " ++ part ++ " is my favourite!"))],
    .object [("text", .string "Aw, I have so many fans!")]])]

theorem execute_checked_favourites :
    HasParts (.film (.ofId (Int64.maxValue - 1))) ∧
      (∃ after, ((execute graph .unlimited favourites
        (.film (.ofId (Int64.maxValue - 1)))).outcome (.ok .empty)).2 = .ok after) ∧
      ((execute graph .unlimited favourites (.film (.ofId (Int64.maxValue - 1)))).outcome
        (.ok .empty)).1 = .ok (favouritesOf "9223372036854775807") ∧
      evalLevel graph .unlimited [] 1 favourites (.film (.ofId (-5))) =
        throw (.batchResolve "film part -4 does not exist") := by
  have parts : HasParts (.film (.ofId (Int64.maxValue - 1))) := by
    rw [HasParts]
    decide
  obtain ⟨_, leaves, _, _, refuses, _⟩ := execute_checked .unlimited favourites
    (.film (.ofId (Int64.maxValue - 1))) .empty
  exact ⟨parts, leaves parts, rfl, refuses [] 1 (.ofId (-5)) rfl (by decide)⟩

/-- On the film of the greatest number an execution breaks off, where the exact part number would be
written. -/
theorem greatestFilm_overflows :
    ((execute graph .unlimited favourites (.film (.ofId Int64.maxValue))).outcome (.ok .empty)).2 =
        .error .sumOutOfRange ∧
      (Film.ofId Int64.maxValue).exactComments.map Comment.text =
        ["Part 9223372036854775808 is my favourite!", "Aw, I have so many fans!"] := by
  refine ⟨rfl, ?_⟩
  decide

end FieldQuery.Films
