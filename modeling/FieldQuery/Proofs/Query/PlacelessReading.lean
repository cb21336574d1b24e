import FieldQuery.Proofs.Query.OnePassAgreement
import FieldQuery.Proofs.Query.Relocation

/-!
# Reading without positions

A reader never looks at the positions that it carries along, so what the rest of a text makes of it
does not depend on where that rest stands. Where only the selections matter, texts are read here as
if all their characters stood at one place.
-/

set_option autoImplicit false

namespace FieldQuery.Query.OnePass

def Place.relocate (move : Position → Position) : Place → Place
  | .between pending => .between (pending.relocate move)
  | .comment pending => .comment (pending.relocate move)
  | .arguments name start list => .arguments name (move start) (list.relocate move)

namespace Reader

def relocate (move : Position → Position) (reader : Reader) : Reader :=
  { reader with place := reader.place.relocate move }

theorem flush_relocate (move : Position → Position) (selections : List Selection)
    (pending : Pending) : flush selections (pending.relocate move) = flush selections pending := by
  cases pending <;> rfl

theorem stepBetween_relocate (move : Position → Position) (limit : DepthLimit) (outermost : Nat)
    (frames : List Frame) (selections : List Selection) (pending : Pending) (character : Char)
    (here : Position) :
    stepBetween limit outermost frames selections (pending.relocate move) character (move here) =
      (stepBetween limit outermost frames selections pending character here).map
        (relocate move) := by
  simp only [stepBetween]
  split
  · rw [Pending.ended_relocate]
    rfl
  split
  · cases pending <;> rfl
  split
  · rw [Pending.ended_relocate]
    rfl
  split
  · cases pending <;> rfl
  split
  · cases pending with
    | nothing => rfl
    | named name start ended =>
        simp only [openBrace, openBlock, Pending.relocate]
        split <;> rfl
    | called name start arguments =>
        simp only [openBrace, openBlock, Pending.relocate]
        split <;> rfl
  split
  · cases frames with
    | nil => cases pending <;> rfl
    | cons frame outer => cases pending <;> cases frame <;> rfl
  split
  · cases pending with
    | nothing => rfl
    | named name start ended => cases ended <;> rfl
    | called name start arguments => rfl
  · rfl

theorem step_relocate (move : Position → Position) (limit : DepthLimit) (outermost : Nat)
    (reader : Reader) (character : Char) (here : Position) :
    (reader.relocate move).step limit outermost character (move here) =
      (reader.step limit outermost character here).map (relocate move) := by
  obtain ⟨frames, selections, place⟩ := reader
  cases place with
  | between pending =>
      exact stepBetween_relocate move limit outermost frames selections pending character here
  | comment pending =>
      simp only [step, relocate, Place.relocate]
      split <;> rfl
  | arguments name start list =>
      simp only [step, relocate, Place.relocate]
      rw [ArgumentList.step_relocate]
      cases list.step character here with
      | error fault => rfl
      | ok progress => cases progress <;> rfl

theorem finish_relocate (move : Position → Position) (reader : Reader) :
    (reader.relocate move).finish = reader.finish := by
  obtain ⟨frames, selections, place⟩ := reader
  cases frames with
  | nil =>
      cases place with
      | between pending => exact flush_relocate move selections pending
      | comment pending => exact flush_relocate move selections pending
      | arguments name start list => rfl
  | cons frame outer => cases place <;> rfl

/-- A reader with all its positions at the first place of a text. -/
def placeless (reader : Reader) : Reader := reader.relocate fun _ => .start

/-- What a text gives does not depend on where it stands nor on where the text before it stood. -/
theorem run_finish_eq {limit : DepthLimit} {outermost : Nat} {reader other : Reader}
    (same : reader.placeless = other.placeless) (here there : Position) (rest : List Char) :
    (reader.run limit outermost here rest).bind finish =
      (other.run limit outermost there rest).bind finish := by
  induction rest generalizing reader other here there with
  | nil =>
      have finished := congrArg finish same
      rw [placeless, placeless, finish_relocate, finish_relocate] at finished
      exact finished
  | cons character rest ih =>
      have first := step_relocate (fun _ => .start) limit outermost reader character here
      have second := step_relocate (fun _ => .start) limit outermost other character there
      rw [← placeless, same, placeless, second] at first
      rw [run_cons, run_cons]
      cases stepped : reader.step limit outermost character here with
      | none =>
          rw [stepped, Option.map_none, Option.map_eq_none_iff] at first
          rw [first]
          rfl
      | some next =>
          rw [stepped, Option.map_some, Option.map_eq_some_iff] at first
          obtain ⟨otherNext, otherStepped, sameNext⟩ := first
          rw [otherStepped]
          exact ih sameNext.symm _ _

variable {limit : DepthLimit}

abbrev next (limit : DepthLimit) (reader : Reader) (character : Char) : Option Reader :=
  reader.step limit 1 character .start

def gives (limit : DepthLimit) (reader : Reader) (rest : List Char) : Option (List Selection) :=
  (reader.run limit 1 .start rest).bind finish

theorem gives_cons (reader : Reader) (character : Char) (rest : List Char) :
    reader.gives limit (character :: rest) =
      (reader.next limit character).bind fun after => after.gives limit rest := by
  rw [gives, run_cons, next]
  cases reader.step limit 1 character .start with
  | none => rfl
  | some after => exact run_finish_eq rfl _ _ rest

theorem gives_of_next {reader after : Reader} {character : Char}
    (stepped : reader.next limit character = some after) (rest : List Char) :
    reader.gives limit (character :: rest) = after.gives limit rest := by
  rw [gives_cons, stepped, Option.bind_some]

theorem gives_of_refused {reader : Reader} {character : Char}
    (refused : reader.next limit character = none) (rest : List Char) :
    reader.gives limit (character :: rest) = none := by
  rw [gives_cons, refused, Option.bind_none]

theorem read_eq_gives (text : String) : read limit text = start.gives limit text.toList := rfl

end Reader

end FieldQuery.Query.OnePass
