import FieldQuery.Proofs.Query.ErrorPositions

/-!
# The blocks that a level completes

A block holds the text that has been read since its brace, and nothing else decides what it does.
So every block among the entries of a level is one that closes right behind the text of the entry.
-/

set_option autoImplicit false

namespace FieldQuery.Query

namespace Block

def feed (block : Block) (here : Position) : List Char → Option Block
  | [] => some block
  | character :: rest =>
      match block.step character here with
      | .ok (.waiting next) => next.feed (here.advance character) rest
      | _ => none

/-- The block that a brace opens is closed behind just this text. -/
def ClosesWith (openedAt : Position) (text : String) : Prop :=
  ∃ last closing,
    (opened openedAt).feed (openedAt.advance '{') text.toList = some last ∧
      last.step closing ((openedAt.advance '{').after text.toList) = .ok (.closed text)

theorem feed_append {block last : Block} {here : Position} {front back : List Char}
    (fed : block.feed here front = some last) :
    block.feed here (front ++ back) = last.feed (here.after front) back := by
  induction front generalizing block here with
  | nil =>
      cases fed
      rfl
  | cons character rest ih =>
      simp only [feed] at fed
      split at fed
      · next extended waiting =>
          simp only [List.cons_append, feed, waiting]
          exact ih fed
      · cases fed

/-- A block is what reading its own text from its brace on gives, and the character at `here` comes
next. -/
structure Collects (here : Position) (block : Block) : Prop where
  origin : block.origin = block.openedAt.advance '{'
  fed : (opened block.openedAt).feed (block.openedAt.advance '{') block.text.toList = some block
  here : (block.openedAt.advance '{').after block.text.toList = here

theorem collects_opened (openedAt : Position) :
    (opened openedAt).Collects (openedAt.advance '{') := ⟨rfl, rfl, rfl⟩

section

variable {block next : Block} {here : Position} {character : Char}

theorem Collects.step (collects : block.Collects here)
    (stepped : block.step character here = .ok (.waiting next)) :
    next.Collects (here.advance character) := by
  obtain ⟨origin, fed, there⟩ := collects
  obtain rfl := eq_extend_of_step stepped
  have onwards : (opened block.openedAt).feed (block.openedAt.advance '{')
      (block.text.toList ++ [character]) = some (block.extend character) := by
    rw [feed_append fed, there]
    simp only [feed, stepped]
  refine ⟨origin, ?_, ?_⟩
  · rw [toList_text_extend]
    exact onwards
  · rw [toList_text_extend, Position.after_append]
    exact congrArg (Position.advance · character) there

theorem Collects.closesWith (collects : block.Collects here) {text : String}
    (stepped : block.step character here = .ok (.closed text)) :
    ClosesWith block.openedAt text := by
  obtain rfl := eq_text_of_step stepped
  refine ⟨block, character, collects.fed, ?_⟩
  rw [collects.here]
  exact stepped

end

end Block

def Entry.Accepted : Entry → Prop
  | .leaf _ => True
  | .block _ _ origin text =>
      ∃ openedAt, origin = openedAt.advance '{' ∧ Block.ClosesWith openedAt text

def Focus.Collects (here : Position) : Focus → Prop
  | .block _ _ inner => inner.Collects here
  | _ => True

namespace Level

theorem collects_start (here : Position) : start.focus.Collects here := trivial

/-- A step keeps to the text of the block that the level is in, and completes blocks that have been
closed. -/
def Collected (here : Position) : Outcome → Prop
  | .ok (next, entry) => next.focus.Collects here ∧ ∀ complete ∈ entry, complete.Accepted
  | .error _ => True

theorem collected_waiting {here : Position} {next : Level} (collects : next.focus.Collects here) :
    Collected here (.ok (next, none)) := ⟨collects, nofun⟩

theorem collected_flush {here : Position} (pending : Pending) {next : Level}
    (collects : next.focus.Collects here) :
    Collected here (do
      let entry ← pending.flush
      return (next, entry)) := by
  cases pending with
  | nothing => exact collected_waiting collects
  | called name start arguments => trivial
  | named name start ended =>
      refine ⟨collects, ?_⟩
      intro complete member
      cases member
      trivial

theorem collected_stepBetween (openSets : List Position) (pending : Pending) (character : Char)
    (here : Position) :
    Collected (here.advance character) (stepBetween openSets pending character here) := by
  simp only [stepBetween]
  split
  · exact collected_waiting trivial
  split
  · exact collected_flush pending trivial
  split
  · exact collected_waiting trivial
  split
  · cases pending with
    | nothing => trivial
    | named name start ended => exact collected_waiting trivial
    | called name start arguments => trivial
  split
  · next opening =>
      subst opening
      cases pending with
      | nothing => exact collected_waiting trivial
      | named name start ended => exact collected_waiting (Block.collects_opened here)
      | called name start arguments => exact collected_waiting (Block.collects_opened here)
  split
  · cases openSets with
    | nil => cases pending <;> trivial
    | cons innermost outer => exact collected_flush pending trivial
  split
  · cases pending with
    | nothing => exact collected_flush .nothing trivial
    | called name start arguments => trivial
    | named name start ended =>
        cases ended with
        | false => exact collected_waiting trivial
        | true => exact collected_flush (.named name start true) trivial
  · trivial

theorem collected_step {level : Level} {here : Position} (collects : level.focus.Collects here)
    (character : Char) : Collected (here.advance character) (level.step character here) := by
  obtain ⟨openSets, focus⟩ := level
  cases focus with
  | between pending => exact collected_stepBetween openSets pending character here
  | comment pending =>
      simp only [step]
      split <;> exact collected_waiting trivial
  | arguments name start list =>
      simp only [step]
      cases list.step character here with
      | error error => trivial
      | ok progress => cases progress <;> exact collected_waiting trivial
  | block name arguments block =>
      have collects : block.Collects here := collects
      simp only [step]
      cases stepped : block.step character here with
      | error error => trivial
      | ok progress =>
          cases progress with
          | waiting next => exact collected_waiting (collects.step stepped)
          | closed text =>
              refine ⟨trivial, ?_⟩
              intro complete member
              cases member
              exact ⟨block.openedAt, collects.origin, collects.closesWith stepped⟩

theorem accepted_of_mem_scan {level : Level} {here : Position} {characters : List Char}
    {entry : Entry} (collects : level.focus.Collects here)
    (member : entry ∈ (level.scan here characters).entries) : entry.Accepted := by
  induction characters generalizing level here with
  | nil =>
      simp only [scan] at member
      split at member
      · next complete finished =>
          cases complete with
          | none => cases member
          | some complete =>
              cases List.mem_singleton.mp member
              cases entry with
              | leaf name => trivial
              | block name arguments origin text =>
                  obtain ⟨front, closing, back, empty, _⟩ := located_of_finish finished []
                  exact absurd empty (by simp)
      · cases member
  | cons character rest ih =>
      have collected := collected_step collects character
      simp only [scan] at member
      split at member
      · next stepped =>
          rw [stepped] at collected
          exact ih collected.1 member
      · next stepped =>
          rw [stepped] at collected
          rcases List.mem_cons.mp member with rfl | later
          · exact collected.2 _ rfl
          · exact ih collected.1 later
      · cases member

end Level

end FieldQuery.Query
